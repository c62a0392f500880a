import StructuredCall.Language
import StructuredCall.Text.Pieces

/-!
# Bindings

How one type is written in one target language: the name of the type, how a value is parsed
from text, the value that an empty stub returns, and how a value is printed. The texts are
templates.
-/

namespace StructuredCall

/-- How a value becomes text. -/
inductive OutputRule
  /-- A template over the expression of the value. -/
  | format (template : String)
  /-- The elements, or `key:value` pairs, with a delimiter between them. -/
  | joined (delimiter : String)
deriving Repr, DecidableEq, Inhabited

/-- A type in a language. For a scalar, `parse` is a template over the expression of a token.
For a composite, `native` and `defaultValue` are templates over the element's name, and `parse`
is a template over the expression of the parsed elements. -/
structure Binding where
  native : String
  /-- The name as an element of a composite, where it is another one. -/
  boxed : Option String := none
  parse : String
  defaultValue : String
  output : OutputRule
deriving Repr, DecidableEq, Inhabited

namespace Binding

def scalar (native parse defaultValue format : String) : Binding :=
  ⟨native, none, parse, defaultValue, .format format⟩

/-- The binding of a scalar that has another name as an element. -/
def boxedScalar (native boxed parse defaultValue format : String) : Binding :=
  ⟨native, some boxed, parse, defaultValue, .format format⟩

/-- The binding of a composite, printed with commas. -/
def composite (native parse defaultValue : String) : Binding :=
  ⟨native, none, parse, defaultValue, .joined ","⟩

/-- The name as an element of a composite. -/
def generic (binding : Binding) : String :=
  binding.boxed.getD binding.native

/-- The expression that turns the value of an expression into text. A joined scalar is its own
text. -/
def formatted (binding : Binding) (value : String) : String :=
  match binding.output with
  | .format template => Text.fill template value
  | .joined _ => value

/-- The delimiter between the elements of a printed composite. -/
def delimiter (binding : Binding) : String :=
  match binding.output with
  | .joined delimiter => delimiter
  | .format _ => ","

end Binding

/-- The bindings of a language, one for each kind. -/
abbrev BindingTable := Kind → Binding

/-- The binding of a kind in a language. -/
structure BindingRow where
  kind : Kind
  language : Language
  binding : Binding
deriving Repr, DecidableEq, Inhabited

/-- The rows of a table, in the order of the kinds. -/
def BindingTable.rows (table : BindingTable) (language : Language) : List BindingRow :=
  Kind.all.map fun kind => ⟨kind, language, table kind⟩

end StructuredCall
