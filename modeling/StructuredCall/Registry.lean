import StructuredCall.Binding
import StructuredCall.Error

/-!
# Registries

The bindings that code is generated with. Of several bindings for one kind and language the
latest counts. A registry is built for some languages and must bind every kind in each of them;
a lenient one lets a language's integer binding stand in for scalars that are not bound.
-/

namespace StructuredCall

/-- Bindings, the languages they are meant for, and whether integers stand in. -/
structure Registry where
  rows : List BindingRow
  languages : List Language
  lenient : Bool
deriving Repr, DecidableEq, Inhabited

namespace Registry

/-! ## Looking up -/

/-- The binding given for a kind and language. -/
def given? (registry : Registry) (kind : Kind) (language : Language) : Option Binding :=
  (registry.rows.reverse.find? fun row => row.kind = kind ∧ row.language = language).map
    (·.binding)

/-- The binding that is used for a kind and language. -/
def binding? (registry : Registry) (kind : Kind) (language : Language) : Option Binding :=
  match registry.given? kind language with
  | some binding => some binding
  | none =>
    if registry.lenient && !kind.isComposite then registry.given? (.scalar .integer) language
    else none

/-- The binding that is used for a kind and language, or the error that there is none. -/
def lookup (registry : Registry) (kind : Kind) (language : Language) : Compiled Binding :=
  match registry.binding? kind language with
  | some binding => .ok binding
  | none => .error (.missingBinding kind language)

/-! ## Building -/

def isGiven (registry : Registry) (kind : Kind) (language : Language) : Bool :=
  registry.rows.any fun row => row.kind = kind ∧ row.language = language

/-- Whether a kind is bound in a language, or may be left out. -/
def isCovered (registry : Registry) (kind : Kind) (language : Language) : Bool :=
  registry.isGiven kind language ||
    (registry.lenient && !kind.isComposite && registry.isGiven (.scalar .integer) language)

/-- The kinds that are left uncovered, language by language. -/
def gaps (registry : Registry) : List (Kind × Language) :=
  registry.languages.flatMap fun language =>
    (Kind.all.filter fun kind => !registry.isCovered kind language).map (·, language)

/-- The registry of some bindings, if it leaves no gap. -/
def ofRows (rows : List BindingRow) (languages : List Language) (lenient : Bool) :
    Compiled Registry :=
  let registry : Registry := ⟨rows, languages, lenient⟩
  match registry.gaps with
  | [] => .ok registry
  | (kind, language) :: _ => .error (.missingBinding kind language)

/-! ## Expressions -/

/-- The name of a type. -/
def native (registry : Registry) (type : DataType) (language : Language) : Compiled String := do
  let binding ← registry.lookup type.kind language
  match type with
  | .scalar _ => return binding.native
  | .composite _ e =>
    let element ← registry.lookup (.scalar e) language
    return Text.fill binding.native element.generic

/-- The name of a scalar as an element. -/
def generic (registry : Registry) (scalar : Scalar) (language : Language) : Compiled String := do
  return (← registry.lookup (.scalar scalar) language).generic

/-- The value that an empty stub returns. -/
def defaultValue (registry : Registry) (type : DataType) (language : Language) :
    Compiled String := do
  let binding ← registry.lookup type.kind language
  match type with
  | .scalar _ => return binding.defaultValue
  | .composite _ e => return Text.fill binding.defaultValue (← registry.generic e language)

/-- The expression of a value of a kind: for a scalar from a token, for a composite from its
elements. -/
def parse (registry : Registry) (kind : Kind) (language : Language) (source : String) :
    Compiled String := do
  return Text.fill (← registry.lookup kind language).parse source

/-- The expression of a value's text. -/
def format (registry : Registry) (kind : Kind) (language : Language) (value : String) :
    Compiled String := do
  return (← registry.lookup kind language).formatted value

/-- The delimiter between the elements of a printed composite. -/
def delimiter (registry : Registry) (kind : Kind) (language : Language) : Compiled String := do
  return (← registry.lookup kind language).delimiter

end Registry

end StructuredCall
