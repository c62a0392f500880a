import StructuredCall.Backend
import StructuredCall.Literal.Basic
import StructuredCall.Name
import StructuredCall.Real.Layout
import StructuredCall.Text.Quoted

/-!
# Styles of test-case programs

What a language needs, beside its backend, for a program that holds the data of one test case:
how literals are written, how the call of the stub is timed and its output captured, and how the
record of the outcome is printed.
-/

namespace StructuredCall

/-- An expression in a record, with the kind of JSON value that it stands for. -/
inductive RecordValue
  | number (expr : String)
  | boolean (expr : String)
  | text (expr : String)
deriving Repr, DecidableEq, Inhabited

def RecordValue.expr : RecordValue → String
  | number e | boolean e | text e => e

structure RecordEntry where
  key : String
  value : RecordValue
deriving Repr, DecidableEq, Inhabited

/-- The text between an entry of a record and the one before it. -/
def entrySeparator (index : Nat) : String :=
  if index = 0 then "" else ", "

/-- How a language writes the data of a test case. -/
structure CaseStyle where
  language : Language
  /-- Imports and functions ahead of the stub. -/
  prelude : Backend → List Step := fun backend =>
    backend.imports .materialized ++ [.blank] ++ backend.helpers
  /-- Functions between the stub and the entry point. -/
  support : List Step := []
  stringLiteral : String → String := Text.quoted '"'
  charLiteral : Char → String := fun c => Text.quoted '\'' (String.ofList [c])
  trueLiteral : String := "true"
  falseLiteral : String := "false"
  intLiteral : Scalar → Int → String := fun _ n => Text.intText n
  realLiteral : Scalar → Binary64 → String := fun _ x => x.literalText
  /-- An entry of a map from the literals of its key and value. -/
  mapEntry : String → String → String := fun key value => key ++ ": " ++ value
  /-- A composite from its items. -/
  compositeLiteral : Context → Container → Scalar → List String → Compiled String
  /-- The declaration of the constant that holds a composite's number of elements. -/
  sizeConstant : Backend → Context → String → Nat → Compiled String := fun backend ctx name size =>
    backend.declare ctx name (.scalar .integer) (intLiteral .integer size)
  /-- Runs the declaration of the result, timed and with its output captured. -/
  measuredCall : String → List Step
  /-- The captured output as text. -/
  console : String → String := id
  equality : String → String → String := fun left right => left ++ " == " ++ right
  /-- Prints the record as one JSON object. -/
  record : List RecordEntry → List Step

namespace CaseStyle

def boolLiteral (style : CaseStyle) (b : Bool) : String :=
  if b then style.trueLiteral else style.falseLiteral

def scalarLiteral (style : CaseStyle) (scalar : Scalar) : ScalarValue → String
  | .int n => style.intLiteral scalar n
  | .real x => style.realLiteral scalar x
  | .bool b => style.boolLiteral b
  | .char c => style.charLiteral c
  | .text s => style.stringLiteral s

def entryLiteral (style : CaseStyle) (element : Scalar) (entry : String × ScalarValue) : String :=
  style.mapEntry (style.stringLiteral entry.1) (style.scalarLiteral element entry.2)

/-- A literal of a type; `none` if it has another shape than the type. -/
def literal? (style : CaseStyle) (ctx : Context) : DataType → Literal → Option (Compiled String)
  | .scalar s, .scalar value => some (.ok (style.scalarLiteral s value))
  | .composite .array e, .sequence values =>
    some (style.compositeLiteral ctx .array e (values.map (style.scalarLiteral e)))
  | .composite .set e, .sequence values =>
    some (style.compositeLiteral ctx .set e (values.map (style.scalarLiteral e)))
  | .composite .map e, .entries entries =>
    some (style.compositeLiteral ctx .map e (entries.map (style.entryLiteral e)))
  | _, _ => none

end CaseStyle

/-- A text of one character between double quotes, for languages without characters. -/
def charAsText (stringLiteral : String → String) (c : Char) : String :=
  stringLiteral (String.ofList [c])

/-- A target language: its bindings, its backend and its style of test-case programs. -/
structure Target where
  bindings : BindingTable
  backend : Backend
  style : CaseStyle

end StructuredCall
