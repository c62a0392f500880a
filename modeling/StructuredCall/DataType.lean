import StructuredCall.Text.Numeral

/-!
# Data types

The types of parameters and results. A composite holds scalars; composites do not nest. A
`Kind` is a type name without the element that a composite needs.
-/

namespace StructuredCall

/-- Types without elements. -/
inductive Scalar
  | integer
  | float
  | double
  | long
  | boolean
  | character
  | string
deriving Repr, DecidableEq, Inhabited

/-- Shapes of composite types. -/
inductive Container
  | array
  | map
  | set
deriving Repr, DecidableEq, Inhabited

/-- Type names, scalar or composite. -/
inductive Kind
  | scalar (s : Scalar)
  | container (c : Container)
deriving Repr, DecidableEq, Inhabited

/-- Types of values. -/
inductive DataType
  | scalar (s : Scalar)
  | composite (c : Container) (element : Scalar)
deriving Repr, DecidableEq, Inhabited

namespace Scalar

/-- Every scalar, in the order of declaration. -/
def all : List Scalar :=
  [integer, float, double, long, boolean, character, string]

def name : Scalar → String
  | integer => "integer"
  | float => "float"
  | double => "double"
  | long => "long"
  | boolean => "boolean"
  | character => "character"
  | string => "string"

def isNumeric : Scalar → Bool
  | integer | float | double | long => true
  | boolean | character | string => false

def isWhole : Scalar → Bool
  | integer | long => true
  | _ => false

end Scalar

namespace Container

/-- Every container, in the order of declaration. -/
def all : List Container :=
  [array, map, set]

def name : Container → String
  | array => "array"
  | map => "map"
  | set => "set"

end Container

namespace Kind

/-- Every kind: the scalars, then the containers. -/
def all : List Kind :=
  Scalar.all.map scalar ++ Container.all.map container

def name : Kind → String
  | scalar s => s.name
  | container c => c.name

def isComposite : Kind → Bool
  | scalar _ => false
  | container _ => true

def scalar? : Kind → Option Scalar
  | scalar s => some s
  | container _ => none

/-- A character with the letters A to Z in lower case. -/
def foldCase (c : Char) : Char :=
  if 'A' ≤ c ∧ c ≤ 'Z' then Char.ofNat (c.toNat + 32) else c

/-- A word with the letters A to Z in lower case. -/
def foldCaseText (word : String) : String :=
  String.ofList (word.toList.map foldCase)

/-- The kind that a word names. The case of the letters A to Z does not matter, and `char` is
another word for `character`. -/
def ofWord? (word : String) : Option Kind :=
  let folded := foldCaseText word
  if folded = "char" then some (scalar .character)
  else all.find? fun kind => kind.name = folded

end Kind

namespace DataType

def kind : DataType → Kind
  | scalar s => .scalar s
  | composite c _ => .container c

/-- The element type of a composite. -/
def element? : DataType → Option Scalar
  | scalar _ => none
  | composite _ e => some e

def isComposite : DataType → Bool
  | scalar _ => false
  | composite _ _ => true

/-- How a type is shown. -/
def render : DataType → String
  | scalar s => s.name
  | composite c e => c.name ++ "<" ++ e.name ++ ">"

/-- How a type is written in a source, without the arrow and the name. -/
def words : DataType → List String
  | scalar s => [s.name]
  | composite c e => [c.name, e.name]

end DataType

end StructuredCall
