import StructuredCall.DataType
import StructuredCall.Real.Binary64

/-!
# Literals

Values of the declared types, ready to be written in a target language.
-/

namespace StructuredCall

inductive ScalarValue
  | int (n : Int)
  | real (x : Binary64)
  | bool (b : Bool)
  | char (c : Char)
  | text (s : String)
deriving Repr, DecidableEq, Inhabited

inductive Literal
  | scalar (value : ScalarValue)
  /-- The elements of an array or set, in order; those of a set are distinct. -/
  | sequence (values : List ScalarValue)
  /-- The entries of a map, in order; their keys are distinct. -/
  | entries (entries : List (String × ScalarValue))
deriving Repr, DecidableEq, Inhabited

namespace ScalarValue

/-- Equality of values; it differs from equality on reals only. -/
def sameValue : ScalarValue → ScalarValue → Bool
  | .real x, .real y => x.sameValue y
  | v, w => v = w

end ScalarValue

namespace Literal

/-- The number of elements; one for a scalar. -/
def size : Literal → Nat
  | scalar _ => 1
  | sequence values => values.length
  | entries es => es.length

end Literal

end StructuredCall
