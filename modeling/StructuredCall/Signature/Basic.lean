import StructuredCall.DataType

/-!
# Signatures

What a source describes: the parameters of one function, in order, and the type of its result.
-/

namespace StructuredCall

/-- One parameter. -/
structure Parameter where
  name : String
  type : DataType
  /-- The declared number of elements; a remark that nothing is checked against. -/
  size : Option Nat
deriving Repr, DecidableEq, Inhabited

/-- Parameters and a result. -/
structure Signature where
  inputs : List Parameter
  returns : DataType
deriving Repr, DecidableEq, Inhabited

namespace Parameter

def isComposite (input : Parameter) : Bool :=
  input.type.isComposite

/-- How a parameter is shown after its index. -/
def render (input : Parameter) : String :=
  input.name ++ ": " ++ input.type.render ++
    match input.size with
    | some size => " [size " ++ Text.natText size ++ "]"
    | none => ""

end Parameter

namespace Signature

def input? (signature : Signature) (name : String) : Option Parameter :=
  signature.inputs.find? fun input => input.name = name

def names (signature : Signature) : List String :=
  signature.inputs.map (·.name)

/-- How a signature is shown, one parameter a line. -/
def render (signature : Signature) : String :=
  let rows := signature.inputs.mapIdx fun index input =>
    "    #" ++ Text.natText index ++ " " ++ input.render ++ "\n"
  "execute(\n" ++ String.join rows ++ ") -> " ++ signature.returns.render

end Signature

end StructuredCall
