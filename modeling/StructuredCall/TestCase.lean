import StructuredCall.Json.Parser

/-!
# Test cases

Stored test cases: an identifier, a value for every input and the expected output. A text of
test cases is a JSON array. Each case in it is an object, or an array that lists the values of
the same keys in order; what is not given has a default.
-/

namespace StructuredCall

/-- A stored test case. -/
structure TestCase where
  id : String := ""
  input : List Json := []
  output : Json := .null
  isSample : Bool := false
deriving Repr, Inhabited

namespace TestCase

/-- How many arrays and objects may stand inside each other in a value of a case. -/
def maxDepth : Nat :=
  Json.maxDepth - 2

/-- The keys of a case in the order of their values. -/
def keys : List String :=
  ["_id", "input", "output", "isSample"]

/-- The parts of a case that are there so far. -/
structure Draft where
  id : Option String := none
  input : Option (List Json) := none
  output : Option Json := none
  isSample : Option Bool := none
deriving Repr, Inhabited

namespace Draft

/-- A part that was not there before. -/
def fill (old : Option α) (new : Option α) : Option (Option α) :=
  match old with
  | some _ => none
  | none => new.map some

/-- The value of a key is added. Every key is given once and has a value of its own form; other
keys than those of a case have no meaning, and their values need not denote anything. -/
def add? (draft : Draft) (key : String) (tree : Json.Tree) : Option Draft :=
  let value := tree.value? maxDepth
  match key with
  | "_id" => do
    let id ← fill draft.id (match value with | some (.string s) => some s | _ => none)
    return { draft with id }
  | "input" => do
    let input ← fill draft.input (match value with | some (.array items) => some items | _ => none)
    return { draft with input }
  | "output" => do
    let output ← fill draft.output value
    return { draft with output }
  | "isSample" => do
    let isSample ← fill draft.isSample (match value with | some (.bool b) => some b | _ => none)
    return { draft with isSample }
  | _ => some draft

/-- The values of keys are added in order. -/
def addAll? (draft : Draft) : List (Option String × Json.Tree) → Option Draft
  | [] => some draft
  | (key, tree) :: rest => do (← draft.add? (← key) tree).addAll? rest

/-- The case, with defaults for what is not there. -/
def toCase (draft : Draft) : TestCase :=
  { id := draft.id.getD ""
    input := draft.input.getD []
    output := draft.output.getD .null
    isSample := draft.isSample.getD false }

end Draft

/-- The case that a tree stands for. -/
def ofTree? : Json.Tree → Option TestCase
  | .object members => (({} : Draft).addAll? members).map Draft.toCase
  | .array items =>
    if items.length ≤ keys.length then
      (({} : Draft).addAll? ((keys.map some).zip items)).map Draft.toCase
    else none
  | .leaf _ => none

/-- The test cases in a text. -/
def listOf? (text : String) : Option (List TestCase) := do
  match ← Json.Tree.ofText? text with
  | .array items => items.mapM ofTree?
  | _ => none

def text (test : TestCase) : String :=
  let members :=
    [("_id", .string test.id), ("input", .array test.input), ("output", test.output),
      ("isSample", .bool test.isSample)]
  "\x7b" ++ ",".intercalate (Json.memberTexts members) ++ "\x7d"

end TestCase

end StructuredCall
