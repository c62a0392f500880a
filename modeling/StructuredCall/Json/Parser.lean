import StructuredCall.Json.Token

/-!
# Reading JSON

The tokens of a text are put together to a tree, and the tree to a value. The tree is where the
form of the text is checked; the value also needs every number and string to denote something,
and at most 127 arrays and objects inside each other.
-/

namespace StructuredCall.Json

/-- The form of a JSON text. -/
inductive Tree
  | leaf (value : Option Json)
  | array (items : List Tree)
  | object (members : List (Option String × Tree))
deriving Inhabited

/-! ## Building trees -/

/-- An array or object that is still open. What it holds so far is in reverse order. -/
inductive Frame
  | array (items : List Tree)
  | member (members : List (Option String × Tree)) (key : Option String)

/-- What may come next. -/
inductive Expectation
  | value
  /-- The first item of an array, or its end. -/
  | firstItem
  /-- The first key of an object, or its end. -/
  | firstKey
  /-- A key after a comma. -/
  | nextKey (members : List (Option String × Tree))
  /-- What follows a value. -/
  | after (tree : Tree)

/-- The tree of the rest of a text inside some open arrays and objects. -/
def build? : List Token → List Frame → Expectation → Option Tree
  | [], [], .after tree => some tree
  | [], _, _ => none
  | .closeArray :: rest, .array _ :: below, .firstItem => build? rest below (.after (.array []))
  | .closeObject :: rest, below, .firstKey => build? rest below (.after (.object []))
  | .string key :: .colon :: rest, below, .firstKey => build? rest (.member [] key :: below) .value
  | .string key :: .colon :: rest, below, .nextKey members =>
    build? rest (.member members key :: below) .value
  | token :: rest, stack, .after tree =>
    match token, stack with
    | .comma, .array items :: below => build? rest (.array (tree :: items) :: below) .value
    | .closeArray, .array items :: below =>
      build? rest below (.after (.array (tree :: items).reverse))
    | .comma, .member members key :: below => build? rest below (.nextKey ((key, tree) :: members))
    | .closeObject, .member members key :: below =>
      build? rest below (.after (.object ((key, tree) :: members).reverse))
    | _, _ => none
  | token :: rest, stack, expectation =>
    match expectation with
    | .value | .firstItem =>
      match token with
      | .atom value => build? rest stack (.after (.leaf value))
      | .string value => build? rest stack (.after (.leaf (value.map .string)))
      | .openArray => build? rest (.array [] :: stack) .firstItem
      | .openObject => build? rest stack .firstKey
      | _ => none
    | _ => none

def Tree.ofText? (text : String) : Option Tree := do
  build? (← tokens? text.toList) [] .value

/-! ## Values -/

mutual

/-- The value of a tree with at most `depth` arrays and objects inside each other. -/
def Tree.value? (depth : Nat) : Tree → Option Json
  | .leaf value => value
  | .array items =>
    match depth with
    | 0 => none
    | depth + 1 => (Tree.values? depth items).map .array
  | .object members =>
    match depth with
    | 0 => none
    | depth + 1 => (Tree.memberValues? depth members).map ofMembers

/-- The values of the items of an array. -/
def Tree.values? (depth : Nat) : List Tree → Option (List Json)
  | [] => some []
  | tree :: rest => do
    let value ← Tree.value? depth tree
    return value :: (← Tree.values? depth rest)

/-- The values of the members of an object. -/
def Tree.memberValues? (depth : Nat) : List (Option String × Tree) → Option (List (String × Json))
  | [] => some []
  | (key, tree) :: rest => do
    let key ← key
    let value ← Tree.value? depth tree
    return (key, value) :: (← Tree.memberValues? depth rest)

end

/-- How many arrays and objects may stand inside each other. -/
def maxDepth : Nat :=
  127

/-- The value that a text denotes. -/
def ofText? (text : String) : Option Json := do
  (← Tree.ofText? text).value? maxDepth

end StructuredCall.Json
