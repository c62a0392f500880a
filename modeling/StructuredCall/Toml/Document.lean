import StructuredCall.Toml.Statement

/-!
# TOML documents

The table that the statements of a document make up. A key is set once. A table has one header
at most, and neither a header nor a dotted key may open a table that the other has made, except
that headers may add tables below it.
-/

namespace StructuredCall.Toml

/-- How a table came to be. -/
inductive Origin
  /-- By its own header. -/
  | header
  /-- By the header of a table below it. -/
  | implied
  /-- By a dotted key. -/
  | dotted
deriving Repr, DecidableEq, Inhabited

/-- What a key stands for while a document is read. -/
inductive Node
  | value (v : Value)
  | table (origin : Origin) (members : List (String × Node))
  /-- An array of tables, its elements in order. -/
  | tables (elements : List (List (String × Node)))
deriving Inhabited

/-- The members of a table. -/
abbrev Members := List (String × Node)

namespace Members

def find? (members : Members) (key : String) : Option Node :=
  (List.find? (fun m => m.1 = key) members).map (·.2)

/-- Members with a key set, in its place if it is there and otherwise last. -/
def set (members : Members) (key : String) (node : Node) : Members :=
  if members.any fun m => m.1 = key then
    members.map fun m => if m.1 = key then (key, node) else m
  else members ++ [(key, node)]

/-- Changes a table below some parents on the way of a header. Tables that are missing are
implied, and an array of tables stands for its last element. -/
def under (change : Members → Option Members) : List String → Members → Option Members
  | [], members => change members
  | parent :: parents, members =>
    match members.find? parent with
    | none => do
      return members.set parent (.table .implied (← under change parents []))
    | some (.value _) => none
    | some (.table origin inner) => do
      return members.set parent (.table origin (← under change parents inner))
    | some (.tables elements) =>
      match elements.getLast? with
      | none => none
      | some last => do
        return members.set parent (.tables (elements.dropLast ++ [← under change parents last]))

/-- Sets a key that is not there yet. -/
def setNew (key : String) (value : Value) (members : Members) : Option Members :=
  if members.any fun m => m.1 = key then none else some (members ++ [(key, .value value)])

/-- Sets a key below some parents on the way of dotted keys; `origin` is that of the table so
far. The last of the parents must be made by dotted keys. -/
def assign (value : Value) (key : String) (origin : Option Origin) :
    List String → Members → Option Members
  | [], members =>
    match origin with
    | none => setNew key value members
    | some .dotted => setNew key value members
    | some _ => none
  | parent :: parents, members =>
    match members.find? parent with
    | none => do
      return members.set parent (.table .dotted (← assign value key (some .dotted) parents []))
    | some (.value _) => none
    | some (.table .header _) => none
    | some (.table origin inner) => do
      return members.set parent (.table origin (← assign value key (some origin) parents inner))
    | some (.tables elements) =>
      match elements.getLast? with
      | none => none
      | some last => do
        let last ← assign value key (some .header) parents last
        return members.set parent (.tables (elements.dropLast ++ [last]))

/-- Opens a table by its header. Only a table that is implied may be there already. -/
def openTable (key : String) (members : Members) : Option Members :=
  match members.find? key with
  | none => some (members.set key (.table .header []))
  | some (.table .implied inner) => some (members.set key (.table .header inner))
  | some _ => none

/-- Opens a new element of an array of tables. -/
def openElement (key : String) (members : Members) : Option Members :=
  match members.find? key with
  | none => some (members.set key (.tables [[]]))
  | some (.tables elements) => some (members.set key (.tables (elements ++ [[]])))
  | some _ => none

end Members

/-- The document read so far, and the path of the table that its last header has opened. -/
structure Document where
  members : Members := []
  current : List String := []

namespace Document

def add (document : Document) : Statement → Option Document
  | .assign path value => do
    let members ←
      document.members.under (Members.assign value path.key none path.parents) document.current
    return { document with members }
  | .table path => do
    let members ← document.members.under (Members.openTable path.key) path.parents
    return ⟨members, path.parents ++ [path.key]⟩
  | .arrayTable path => do
    let members ← document.members.under (Members.openElement path.key) path.parents
    return ⟨members, path.parents ++ [path.key]⟩

end Document

mutual

/-- The value of what a key stands for. -/
def Node.toValue : Node → Value
  | .value v => v
  | .table _ members => .table (Node.toMembers members)
  | .tables elements => .array (Node.toElements elements)

def Node.toMembers : List (String × Node) → List (String × Value)
  | [] => []
  | (key, node) :: rest => (key, Node.toValue node) :: Node.toMembers rest

/-- The elements of an array of tables. -/
def Node.toElements : List (List (String × Node)) → List Value
  | [] => []
  | members :: rest => .table (Node.toMembers members) :: Node.toElements rest

end

/-- The members of the table that a text denotes. -/
def ofText? (text : String) : Option (List (String × Value)) := do
  let document ← (← statements? text).foldlM Document.add {}
  return Node.toMembers document.members

end StructuredCall.Toml
