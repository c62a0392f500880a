import StructuredCall.Toml.Number
import StructuredCall.Toml.Quoted

/-!
# TOML statements

A document is a list of statements: a key with its value, the header of a table, or the header
of an element of an array of tables. Keys are paths; at most 79 keys make up a path, and at most
79 arrays and inline tables stand inside each other.
-/

namespace StructuredCall.Toml

/-- A path of keys; the last stands apart. -/
structure Path where
  parents : List String
  key : String
deriving Repr, DecidableEq, Inhabited

/-- The statements of a document. -/
inductive Statement
  | assign (path : Path) (value : Value)
  | table (path : Path)
  | arrayTable (path : Path)
deriving Repr, Inhabited

/-- The least number of keys, arrays or inline tables that is too much. -/
def nestingLimit : Nat :=
  80

/-! ## Keys -/

/-- Characters of keys without quotes. -/
def isBare (c : Char) : Bool :=
  ('a' ≤ c && c ≤ 'z') || ('A' ≤ c && c ≤ 'Z') || Text.isDigit c || c = '-' || c = '_'

def readKey : Reader String
  | '"' :: rest => readShortString ('"' :: rest)
  | '\'' :: rest => readShortString ('\'' :: rest)
  | cs =>
    let bare := cs.takeWhile isBare
    if bare.isEmpty then none else some (String.ofList bare, cs.dropWhile isBare)

/-- Keys with dots between them, and spaces around them. -/
def readKeys : Nat → Reader (List String)
  | 0, _ => none
  | fuel + 1, cs => do
    let (key, rest) ← readKey (skipSpaces cs)
    match skipSpaces rest with
    | '.' :: rest => do
      let (keys, rest) ← readKeys fuel rest
      return (key :: keys, rest)
    | rest => return ([key], rest)

def readPath : Reader Path := fun cs => do
  let (keys, rest) ← readKeys (cs.length + 1) cs
  if nestingLimit ≤ keys.length then none
  else return (⟨keys.dropLast, keys.getLastD ""⟩, rest)

/-! ## Inline tables -/

/-- A table in the making: how it came to be, and what is in it. -/
inductive Inline
  | value (v : Value)
  /-- A table that dotted keys have made, open to more of them. -/
  | dotted (members : List (String × Inline))
deriving Inhabited

/-- Sets a key below some parents in an inline table; no key is set twice. -/
def Inline.assign (value : Value) :
    List String → String → List (String × Inline) → Option (List (String × Inline))
  | [], key, members =>
    if members.any (·.1 = key) then none else some (members ++ [(key, .value value)])
  | parent :: parents, key, members =>
    match members.find? (·.1 = parent) with
    | none => do
      let inner ← Inline.assign value parents key []
      return members ++ [(parent, .dotted inner)]
    | some (_, .value _) => none
    | some (_, .dotted inner) => do
      let inner ← Inline.assign value parents key inner
      return members.map fun m => if m.1 = parent then (parent, .dotted inner) else m

mutual

/-- The value of what is in an inline table. -/
def Inline.toValue : Inline → Value
  | .value v => v
  | .dotted members => .table (Inline.toMembers members)

/-- The members of an inline table. -/
def Inline.toMembers : List (String × Inline) → List (String × Value)
  | [] => []
  | (key, inner) :: rest => (key, Inline.toValue inner) :: Inline.toMembers rest

end

/-! ## Values -/

/-- The items of an array up to its bracket; a comma may stand behind the last. -/
def readItems (item : Reader Value) : Nat → Reader (List Value)
  | 0, _ => none
  | fuel + 1, cs => do
    match ← skipTrivia? cs with
    | ']' :: rest => return ([], rest)
    | cs => do
      let (value, rest) ← item cs
      match ← skipTrivia? rest with
      | ',' :: rest => do
        let (values, rest) ← readItems item fuel rest
        return (value :: values, rest)
      | ']' :: rest => return ([value], rest)
      | _ => none

/-- The members of an inline table up to its brace; no comma stands behind the last. -/
def readMembers (item : Reader Value) (members : List (String × Inline)) :
    Nat → Reader (List (String × Inline))
  | 0, _ => none
  | fuel + 1, cs => do
    let (path, rest) ← readPath cs
    let (value, rest) ← item (skipSpaces (← expectChar '=' rest))
    let members ← Inline.assign value path.parents path.key members
    match skipSpaces rest with
    | ',' :: rest => readMembers item members fuel rest
    | '\x7d' :: rest => return (members, rest)
    | _ => none

/-- A value with fewer than `depth` arrays and inline tables inside each other. -/
def readValue : Nat → Reader Value
  | 0 => fun _ => none
  | depth + 1 => fun cs =>
    match cs with
    | [] => none
    | 't' :: 'r' :: 'u' :: 'e' :: rest => some (.boolean true, rest)
    | 'f' :: 'a' :: 'l' :: 's' :: 'e' :: rest => some (.boolean false, rest)
    | c :: rest =>
      if c = '"' ∨ c = '\'' then (readString cs).map fun (s, rest) => (.string s, rest)
      else if c = '[' then
        if depth = 0 then none
        else
          (readItems (readValue depth) (rest.length + 1) rest).map fun (values, rest) =>
            (.array values, rest)
      else if c = '\x7b' then
        if depth = 0 then none
        else
          match skipSpaces rest with
          | '\x7d' :: rest => some (.table [], rest)
          | rest =>
            (readMembers (readValue depth) [] (rest.length + 1) rest).map fun (members, rest) =>
              (.table (Inline.toMembers members), rest)
      else readNumber cs

/-! ## Lines -/

/-- The header of a table or of an element of an array of tables. -/
def readHeader : Reader Statement
  | '[' :: '[' :: rest => do
    let (path, rest) ← readPath rest
    return (.arrayTable path, ← expectChar ']' (← expectChar ']' rest))
  | '[' :: rest => do
    let (path, rest) ← readPath rest
    return (.table path, ← expectChar ']' rest)
  | _ => none

/-- A key with its value. -/
def readAssignment : Reader Statement := fun cs => do
  let (path, rest) ← readPath cs
  let (value, rest) ← readValue nestingLimit (skipSpaces (← expectChar '=' rest))
  return (.assign path value, rest)

/-- The statements of a text. Every round takes a character, so `fuel` rounds are enough for a
text of that length. -/
def statementsWithin? : Nat → List Char → Option (List Statement)
  | 0, _ => none
  | fuel + 1, cs => do
    match ← skipTrivia? cs with
    | [] => return []
    | cs => do
      let (statement, rest) ← if cs.head? = some '[' then readHeader cs else readAssignment cs
      return statement :: (← statementsWithin? fuel (← endLine? rest))

/-- The statements of a document, which a byte order mark may precede. -/
def statements? (text : String) : Option (List Statement) :=
  match text.toList with
  | '\uFEFF' :: rest => statementsWithin? (rest.length + 1) rest
  | cs => statementsWithin? (cs.length + 1) cs

end StructuredCall.Toml
