import StructuredCall.Json.Parser
import StructuredCall.Literal.Basic
import StructuredCall.Text.Blank
import StructuredCall.Text.Pieces

/-!
# Decoding stored values

A stored value is JSON and is decoded against a declared type. Numbers and booleans may also be
given as text, and composites as the text of a JSON array or object or as text joined by commas.
-/

namespace StructuredCall

/-- What a value is expected to be. -/
inductive Wanted
  | integer
  | number
  | boolean
  | character
  | string
  | list
  | map
deriving Repr, DecidableEq, Inhabited

/-- Why a value cannot be decoded. -/
inductive DecodeError
  /-- A value of another kind than the one wanted. -/
  | expected (wanted : Wanted) (found : Json)
  /-- An integer that needs more than 32 bits. -/
  | tooWide (n : Int)
  /-- An empty string in place of a character. -/
  | emptyCharacter
  /-- An element that cannot be decoded. -/
  | element (index : Nat) (cause : DecodeError)
  /-- An entry whose value cannot be decoded. -/
  | entry (key : String) (cause : DecodeError)
  /-- An entry without a separator between key and value. -/
  | unseparated (token : String)
deriving Repr, Inhabited

/-- The words for what is wanted. -/
def Wanted.words : Wanted → String
  | integer => "an integer"
  | number => "a number"
  | boolean => "a boolean"
  | character => "a character"
  | string => "a string"
  | list => "a list"
  | map => "a map"

def DecodeError.message : DecodeError → String
  | expected wanted found => "expected " ++ wanted.words ++ ", found " ++ found.text
  | tooWide n => Text.intText n ++ " does not fit a 32-bit integer"
  | emptyCharacter => "expected a character, found an empty string"
  | element index cause => "element " ++ Text.natText index ++ ": " ++ cause.message
  | entry key cause => "entry `" ++ key ++ "`: " ++ cause.message
  | unseparated token => "map entry `" ++ token ++ "` lacks `:`"

/-- Results that can fail with a decode error. -/
abbrev Decoded := Except DecodeError

namespace Literal

/-! ## Scalars -/

/-- The integer that a value gives, as a number or as text. -/
def int? : Json → Option Int
  | .number (.int n) => if Text.fitsSigned 64 n then some n else none
  | .string s => Text.int64? (Text.trimChars s.toList)
  | _ => none

/-- The finite real that a value gives, as a number or as text. -/
def real? (value : Json) : Option Binary64 :=
  let read := match value with
    | .number (.int n) => some (Binary64.ofInt n)
    | .number (.real x) => some x
    | .string s => Binary64.ofChars? (Text.trimChars s.toList)
    | _ => none
  read.filter (·.isFinite)

/-- The truth value that a value gives, also as text. -/
def bool? : Json → Option Bool
  | .bool b => some b
  | .string s =>
    let word := Text.trim s
    if word = "true" then some true else if word = "false" then some false else none
  | _ => none

/-- Decodes an integer of at most some number of bits. -/
def decodeInt (wide : Bool) (value : Json) : Decoded ScalarValue :=
  match int? value with
  | none => .error (.expected .integer value)
  | some n => if wide || Text.fitsSigned 32 n then .ok (.int n) else .error (.tooWide n)

def decodeReal (value : Json) : Decoded ScalarValue :=
  match real? value with
  | none => .error (.expected .number value)
  | some x => .ok (.real x)

def decodeBool (value : Json) : Decoded ScalarValue :=
  match bool? value with
  | none => .error (.expected .boolean value)
  | some b => .ok (.bool b)

/-- Decodes a character, the first one of a string. -/
def decodeChar : Json → Decoded ScalarValue
  | .string s =>
    match s.toList with
    | [] => .error .emptyCharacter
    | c :: _ => .ok (.char c)
  | value => .error (.expected .character value)

/-- Decodes a text; numbers and booleans stand for their own text. -/
def decodeText : Json → Decoded ScalarValue
  | .string s => .ok (.text s)
  | .bool b => .ok (.text (Json.bool b).text)
  | .number n => .ok (.text n.text)
  | value => .error (.expected .string value)

/-- Decodes a value of a scalar type. -/
def decodeScalar : Scalar → Json → Decoded ScalarValue
  | .integer => decodeInt false
  | .long => decodeInt true
  | .float | .double => decodeReal
  | .boolean => decodeBool
  | .character => decodeChar
  | .string => decodeText

/-! ## Composites -/

/-- The nonempty pieces of a text joined by commas. -/
def commaTokens (text : String) : List String :=
  ((Text.pieces ',' text.toList).filter (· ≠ [])).map String.ofList

/-- The values of the elements of an array or set. -/
def items : Json → Decoded (List Json)
  | .array items => .ok items
  | .string s =>
    match Json.ofText? (Text.trim s) with
    | some (.array items) => .ok items
    | _ => .ok ((commaTokens s).map .string)
  | value => .error (.expected .list value)

/-- Decodes elements, the first of them at `index`. -/
def decodeItems (element : Scalar) (index : Nat) : List Json → Decoded (List ScalarValue)
  | [] => .ok []
  | item :: rest =>
    match decodeScalar element item with
    | .error e => .error (.element index e)
    | .ok value => (decodeItems element (index + 1) rest).map (value :: ·)

def decodeArray (element : Scalar) (value : Json) : Decoded (List ScalarValue) := do
  decodeItems element 0 (← items value)

/-- A list in which a value is kept only where it occurs first. -/
def distinct (values : List ScalarValue) : List ScalarValue :=
  values.foldl
    (fun kept value => if kept.any (·.sameValue value) then kept else kept ++ [value]) []

/-- The key and the value of an entry `key:value`; the key ends at the first colon. -/
def splitEntry (token : String) : Decoded (String × Json) :=
  let key := token.toList.takeWhile (· ≠ ':')
  match token.toList.dropWhile (· ≠ ':') with
  | [] => .error (.unseparated token)
  | _ :: value => .ok (String.ofList key, .string (String.ofList value))

/-- The keys and values of a map. -/
def members : Json → Decoded (List (String × Json))
  | .object members => .ok members
  | .string s =>
    match Json.ofText? (Text.trim s) with
    | some (.object members) => .ok members
    | _ => (commaTokens s).mapM splitEntry
  | value => .error (.expected .map value)

/-- Entries with the value of a key set: in its place if the key is there, otherwise last. -/
def setEntry (key : String) (value : ScalarValue) :
    List (String × ScalarValue) → List (String × ScalarValue)
  | [] => [(key, value)]
  | (k, v) :: rest => if k = key then (k, value) :: rest else (k, v) :: setEntry key value rest

/-- Decodes entries into those that are there already. -/
def decodeEntries (element : Scalar) (entries : List (String × ScalarValue)) :
    List (String × Json) → Decoded (List (String × ScalarValue))
  | [] => .ok entries
  | (key, item) :: rest =>
    match decodeScalar element item with
    | .error e => .error (.entry key e)
    | .ok value => decodeEntries element (setEntry key value entries) rest

def decodeMap (element : Scalar) (value : Json) : Decoded (List (String × ScalarValue)) := do
  decodeEntries element [] (← members value)

def decode : DataType → Json → Decoded Literal
  | .scalar s, value => (decodeScalar s value).map .scalar
  | .composite .array e, value => (decodeArray e value).map .sequence
  | .composite .set e, value => (decodeArray e value).map fun values => .sequence (distinct values)
  | .composite .map e, value => (decodeMap e value).map .entries

end Literal

end StructuredCall
