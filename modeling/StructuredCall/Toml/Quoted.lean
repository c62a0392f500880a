import StructuredCall.Toml.Basic

/-!
# TOML strings

Strings between single or double quotes, on one line or on several between three quotes. Between
double quotes a backslash starts an escape; at the end of a line it also skips the white space
up to the next text.
-/

namespace StructuredCall.Toml

/-- The value of some hexadecimal digits. -/
def hexValue? (read : Nat) : List Char → Option Nat
  | [] => some read
  | c :: rest =>
    if '0' ≤ c ∧ c ≤ '9' then hexValue? (read * 16 + (c.toNat - 48)) rest
    else if 'a' ≤ c ∧ c ≤ 'f' then hexValue? (read * 16 + (c.toNat - 87)) rest
    else if 'A' ≤ c ∧ c ≤ 'F' then hexValue? (read * 16 + (c.toNat - 55)) rest
    else none

/-- The character with a code of a given number of hexadecimal digits. -/
def readCode (size : Nat) : Reader Char := fun cs => do
  let digits := cs.take size
  if digits.length ≠ size then none
  else
    let n ← hexValue? 0 digits
    if n < 0xD800 ∨ (0xE000 ≤ n ∧ n < 0x110000) then some (Char.ofNat n, cs.drop size) else none

/-- The character of an escape, behind its backslash. -/
def readEscape : Reader Char
  | 'b' :: rest => some ('\x08', rest)
  | 't' :: rest => some ('\t', rest)
  | 'n' :: rest => some ('\n', rest)
  | 'f' :: rest => some ('\x0c', rest)
  | 'r' :: rest => some ('\r', rest)
  | '"' :: rest => some ('"', rest)
  | '\\' :: rest => some ('\\', rest)
  | 'u' :: rest => readCode 4 rest
  | 'U' :: rest => readCode 8 rest
  | _ => none

/-- The rest of a string on one line between double quotes. Every round takes a character, so
`fuel` rounds are enough for a text of that length. -/
def readBasic : Nat → Reader (List Char)
  | 0, _ => none
  | _, [] => none
  | _, '"' :: rest => some ([], rest)
  | fuel + 1, '\\' :: rest => do
    let (c, rest) ← readEscape rest
    let (cs, after) ← readBasic fuel rest
    return (c :: cs, after)
  | fuel + 1, c :: rest =>
    if isPlain c then do
      let (cs, after) ← readBasic fuel rest
      return (c :: cs, after)
    else none

/-- The rest of a string on one line between single quotes. -/
def readLiteral : Reader (List Char)
  | [] => none
  | '\'' :: rest => some ([], rest)
  | c :: rest =>
    if isPlain c then do
      let (cs, after) ← readLiteral rest
      return (c :: cs, after)
    else none

/-- Whether a character is white space or part of a line end. -/
def isSkipped (c : Char) : Bool :=
  isSpace c || c = '\n'

/-- A text without the spaces and line ends at its front; a carriage return alone is none. -/
def skipLines : List Char → List Char
  | '\r' :: '\n' :: rest => skipLines rest
  | c :: rest => if isSkipped c then skipLines rest else c :: rest
  | [] => []

/-- The text after a backslash that ends its line. -/
def afterLineEscape? (cs : List Char) : Option (List Char) :=
  (afterNewline? (skipSpaces cs)).map skipLines

/-- The quotes that end a string on several lines: three close it, and up to two before them
belong to it. The answer counts these two. -/
def readClosing (quote : Char) (cs : List Char) : Option (Nat × List Char) :=
  let run := (cs.takeWhile (· = quote)).length
  if run < 3 then none else some (min (run - 3) 2, cs.drop (min run 5))

/-- The rest of a string on several lines; between double quotes it has escapes. -/
def readLong (quote : Char) : Nat → Reader (List Char)
  | 0, _ => none
  | _, [] => none
  | fuel + 1, c :: rest =>
    if c = quote then
      match readClosing quote (c :: rest) with
      | some (kept, after) => some (List.replicate kept quote, after)
      | none => do
        let (cs, after) ← readLong quote fuel rest
        return (c :: cs, after)
    else if c = '\\' ∧ quote = '"' then
      match afterLineEscape? rest with
      | some rest => readLong quote fuel rest
      | none => do
        let (e, rest) ← readEscape rest
        let (cs, after) ← readLong quote fuel rest
        return (e :: cs, after)
    else
      match afterNewline? (c :: rest) with
      | some rest => do
        let (cs, after) ← readLong quote fuel rest
        return ('\n' :: cs, after)
      | none =>
        if isPlain c then do
          let (cs, after) ← readLong quote fuel rest
          return (c :: cs, after)
        else none

/-- A text without a line end at its front. -/
def dropNewline (cs : List Char) : List Char :=
  (afterNewline? cs).getD cs

/-- The characters of a string on one line. -/
def readShortChars : Reader (List Char)
  | '"' :: rest => readBasic (rest.length + 1) rest
  | '\'' :: rest => readLiteral rest
  | _ => none

/-- The characters of a string. A line end directly behind three opening quotes does not belong
to it. -/
def readChars : Reader (List Char)
  | '"' :: '"' :: '"' :: rest => readLong '"' (rest.length + 1) (dropNewline rest)
  | '\'' :: '\'' :: '\'' :: rest => readLong '\'' (rest.length + 1) (dropNewline rest)
  | cs => readShortChars cs

def readShortString : Reader String := fun cs => do
  let (read, rest) ← readShortChars cs
  return (String.ofList read, rest)

def readString : Reader String := fun cs => do
  let (read, rest) ← readChars cs
  return (String.ofList read, rest)

end StructuredCall.Toml
