import StructuredCall.Json.Basic
import StructuredCall.Real.Decimal

/-!
# JSON tokens

A JSON text is cut into tokens between blanks, tabs, line feeds and carriage returns. A number
or a string may be well written and still denote no value: a number that is too large, and a
string with half of a surrogate pair. Such a token is kept, since it is an error only where its
value matters.
-/

namespace StructuredCall.Json

/-- Tokens of a JSON text. -/
inductive Token
  | openArray
  | closeArray
  | openObject
  | closeObject
  | comma
  | colon
  | string (value : Option String)
  /-- A number, `true`, `false` or `null`. -/
  | atom (value : Option Json)
deriving Inhabited

/-! ## Strings -/

/-- A part of a string as written: a character or a code of four hexadecimal digits. -/
inductive Piece
  | char (c : Char)
  | code (n : Nat)
deriving Repr, DecidableEq, Inhabited

def hexValue? (c : Char) : Option Nat :=
  if '0' ≤ c ∧ c ≤ '9' then some (c.toNat - 48)
  else if 'a' ≤ c ∧ c ≤ 'f' then some (c.toNat - 87)
  else if 'A' ≤ c ∧ c ≤ 'F' then some (c.toNat - 55)
  else none

/-- The value of four hexadecimal digits. -/
def hexCode? (a b c d : Char) : Option Nat := do
  return (((← hexValue? a) * 16 + (← hexValue? b)) * 16 + (← hexValue? c)) * 16 + (← hexValue? d)

/-- The character that a one-letter escape stands for. -/
def escape? (c : Char) : Option Char :=
  if c = '"' ∨ c = '\\' ∨ c = '/' then some c
  else if c = 'b' then some '\x08'
  else if c = 'f' then some '\x0c'
  else if c = 'n' then some '\n'
  else if c = 'r' then some '\r'
  else if c = 't' then some '\t'
  else none

/-- The pieces of a string up to its closing quote, and what follows. -/
def takeString : List Char → Option (List Piece × List Char)
  | [] => none
  | '"' :: rest => some ([], rest)
  | '\\' :: 'u' :: a :: b :: c :: d :: rest => do
    let code ← hexCode? a b c d
    let (pieces, after) ← takeString rest
    return (.code code :: pieces, after)
  | '\\' :: e :: rest => do
    let c ← escape? e
    let (pieces, after) ← takeString rest
    return (.char c :: pieces, after)
  | c :: rest =>
    if c.toNat < 0x20 then none
    else do
      let (pieces, after) ← takeString rest
      return (.char c :: pieces, after)

/-- Whether a code is the first of a surrogate pair. -/
def isHighSurrogate (n : Nat) : Bool :=
  0xD800 ≤ n && n < 0xDC00

/-- Whether a code is the second of a surrogate pair. -/
def isLowSurrogate (n : Nat) : Bool :=
  0xDC00 ≤ n && n < 0xE000

/-- The characters that pieces denote; surrogates must come in pairs. -/
def pieceChars? : List Piece → Option (List Char)
  | [] => some []
  | .char c :: rest => (pieceChars? rest).map (c :: ·)
  | .code n :: rest =>
    if isHighSurrogate n then
      match rest with
      | .code m :: rest =>
        if isLowSurrogate m then
          (pieceChars? rest).map
            (Char.ofNat (0x10000 + (n - 0xD800) * 0x400 + (m - 0xDC00)) :: ·)
        else none
      | _ => none
    else if isLowSurrogate n then none
    else (pieceChars? rest).map (Char.ofNat n :: ·)

/-! ## Numbers -/

/-- A number as written. -/
structure NumberText where
  negative : Bool
  whole : List Char
  fraction : Option (List Char)
  exponent : Option Int
deriving Repr, DecidableEq, Inhabited

/-- A nonempty run of digits, and what follows. -/
def takeDigits? (cs : List Char) : Option (List Char × List Char) :=
  let digits := cs.takeWhile Text.isDigit
  if digits.isEmpty then none else some (digits, cs.dropWhile Text.isDigit)

/-- The digits before the point: zero alone, or a run that does not start with zero. -/
def takeWhole? : List Char → Option (List Char × List Char)
  | '0' :: rest => some (['0'], rest)
  | cs => takeDigits? cs

/-- The part behind the point, if there is a point. -/
def takeFraction? : List Char → Option (Option (List Char) × List Char)
  | '.' :: rest => (takeDigits? rest).map fun (digits, after) => (some digits, after)
  | cs => some (none, cs)

/-- The digits of an exponent with its sign. -/
def takeExponentDigits? (negative : Bool) (cs : List Char) :
    Option (Option Int × List Char) :=
  (takeDigits? cs).map fun (digits, after) =>
    let n : Int := Text.digitsValue 0 digits
    (some (if negative then -n else n), after)

/-- The exponent, if there is a mark for one. -/
def takeExponent? : List Char → Option (Option Int × List Char)
  | [] => some (none, [])
  | mark :: rest =>
    if mark = 'e' ∨ mark = 'E' then
      match rest with
      | '+' :: rest => takeExponentDigits? false rest
      | '-' :: rest => takeExponentDigits? true rest
      | rest => takeExponentDigits? false rest
    else some (none, mark :: rest)

/-- A number without its sign at the front, and what follows. -/
def takeUnsigned? (negative : Bool) (cs : List Char) : Option (NumberText × List Char) := do
  let (whole, afterWhole) ← takeWhole? cs
  let (fraction, afterFraction) ← takeFraction? afterWhole
  let (exponent, rest) ← takeExponent? afterFraction
  return (⟨negative, whole, fraction, exponent⟩, rest)

/-- A number at the front, and what follows. -/
def takeNumber? : List Char → Option (NumberText × List Char)
  | '-' :: rest => takeUnsigned? true rest
  | cs => takeUnsigned? false cs

/-- Digits at the end of a word of 64 bits, as long as it has room for them, and the digits that
are left. -/
def fillWord (word : Nat) : List Char → Nat × List Char
  | [] => (word, [])
  | c :: rest =>
    let next := word * 10 + Text.digitValue c
    if next < Text.word64Count then fillWord next rest else (word, c :: rest)

/-- The greatest exponent of a power of ten that is a floating-point number. -/
def maxPower : Nat :=
  308

/-- A power of ten as a floating-point number, which is a whole one. -/
def powerOfTen (exponent : Nat) : Nat :=
  Binary64.roundNat (Nat.pow 10 exponent)

/-- A word times a power of ten. The word, the power and what they give are rounded one by one, so
the number need not be the nearest one. To divide by a power that is too large takes two divisions,
and no more: by then a word has become zero. -/
def scaled (negative : Bool) (word : Nat) (exponent : Int) : Binary64 :=
  let rounded := Binary64.roundNat word
  let power := exponent.natAbs
  if word = 0 then .zero negative
  else if 0 ≤ exponent then
    if power ≤ maxPower then .ofRatio negative (rounded * powerOfTen power) 1
    else .infinite negative
  else if power ≤ maxPower then .ofRatio negative rounded (powerOfTen power)
  else if power ≤ 2 * maxPower then
    (Binary64.ofRatio negative rounded (powerOfTen maxPower)).dividedBy (powerOfTen (power - maxPower))
  else .zero negative

/-- The number as a real; a number that is too large has none. Of its digits those count that a
word of 64 bits has room for, before the point and again behind it. -/
def NumberText.real? (t : NumberText) : Option Number :=
  let fraction := t.fraction.getD []
  let (whole, dropped) := fillWord 0 t.whole
  let (word, unread) := fillWord whole fraction
  let exponent := (dropped.length : Int) - (fraction.length - unread.length : Nat)
  let x := scaled t.negative word (exponent + t.exponent.getD 0)
  if x.isFinite then some (.real x) else none

/-- The value of a number. Without point and exponent it is an integer if it fits one of 64
bits; minus zero does not. -/
def NumberText.number? (t : NumberText) : Option Number :=
  match t.fraction, t.exponent with
  | none, none =>
    let n := Text.digitsValue 0 t.whole
    if t.negative then
      if n ≠ 0 ∧ 2 * n ≤ Text.word64Count then some (.int (-n)) else t.real?
    else if n < Text.word64Count then some (.int n) else t.real?
  | _, _ => t.real?

/-! ## Cutting -/

/-- Characters between tokens. -/
def isSpace (c : Char) : Bool :=
  c = ' ' || c = '\t' || c = '\n' || c = '\r'

/-- Tokens of one character. -/
def punctuation? (c : Char) : Option Token :=
  if c = '[' then some .openArray
  else if c = ']' then some .closeArray
  else if c = '\x7b' then some .openObject
  else if c = '\x7d' then some .closeObject
  else if c = ',' then some .comma
  else if c = ':' then some .colon
  else none

/-- The token at the front of a text, and what follows. -/
def takeToken? : List Char → Option (Token × List Char)
  | 'n' :: 'u' :: 'l' :: 'l' :: rest => some (.atom (some .null), rest)
  | 't' :: 'r' :: 'u' :: 'e' :: rest => some (.atom (some (.bool true)), rest)
  | 'f' :: 'a' :: 'l' :: 's' :: 'e' :: rest => some (.atom (some (.bool false)), rest)
  | '"' :: rest => do
    let (pieces, after) ← takeString rest
    return (.string ((pieceChars? pieces).map String.ofList), after)
  | [] => none
  | c :: rest =>
    match punctuation? c with
    | some token => some (token, rest)
    | none => do
      let (t, after) ← takeNumber? (c :: rest)
      return (.atom (t.number?.map .number), after)

/-- The tokens of a text. A token takes at least one character, so `fuel` steps are enough for
a text of that length. -/
def tokensWithin? : Nat → List Char → Option (List Token)
  | _, [] => some []
  | 0, _ :: _ => none
  | fuel + 1, c :: rest =>
    if isSpace c then tokensWithin? fuel rest
    else do
      let (token, after) ← takeToken? (c :: rest)
      return token :: (← tokensWithin? fuel after)

def tokens? (cs : List Char) : Option (List Token) :=
  tokensWithin? cs.length cs

end StructuredCall.Json
