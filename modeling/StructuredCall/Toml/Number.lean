import StructuredCall.Real.Decimal
import StructuredCall.Toml.Basic

/-!
# TOML numbers and dates

Integers in four bases, floats, and dates and times. Underscores may stand between digits.
Integers must fit a signed word of 64 bits, and dates must exist.
-/

namespace StructuredCall.Toml

/-! ## Digits -/

/-- A nonempty run of digits of some class with single underscores between them; the
underscores are left out of the answer. -/
def readRun (isDigit : Char → Bool) : Reader (List Char)
  | [] => none
  | c :: rest =>
    if !isDigit c then none
    else
      match rest with
      | '_' :: after => do
        let (digits, after) ← readRun isDigit after
        return (c :: digits, after)
      | d :: after =>
        if isDigit d then do
          let (digits, after) ← readRun isDigit (d :: after)
          return (c :: digits, after)
        else some ([c], d :: after)
      | [] => some ([c], [])

/-- Decimal digits without a zero in front. -/
def readWhole : Reader (List Char)
  | '0' :: rest => some (['0'], rest)
  | cs => readRun Text.isDigit cs

/-- Whether there is a minus sign at the front, and what follows the sign. -/
def readSign : List Char → Bool × List Char
  | '+' :: rest => (false, rest)
  | '-' :: rest => (true, rest)
  | cs => (false, cs)

/-! ## Integers -/

/-- Digits below a base of at most 16. -/
def isDigitBelow (base : Nat) (c : Char) : Bool :=
  if Text.isDigit c then c.toNat - 48 < base
  else base = 16 && (('a' ≤ c && c ≤ 'f') || ('A' ≤ c && c ≤ 'F'))

/-- The value of a digit of a base of at most 16. -/
def baseDigitValue (c : Char) : Nat :=
  if Text.isDigit c then c.toNat - 48
  else if 'a' ≤ c then c.toNat - 87
  else c.toNat - 55

/-- An integer, if it fits. -/
def fitting (n : Int) (rest : List Char) : Option (Value × List Char) :=
  if Text.fitsSigned 64 n then some (.integer n, rest) else none

/-- The digits of an integer in a base. -/
def readBased (base : Nat) : Reader Value := fun cs => do
  let (digits, rest) ← readRun (isDigitBelow base) cs
  fitting (Int.ofNat (digits.foldl (fun n c => n * base + baseDigitValue c) 0)) rest

def readInteger : Reader Value
  | '0' :: 'x' :: rest => readBased 16 rest
  | '0' :: 'o' :: rest => readBased 8 rest
  | '0' :: 'b' :: rest => readBased 2 rest
  | cs => do
    let (negative, cs) := readSign cs
    let (digits, rest) ← readWhole cs
    let n : Int := Text.digitsValue 0 digits
    fitting (if negative then -n else n) rest

/-! ## Floats -/

/-- The fraction and the exponent of a float; at least one of them is there. -/
def readFractionExponent : Reader (List Char × Option Int) := fun cs => do
  let (fraction, afterFraction) ← match cs with
    | '.' :: rest => readRun Text.isDigit rest
    | _ => some ([], cs)
  match afterFraction with
  | [] => if fraction.isEmpty then none else some ((fraction, none), [])
  | mark :: rest =>
    if mark = 'e' ∨ mark = 'E' then do
      let (negative, rest) := readSign rest
      let (digits, rest) ← readRun Text.isDigit rest
      let n : Int := Text.digitsValue 0 digits
      return ((fraction, some (if negative then -n else n)), rest)
    else if fraction.isEmpty then none
    else some ((fraction, none), mark :: rest)

/-- A float. One that is too large above zero is none. -/
def readFloat : Reader Value := fun cs => do
  let (negative, cs) := readSign cs
  match cs with
  | 'i' :: 'n' :: 'f' :: rest => some (.float, rest)
  | 'n' :: 'a' :: 'n' :: rest => some (.float, rest)
  | _ =>
    let (whole, afterWhole) ← readWhole cs
    let ((fraction, exponent), rest) ← readFractionExponent afterWhole
    let x := (Decimal.ofParts negative whole fraction (exponent.getD 0)).toBinary64
    if x = .infinite false then none else some (.float, rest)

/-! ## Dates and times -/

/-- The number made of exactly `size` digits, if it lies in a range. -/
def readFixed (size low high : Nat) : Reader Nat := fun cs =>
  let digits := cs.take size
  if digits.length = size ∧ digits.all Text.isDigit then
    let n := Text.digitsValue 0 digits
    if low ≤ n ∧ n ≤ high then some (n, cs.drop size) else none
  else none

def expectChar (c : Char) : List Char → Option (List Char)
  | d :: rest => if d = c then some rest else none
  | [] => none

def daysOfMonth (year month : Nat) : Nat :=
  if month = 2 then
    if year % 4 = 0 ∧ (year % 100 ≠ 0 ∨ year % 400 = 0) then 29 else 28
  else if month = 4 ∨ month = 6 ∨ month = 9 ∨ month = 11 then 30
  else 31

/-- What follows a date. -/
def afterDate? (cs : List Char) : Option (List Char) := do
  let (year, cs) ← readFixed 4 0 9999 cs
  let (month, cs) ← readFixed 2 1 12 (← expectChar '-' cs)
  let (_, cs) ← readFixed 2 1 (daysOfMonth year month) (← expectChar '-' cs)
  return cs

/-- What follows a time of day. -/
def afterTime? (cs : List Char) : Option (List Char) := do
  let (_, cs) ← readFixed 2 0 23 cs
  let (_, cs) ← readFixed 2 0 59 (← expectChar ':' cs)
  let (_, cs) ← readFixed 2 0 60 (← expectChar ':' cs)
  match cs with
  | '.' :: d :: rest => if Text.isDigit d then return rest.dropWhile Text.isDigit else return cs
  | _ => return cs

/-- What follows an offset from universal time, if there is one. -/
def afterOffset? : List Char → Option (List Char)
  | 'Z' :: rest => some rest
  | 'z' :: rest => some rest
  | sign :: rest =>
    if sign = '+' ∨ sign = '-' then do
      let (_, cs) ← readFixed 2 0 23 rest
      let (_, cs) ← readFixed 2 0 59 (← expectChar ':' cs)
      return cs
    else some (sign :: rest)
  | [] => some []

/-- Whether a time of day starts: two digits for the hour, and a colon. -/
def startsTime (cs : List Char) : Bool :=
  match readFixed 2 0 23 cs with
  | some (_, ':' :: _) => true
  | _ => false

/-- Whether a date starts: four digits and a dash. -/
def startsDate (cs : List Char) : Bool :=
  match readFixed 4 0 9999 cs with
  | some (_, '-' :: _) => true
  | _ => false

/-- A date, with a time of day behind it if one starts there. -/
def readDate : Reader Value := fun cs => do
  let afterDate ← afterDate? cs
  match afterDate with
  | mark :: rest =>
    if (mark = 'T' ∨ mark = 't' ∨ mark = ' ') ∧ startsTime rest then
      return (.dateTime, ← afterOffset? (← afterTime? rest))
    else return (.dateTime, afterDate)
  | [] => return (.dateTime, [])

def readTime : Reader Value := fun cs => do
  return (.dateTime, ← afterTime? cs)

/-- A number, a date or a time. -/
def readNumber : Reader Value := fun cs =>
  if startsDate cs then readDate cs
  else if startsTime cs then readTime cs
  else (readFloat cs).orElse fun _ => readInteger cs

end StructuredCall.Toml
