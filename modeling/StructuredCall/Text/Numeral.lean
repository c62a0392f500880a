/-!
# Numerals

Reading and writing whole numbers in decimal. A numeral is a nonempty run of the digits 0 to 9,
with at most one sign in front where signs are allowed; nothing else, blanks included, is read.
-/

namespace StructuredCall.Text

/-- The digit with a given value below ten. -/
def digitChar (n : Nat) : Char :=
  Char.ofNat (48 + n % 10)

def digitValue (c : Char) : Nat :=
  c.toNat - 48

def isDigit (c : Char) : Bool :=
  48 ≤ c.toNat && c.toNat ≤ 57

/-- The number a run of digits denotes, with the digits read so far in front. -/
def digitsValue (read : Nat) (cs : List Char) : Nat :=
  cs.foldl (fun read c => read * 10 + digitValue c) read

/-- The number written as a nonempty run of digits. -/
def natOfDigits? (cs : List Char) : Option Nat :=
  if cs ≠ [] ∧ cs.all isDigit then some (digitsValue 0 cs) else none

/-- The number of words of 64 bits, `2 ^ 64`. -/
def word64Count : Nat :=
  18446744073709551616

/-- A number that needs at most 64 bits, with an optional plus sign. -/
def word64? (cs : List Char) : Option Nat :=
  let digits := match cs with
    | '+' :: rest => rest
    | _ => cs
  (natOfDigits? digits).filter (· < word64Count)

/-- Whether a number fits a signed word of `bits` bits. -/
def fitsSigned (bits : Nat) (n : Int) : Bool :=
  let limit := Int.ofNat (Nat.pow 2 (bits - 1))
  (-limit ≤ n) && (n < limit)

/-- A number that fits a signed 64-bit word, with at most one sign. -/
def int64? (cs : List Char) : Option Int :=
  let read := match cs with
    | '+' :: rest => (natOfDigits? rest).map Int.ofNat
    | '-' :: rest => (natOfDigits? rest).map fun n => -Int.ofNat n
    | _ => (natOfDigits? cs).map Int.ofNat
  read.filter (fitsSigned 64)

/-- The digits of a number, most significant first. -/
def natDigits (n : Nat) : List Char :=
  if _small : n < 10 then [digitChar n]
  else natDigits (n / 10) ++ [digitChar n]
termination_by n

def natText (n : Nat) : String :=
  String.ofList (natDigits n)

/-- The digits of an integer, after a minus sign if it is negative. -/
def intDigits (n : Int) : List Char :=
  if n < 0 then '-' :: natDigits n.natAbs else natDigits n.natAbs

def intText (n : Int) : String :=
  String.ofList (intDigits n)

end StructuredCall.Text
