import StructuredCall.Real.Binary64
import StructuredCall.Text.Numeral

/-!
# Reading reals

A real in a text is a run of digits with at most one point among or beside them, an optional
exponent and an optional sign; the names of infinity and NaN are read too. The value is the
floating-point number nearest to the decimal.
-/

namespace StructuredCall

/-- A decimal: `digits * 10 ^ exponent` with a sign. -/
structure Decimal where
  negative : Bool
  digits : Nat
  exponent : Int
deriving Repr, DecidableEq, Inhabited

namespace Decimal

/-- The nearest floating-point number. A decimal of a size far outside the range is not
expanded. -/
def toBinary64 (d : Decimal) : Binary64 :=
  if d.digits = 0 then .zero d.negative
  else
    let size : Int := (Text.natDigits d.digits).length + d.exponent
    if size < -400 then .zero d.negative
    else if 400 < size then .infinite d.negative
    else .ofRatio d.negative (d.digits * Nat.pow 10 d.exponent.toNat)
      (Nat.pow 10 (-d.exponent).toNat)

/-- The decimal with some digits before the point, some behind it, and an exponent. -/
def ofParts (negative : Bool) (whole fraction : List Char) (exponent : Int) : Decimal :=
  ⟨negative, Text.digitsValue 0 (whole ++ fraction), exponent - fraction.length⟩

/-- The exponent in the text after the mark: digits with at most one sign. -/
def exponent? : List Char → Option Int
  | '+' :: rest => (Text.natOfDigits? rest).map Int.ofNat
  | '-' :: rest => (Text.natOfDigits? rest).map fun n => -Int.ofNat n
  | cs => (Text.natOfDigits? cs).map Int.ofNat

/-- The decimal in a text without a sign. -/
def unsigned? (negative : Bool) (cs : List Char) : Option Decimal := do
  let whole := cs.takeWhile Text.isDigit
  let afterWhole := cs.dropWhile Text.isDigit
  let (fraction, afterFraction) := match afterWhole with
    | '.' :: rest => (rest.takeWhile Text.isDigit, rest.dropWhile Text.isDigit)
    | _ => ([], afterWhole)
  if whole.isEmpty && fraction.isEmpty then none
  else
    match afterFraction with
    | [] => some (ofParts negative whole fraction 0)
    | mark :: rest =>
      if mark = 'e' || mark = 'E' then
        (exponent? rest).map (ofParts negative whole fraction)
      else none

end Decimal

namespace Binary64

/-- The number that a text without a sign denotes. Names are read in any case. -/
def unsigned? (negative : Bool) (cs : List Char) : Option Binary64 :=
  let folded := String.ofList (cs.map Char.toLower)
  if folded = "inf" || folded = "infinity" then some (infinite negative)
  else if folded = "nan" then some nan
  else (Decimal.unsigned? negative cs).map Decimal.toBinary64

/-- The number that a text denotes. -/
def ofChars? : List Char → Option Binary64
  | '-' :: rest => unsigned? true rest
  | '+' :: rest => unsigned? false rest
  | cs => unsigned? false cs

end Binary64

end StructuredCall
