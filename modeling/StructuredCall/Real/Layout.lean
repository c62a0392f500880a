import StructuredCall.Real.Shortest

/-!
# Writing reals

Texts of floating-point numbers. The plain text never has an exponent, and a whole number has
no point. In JSON a number has a point or an exponent, and an exponent only outside a range.
-/

namespace StructuredCall

namespace Digits

/-- The digits without an exponent; a whole number ends at its last digit before the point. -/
def plain (d : Digits) : List Char :=
  if d.point ≤ 0 then '0' :: '.' :: (List.replicate (-d.point).toNat '0' ++ d.digits)
  else if d.digits.length ≤ d.point then
    d.digits ++ List.replicate (d.point.toNat - d.digits.length) '0'
  else d.digits.take d.point.toNat ++ '.' :: d.digits.drop d.point.toNat

/-- The digits with a point behind the first, where more follow, and an exponent with its
sign. -/
def scientific (d : Digits) : List Char :=
  let exponent := d.point - 1
  let mantissa := match d.digits with
    | [] => []
    | [c] => [c]
    | c :: rest => c :: '.' :: rest
  let sign := if exponent < 0 then '-' else '+'
  mantissa ++ 'e' :: sign :: Text.natDigits exponent.natAbs

end Digits

namespace Binary64

/-- Digits after a minus sign. -/
def signed (negative : Bool) (digits : List Char) : List Char :=
  if negative then '-' :: digits else digits

/-- Digits with a fraction part of zero if they have no point. -/
def withFraction (digits : List Char) : List Char :=
  if digits.contains '.' then digits else digits ++ ['.', '0']

/-- The plain text without the fraction part of a whole number. -/
def plainChars : Binary64 → List Char
  | finite negative significand exponent =>
    signed negative
      (if significand = 0 then ['0'] else (Shortest.digits .up significand exponent).plain)
  | infinite negative => signed negative ['i', 'n', 'f']
  | nan => ['N', 'a', 'N']

def plainText (x : Binary64) : String :=
  String.ofList x.plainChars

/-- The text of a number in source code: always with a point, so that it reads as a real. -/
def literalText (x : Binary64) : String :=
  String.ofList (if x.isFinite then withFraction x.plainChars else x.plainChars)

/-- Whether JSON writes a decimal without an exponent: its first digit stands from the fifth
place behind the point to the sixteenth before it. -/
def isPositional (d : Digits) : Bool :=
  -5 ≤ d.point - 1 && d.point - 1 ≤ 15

/-- The text of a number in JSON. -/
def jsonText : Binary64 → String
  | finite negative significand exponent =>
    String.ofList <| signed negative <|
      if significand = 0 then ['0', '.', '0']
      else
        let d := Shortest.digits .even significand exponent
        if isPositional d then withFraction d.plain else d.scientific
  | infinite _ | nan => "null"

end Binary64

end StructuredCall
