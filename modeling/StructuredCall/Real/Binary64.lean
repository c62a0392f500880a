/-!
# Binary floating point

Floating-point numbers of 64 bits: a sign, a significand below `2 ^ 53` and an exponent from
`-1074` to `971`. A ratio of natural numbers is rounded to the nearest of them, ties to the even
significand.
-/

namespace StructuredCall

/-- A floating-point number. The finite ones are `significand * 2 ^ exponent` with a sign; their
significand is at least `2 ^ 52` unless the exponent is the least one. -/
inductive Binary64
  | finite (negative : Bool) (significand : Nat) (exponent : Int)
  | infinite (negative : Bool)
  | nan
deriving Repr, DecidableEq, Inhabited

namespace Binary64

def minExponent : Int :=
  -1074

def maxExponent : Int :=
  971

/-- The least significand of a number that is not near the least exponent, `2 ^ 52`. -/
def leastNormal : Nat :=
  4503599627370496

def zero (negative : Bool) : Binary64 :=
  finite negative 0 minExponent

def isFinite : Binary64 → Bool
  | finite _ _ _ => true
  | infinite _ | nan => false

/-- Equality of values: the two zeros are equal, and NaN equals nothing. -/
def sameValue : Binary64 → Binary64 → Bool
  | finite n₁ m₁ e₁, finite n₂ m₂ e₂ => (m₁ == 0 && m₂ == 0) || (n₁ == n₂ && m₁ == m₂ && e₁ == e₂)
  | infinite n₁, infinite n₂ => n₁ == n₂
  | _, _ => false

/-- The quotient rounded to the nearest natural number, ties to the even one. -/
def divideEven (num den : Nat) : Nat :=
  let quotient := num / den
  let doubled := 2 * (num % den)
  if doubled < den then quotient
  else if den < doubled then quotient + 1
  else quotient + quotient % 2

/-- A ratio divided by a power of two, as a ratio. -/
def shifted (exponent : Int) (num den : Nat) : Nat × Nat :=
  (num * Nat.pow 2 (-exponent).toNat, den * Nat.pow 2 exponent.toNat)

/-- The exponent at which a positive ratio has a significand of 53 bits. -/
def exponentOf (num den : Nat) : Int :=
  let estimate : Int := (num.log2 : Int) - (den.log2 : Int) - 53
  let (num, den) := shifted estimate num den
  if den * (2 * leastNormal) ≤ num then estimate + 1 else estimate

/-- The number nearest to a ratio. -/
def ofRatio (negative : Bool) (num den : Nat) : Binary64 :=
  if num = 0 then zero negative
  else
    let exponent := max minExponent (exponentOf num den)
    let (num, den) := shifted exponent num den
    let significand := divideEven num den
    let (significand, exponent) :=
      if significand = 2 * leastNormal then (leastNormal, exponent + 1)
      else (significand, exponent)
    if maxExponent < exponent then infinite negative else finite negative significand exponent

/-- A natural number with at most 53 binary digits that count, nearest to another. -/
def roundNat (n : Nat) : Nat :=
  let exponent := (exponentOf n 1).toNat
  divideEven n (Nat.pow 2 exponent) * Nat.pow 2 exponent

/-- A number divided by a positive one. -/
def dividedBy (x : Binary64) (divisor : Nat) : Binary64 :=
  match x with
  | finite negative significand exponent =>
    let (num, den) := shifted (-exponent) significand 1
    ofRatio negative num (den * divisor)
  | infinite _ | nan => x

/-- The number nearest to an integer. -/
def ofInt (n : Int) : Binary64 :=
  ofRatio (n < 0) n.natAbs 1

end Binary64

end StructuredCall
