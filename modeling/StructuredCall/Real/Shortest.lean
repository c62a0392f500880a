import StructuredCall.Real.Binary64
import StructuredCall.Text.Blank
import StructuredCall.Text.Numeral

/-!
# Shortest decimals

The decimal with the fewest digits among those that read back as a given floating-point number,
and of these the nearest one. The reals that round to a number form an interval, which includes
its ends when the significand is even. On the grid of decimals with a given number of digits
only the two neighbours of the number have to be tried.
-/

namespace StructuredCall

/-- Which of two equally near decimals is taken. -/
inductive Tie
  | up
  | even
deriving Repr, DecidableEq, Inhabited

/-- A positive decimal `0.d₁d₂… * 10 ^ point` whose last digit is not zero. -/
structure Digits where
  digits : List Char
  point : Int
deriving Repr, DecidableEq, Inhabited

namespace Shortest

/-- A value and the ends of its interval, as multiples of the same positive number. -/
structure Interval where
  low : Nat
  value : Nat
  high : Nat
  /-- The divisor of all three. -/
  den : Nat
  closed : Bool
deriving Repr, DecidableEq, Inhabited

/-- The interval of the reals that round to `significand * 2 ^ exponent`. Below a power of two
the numbers lie half as far apart. -/
def interval (significand : Nat) (exponent : Int) : Interval :=
  let lower := if significand = Binary64.leastNormal ∧ Binary64.minExponent < exponent then 1 else 2
  let scale := Nat.pow 2 (exponent - 2).toNat
  { low := (4 * significand - lower) * scale
    value := 4 * significand * scale
    high := (4 * significand + 2) * scale
    den := Nat.pow 2 (2 - exponent).toNat
    closed := significand % 2 = 0 }

namespace Interval

/-- The interval in multiples of `10 ^ k`. -/
def scaled (i : Interval) (k : Int) : Interval :=
  let up := Nat.pow 10 (-k).toNat
  { i with low := i.low * up, value := i.value * up, high := i.high * up,
           den := i.den * Nat.pow 10 k.toNat }

def wholePart (i : Interval) : Nat :=
  i.value / i.den

def contains (i : Interval) (n : Nat) : Bool :=
  if i.closed then i.low ≤ n * i.den && n * i.den ≤ i.high
  else i.low < n * i.den && n * i.den < i.high

/-- The whole number inside that is nearest to the value, if one is inside. -/
def nearest? (i : Interval) (tie : Tie) : Option Nat :=
  let below := i.wholePart
  let doubled := 2 * (i.value % i.den)
  match i.contains below, i.contains (below + 1) with
  | false, false => none
  | true, false => some below
  | false, true => some (below + 1)
  | true, true =>
    if doubled < i.den then some below
    else if i.den < doubled then some (below + 1)
    else match tie with
      | .up => some (below + 1)
      | .even => some (below + below % 2)

/-- The exponent of the first digit of the value. Every number is above `10 ^ (-330)`. -/
def leading (i : Interval) : Int :=
  ((Text.natDigits (i.scaled (-330)).wholePart).length : Int) - 331

end Interval

/-- The shortest decimal of `significand * 2 ^ exponent`; 17 digits are always enough. -/
def digits (tie : Tie) (significand : Nat) (exponent : Int) : Digits :=
  let i := interval significand exponent
  let leading := i.leading
  let hit := (List.range 17).findSome? fun (n : Nat) =>
    let k := leading - (n : Int)
    ((i.scaled k).nearest? tie).map (·, k)
  match hit with
  | none => ⟨['0'], 0⟩
  | some (n, k) =>
    let written := Text.natDigits n
    ⟨Text.dropEndWhile (· = '0') written, written.length + k⟩

end Shortest

end StructuredCall
