import Mathlib.Algebra.Group.Nat.Defs
import StructuredCall.Json.Token
import StructuredCall.Proofs.Literal.Number
import StructuredCall.Real.Decimal

/-!
# Numbers of JSON as reals

A number of JSON is read by rounding its digits and its power of ten one by one, so it need not
denote the nearest real. **It does** where both are exact (`NumberText.real?_eq_toBinary64`): then
it denotes what it denotes in a string.
-/

namespace StructuredCall

/-! ## Rounding -/

theorem Binary64.log2_lt_of_lt_pow {n k : Nat} (hk : 0 < k) (h : n < 2 ^ k) : n.log2 < k := by
  rcases Nat.eq_zero_or_pos n with rfl | hpos
  · exact hk
  · exact (Nat.log2_lt (Nat.ne_of_gt hpos)).2 h

theorem Binary64.roundNat_of_lt {n : Nat} (h : n < 2 * leastNormal) : roundNat n = n := by
  have hlog : n.log2 < 53 := log2_lt_of_lt_pow (by decide) h
  have hone : Nat.log2 1 = 0 := rfl
  have hexponent : (exponentOf n 1).toNat = 0 := by
    simp only [exponentOf, hone]
    split <;> omega
  simp [roundNat, hexponent, divideEven, Nat.mod_one]

theorem Binary64.exponentOf_lt {num : Nat} (den : Nat) (h : num < 2 ^ 128) :
    exponentOf num den < 128 := by
  have hlog : num.log2 < 128 := log2_lt_of_lt_pow (by decide) h
  simp only [exponentOf]
  split <;> omega

theorem Binary64.isFinite_ofRatio (negative : Bool) {num : Nat} (den : Nat) (h : num < 2 ^ 128) :
    (ofRatio negative num den).isFinite = true := by
  have hbound := exponentOf_lt den h
  have hfits : ∀ exponent : Int, exponent ≤ 128 → ¬ maxExponent < exponent := by
    simp only [maxExponent]
    omega
  unfold ofRatio
  split
  · rfl
  extract_lets exponent
  have hexponent : exponent < 128 := by
    simp only [exponent, minExponent]
    omega
  -- nothing but the exponent matters, so what it shifts is left open
  generalize shifted exponent num den = ratio
  obtain ⟨num, den⟩ := ratio
  generalize hround : divideEven num den = significand
  by_cases hcarry : significand = 2 * leastNormal
  · simp only [hround, if_pos hcarry, if_neg (hfits _ (by omega : exponent + 1 ≤ 128))]
    rfl
  · simp only [hround, if_neg hcarry, if_neg (hfits _ (by omega : exponent ≤ 128))]
    rfl

namespace Text

theorem length_natDigits_le {n k : Nat} (hk : 0 < k) (h : n < 10 ^ k) :
    (natDigits n).length ≤ k := by
  induction k generalizing n with
  | zero => cases hk
  | succ k ih =>
    rw [natDigits]
    split
    · simp
    · next hlarge =>
      have hpos : 0 < k := by
        rcases Nat.eq_zero_or_pos k with rfl | hpos
        · exact absurd h hlarge
        · exact hpos
      have hlt : n / 10 < 10 ^ k := Nat.div_lt_of_lt_mul (by rwa [Nat.pow_succ, Nat.mul_comm] at h)
      simpa using ih hpos hlt

theorem le_digitsValue (read : Nat) (cs : List Char) : read ≤ digitsValue read cs := by
  induction cs generalizing read with
  | nil => exact Nat.le_refl _
  | cons c rest ih => exact Nat.le_trans (by omega) (ih (read * 10 + digitValue c))

end Text

namespace Decimal

variable {d : Decimal}

/-- Digits that fit the significand and a power of ten that is exact are no matter of size. -/
theorem toBinary64_eq_ofRatio (hdigits : d.digits < 2 * Binary64.leastNormal)
    (hexponent : d.exponent.natAbs ≤ 22) : d.toBinary64 = if d.digits = 0 then .zero d.negative else
      .ofRatio d.negative (d.digits * 10 ^ d.exponent.toNat) (10 ^ (-d.exponent).toNat) := by
  have hlength := Text.length_natDigits_le (k := 16) (by decide)
    (Nat.lt_of_lt_of_le hdigits (by decide : 2 * Binary64.leastNormal ≤ 10 ^ 16))
  unfold toBinary64
  dsimp only
  rw [if_neg (by omega : ¬ ((Text.natDigits d.digits).length : Int) + d.exponent < -400),
    if_neg (by omega : ¬ 400 < ((Text.natDigits d.digits).length : Int) + d.exponent)]
  rfl

theorem isFinite_toBinary64 (hdigits : d.digits < 2 * Binary64.leastNormal)
    (hexponent : d.exponent.natAbs ≤ 22) : d.toBinary64.isFinite = true := by
  have hpower : 10 ^ d.exponent.toNat ≤ 10 ^ 22 := Nat.pow_le_pow_right (by decide) (by omega)
  have hnum : d.digits * 10 ^ d.exponent.toNat < 2 ^ 128 :=
    Nat.lt_of_le_of_lt (Nat.mul_le_mul (Nat.le_of_lt hdigits) hpower) (by decide +kernel)
  rw [toBinary64_eq_ofRatio hdigits hexponent]
  split
  · rfl
  · exact Binary64.isFinite_ofRatio _ _ hnum

end Decimal

/-! ## Numbers -/

namespace Json

theorem fillWord_eq {word : Nat} {cs : List Char}
    (h : Text.digitsValue word cs < Text.word64Count) :
    fillWord word cs = (Text.digitsValue word cs, []) := by
  induction cs generalizing word with
  | nil => rfl
  | cons c rest ih =>
    have hnext : word * 10 + Text.digitValue c < Text.word64Count :=
      Nat.lt_of_le_of_lt (Text.le_digitsValue _ rest) h
    simp only [fillWord]
    rw [if_pos hnext]
    exact ih h

theorem powerOfTen_of_le : ∀ k ≤ 22, powerOfTen k = 10 ^ k := by
  decide +kernel

/-- Word and power are what they are rounded to, so only what they give is rounded. -/
theorem scaled_eq_toBinary64 (negative : Bool) {word : Nat} {exponent : Int}
    (hword : word < 2 * Binary64.leastNormal) (hexponent : exponent.natAbs ≤ 22) :
    scaled negative word exponent = (Decimal.mk negative word exponent).toBinary64 := by
  have hpower := powerOfTen_of_le _ hexponent
  have hbound : exponent.natAbs ≤ maxPower := Nat.le_trans hexponent (by decide)
  rw [Decimal.toBinary64_eq_ofRatio hword hexponent]
  simp only [scaled, Binary64.roundNat_of_lt hword, hpower, hbound, if_true]
  congr 1
  split
  · have habs : exponent.natAbs = exponent.toNat := by omega
    have hnone : (-exponent).toNat = 0 := by omega
    rw [habs, hnone, Nat.pow_zero]
  · have habs : exponent.natAbs = (-exponent).toNat := by omega
    have hnone : exponent.toNat = 0 := by omega
    rw [habs, hnone, Nat.pow_zero, Nat.mul_one]

/-- **A number is read as the nearest real** if its digits fit the significand and its power of ten
is exact. -/
theorem NumberText.real?_eq_toBinary64 (t : NumberText) :
    let d := Decimal.ofParts t.negative t.whole (t.fraction.getD []) (t.exponent.getD 0)
    d.digits < 2 * Binary64.leastNormal → d.exponent.natAbs ≤ 22 →
      t.real? = some (.real d.toBinary64) := by
  intro d hdigits hexponent
  have hword : d.digits =
      Text.digitsValue (Text.digitsValue 0 t.whole) (t.fraction.getD []) := List.foldl_append
  -- all digits have room in the word, so none is dropped and none is left
  have hfits : d.digits < Text.word64Count := Nat.lt_trans hdigits (by decide)
  have hwhole := fillWord_eq (Nat.lt_of_le_of_lt (Text.le_digitsValue _ _) (hword ▸ hfits))
  have hfraction := fillWord_eq (hword ▸ hfits)
  have hplaces : ((0 : Nat) : Int) - ((t.fraction.getD []).length - 0 : Nat) + t.exponent.getD 0 =
      d.exponent := by
    show _ = t.exponent.getD 0 - ((t.fraction.getD []).length : Int)
    omega
  simp only [NumberText.real?, hwhole, hfraction, ← hword, List.length_nil, hplaces]
  rw [scaled_eq_toBinary64 t.negative hdigits hexponent]
  exact if_pos (Decimal.isFinite_toBinary64 hdigits hexponent)

end Json

end StructuredCall
