import StructuredCall.Real.Layout

/-!
# Numbers in literals

A whole number is written as a run of digits, which a minus sign may precede; so it is read off a
text as long as no digit follows (`Text.read_intDigits`). A finite real is written with digits,
a point and a minus sign only (`Binary64.numeric_of_mem_literalText`).
-/

namespace StructuredCall

namespace Text

/-! ## Digits -/

theorem toNat_digitChar (n : Nat) : (digitChar n).toNat = 48 + n % 10 := by
  have hall : ∀ d < 10, (Char.ofNat (48 + d)).toNat = 48 + d := by decide
  exact hall _ (Nat.mod_lt _ (by decide))

theorem isDigit_digitChar (n : Nat) : isDigit (digitChar n) = true := by
  simp only [isDigit, toNat_digitChar, Bool.and_eq_true, decide_eq_true_eq]
  omega

theorem digitValue_digitChar (n : Nat) : digitValue (digitChar n) = n % 10 := by
  simp [digitValue, toNat_digitChar]

theorem isDigit_of_mem_natDigits {n : Nat} {c : Char} (h : c ∈ natDigits n) :
    isDigit c = true := by
  induction n using natDigits.induct with
  | case1 n small =>
    rw [natDigits, dif_pos small, List.mem_singleton] at h
    exact h ▸ isDigit_digitChar n
  | case2 n large ih =>
    rw [natDigits, dif_neg large, List.mem_append, List.mem_singleton] at h
    rcases h with h | rfl
    · exact ih h
    · exact isDigit_digitChar n

theorem natDigits_ne_nil (n : Nat) : natDigits n ≠ [] := by
  rw [natDigits]
  split <;> simp

theorem digitsValue_natDigits (n : Nat) : digitsValue 0 (natDigits n) = n := by
  induction n using natDigits.induct with
  | case1 n small =>
    rw [natDigits, dif_pos small]
    simp only [digitsValue, List.foldl_cons, List.foldl_nil, digitValue_digitChar]
    omega
  | case2 n large ih =>
    rw [natDigits, dif_neg large]
    simp only [digitsValue] at ih
    simp only [digitsValue, List.foldl_append, List.foldl_cons, List.foldl_nil, ih,
      digitValue_digitChar]
    omega

/-! ## Reading -/

/-- What follows does not go on with a digit. -/
def Stops (rest : List Char) : Prop :=
  rest.head?.any isDigit = false

instance (rest : List Char) : Decidable (Stops rest) :=
  inferInstanceAs (Decidable (_ = false))

theorem takeWhile_natDigits (n : Nat) {rest : List Char} (h : Stops rest) :
    (natDigits n ++ rest).takeWhile isDigit = natDigits n := by
  rw [List.takeWhile_append_of_pos fun c hc => isDigit_of_mem_natDigits hc]
  cases rest with
  | nil => simp
  | cons c rest =>
    have hc : isDigit c = false := h
    simp [hc]

/-- A number is told apart from what follows it, if that is not a digit. -/
theorem read_natDigits {m n : Nat} {r s : List Char} (hr : Stops r) (hs : Stops s)
    (h : natDigits m ++ r = natDigits n ++ s) : m = n ∧ r = s := by
  have hdigits : natDigits m = natDigits n := by
    rw [← takeWhile_natDigits m hr, ← takeWhile_natDigits n hs, h]
  constructor
  · rw [← digitsValue_natDigits m, ← digitsValue_natDigits n, hdigits]
  · rw [hdigits] at h
    exact List.append_cancel_left h

theorem natDigits_append_ne_minus (n : Nat) (r s : List Char) : natDigits n ++ r ≠ '-' :: s := by
  intro h
  cases hn : natDigits n with
  | nil => exact natDigits_ne_nil n hn
  | cons c cs =>
    rw [hn] at h
    have hc : isDigit c = true := isDigit_of_mem_natDigits (n := n) (hn ▸ List.mem_cons_self)
    rw [(List.cons.inj h).1] at hc
    exact absurd hc (by decide)

theorem read_intDigits {m n : Int} {r s : List Char} (hr : Stops r) (hs : Stops s)
    (h : intDigits m ++ r = intDigits n ++ s) : m = n ∧ r = s := by
  unfold intDigits at h
  by_cases hm : m < 0 <;> by_cases hn : n < 0
  · simp only [hm, hn, if_true, List.cons_append, List.cons.injEq, true_and] at h
    obtain ⟨habs, hrest⟩ := read_natDigits hr hs h
    exact ⟨by omega, hrest⟩
  · simp only [hm, hn, if_true, if_false, List.cons_append] at h
    exact absurd h.symm (natDigits_append_ne_minus _ _ _)
  · simp only [hm, hn, if_true, if_false, List.cons_append] at h
    exact absurd h (natDigits_append_ne_minus _ _ _)
  · simp only [hm, hn, if_false] at h
    obtain ⟨habs, hrest⟩ := read_natDigits hr hs h
    exact ⟨by omega, hrest⟩

theorem intText_ne_empty (n : Int) : intText n ≠ "" := by
  have hne : intDigits n ≠ [] := by
    unfold intDigits
    split <;> simp [natDigits_ne_nil]
  simpa [intText] using hne

/-! ## Characters of numbers -/

/-- The characters that numbers are written with. -/
def Numeric (c : Char) : Prop :=
  isDigit c = true ∨ c = '-' ∨ c = '.'

instance (c : Char) : Decidable (Numeric c) :=
  inferInstanceAs (Decidable (isDigit c = true ∨ c = '-' ∨ c = '.'))

theorem numeric_of_mem_intDigits {n : Int} {c : Char} (h : c ∈ intDigits n) : Numeric c := by
  unfold intDigits at h
  split at h
  · rcases List.mem_cons.1 h with rfl | h
    · exact .inr (.inl rfl)
    · exact .inl (isDigit_of_mem_natDigits h)
  · exact .inl (isDigit_of_mem_natDigits h)

end Text

/-! ## Reals -/

theorem Text.mem_of_mem_dropEndWhile {p : Char → Bool} {cs : List Char} {c : Char}
    (h : c ∈ Text.dropEndWhile p cs) : c ∈ cs := by
  have h := List.dropWhile_subset p (List.mem_reverse.1 h)
  exact List.mem_reverse.1 h

theorem Shortest.isDigit_of_mem_digits {tie : Tie} {significand : Nat} {exponent : Int} {c : Char}
    (h : c ∈ (Shortest.digits tie significand exponent).digits) : Text.isDigit c = true := by
  simp only [Shortest.digits] at h
  split at h
  · rw [List.mem_singleton.1 h]
    decide
  · exact Text.isDigit_of_mem_natDigits (Text.mem_of_mem_dropEndWhile h)

theorem Digits.numeric_of_mem_plain {d : Digits} (hd : ∀ c ∈ d.digits, Text.isDigit c = true)
    {c : Char} (h : c ∈ d.plain) : Text.Numeric c := by
  have hzero : Text.isDigit '0' = true := by decide
  unfold Digits.plain at h
  split at h
  · simp only [List.mem_cons, List.mem_append, List.mem_replicate] at h
    rcases h with rfl | rfl | ⟨-, rfl⟩ | h
    · exact .inl hzero
    · exact .inr (.inr rfl)
    · exact .inl hzero
    · exact .inl (hd c h)
  · split at h
    · simp only [List.mem_append, List.mem_replicate] at h
      rcases h with h | ⟨-, rfl⟩
      · exact .inl (hd c h)
      · exact .inl hzero
    · simp only [List.mem_append, List.mem_cons] at h
      rcases h with h | rfl | h
      · exact .inl (hd c (List.mem_of_mem_take h))
      · exact .inr (.inr rfl)
      · exact .inl (hd c (List.mem_of_mem_drop h))

namespace Binary64

theorem literalText_ne_empty (x : Binary64) : x.literalText ≠ "" := by
  cases x with
  | finite negative significand exponent =>
    simp only [literalText, isFinite, if_true, withFraction]
    split
    · next h =>
      intro hempty
      simp_all
    · simp
  | infinite negative => cases negative <;> decide
  | nan => decide

theorem numeric_of_mem_plainChars {x : Binary64} (hx : x.isFinite = true) {c : Char}
    (h : c ∈ x.plainChars) : Text.Numeric c := by
  cases x with
  | finite negative significand exponent =>
    have hdigits : ∀ {c}, c ∈ (if significand = 0 then ['0']
        else (Shortest.digits .up significand exponent).plain) → Text.Numeric c := by
      intro c h
      split at h
      · rw [List.mem_singleton.1 h]
        exact .inl (by decide)
      · exact Digits.numeric_of_mem_plain (fun _ => Shortest.isDigit_of_mem_digits) h
    simp only [plainChars, signed] at h
    split at h
    · rcases List.mem_cons.1 h with rfl | h
      · exact .inr (.inl rfl)
      · exact hdigits h
    · exact hdigits h
  | infinite negative => cases hx
  | nan => cases hx

/-- A finite real is written with the characters of numbers. -/
theorem numeric_of_mem_literalText {x : Binary64} (hx : x.isFinite = true) {c : Char}
    (h : c ∈ x.literalText.toList) : Text.Numeric c := by
  simp only [literalText, hx, if_true, String.toList_ofList, withFraction] at h
  split at h
  · exact numeric_of_mem_plainChars hx h
  · rcases List.mem_append.1 h with h | h
    · exact numeric_of_mem_plainChars hx h
    · simp only [List.mem_cons, List.not_mem_nil, or_false] at h
      rcases h with rfl | rfl
      · exact .inr (.inr rfl)
      · exact .inl (by decide)

end Binary64

end StructuredCall
