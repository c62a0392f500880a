import Mathlib.Data.Nat.Digits.Defs
import Mathlib.Tactic.Ring
import StructuredCall.DataType
import StructuredCall.Name
import StructuredCall.Text.Blank
import StructuredCall.Text.Numeral

/-!
# Words

What it takes for a word to name a type, to name an input, and to be a size, each said without
the function that reads it.

* `Kind.NamedBy` — a type word, in any mixture of cases.
* `Name.Admissible` — an identifier that no language and no generated program claims.
* `Text.Word64` — a numeral of at most 64 bits.
-/

namespace StructuredCall

/-! ## Type words -/

namespace Kind

/-- The word names the kind, whatever the case of its letters A to Z. -/
def NamedBy (word : String) (kind : Kind) : Prop :=
  word.toLower = kind.name ∨ word.toLower = "char" ∧ kind = .scalar .character

theorem foldCase_eq (c : Char) : foldCase c = c.toLower := by
  unfold foldCase Char.toLower
  by_cases h : 'A' ≤ c ∧ c ≤ 'Z'
  · have h' : c.val ≥ 'A'.val ∧ c.val ≤ 'Z'.val := h
    rw [if_pos h, dif_pos h']
    have hle : c.toNat ≤ 90 := h.2
    have hv : (c.toNat + 32).isValidChar := .inl (by omega)
    apply Char.ext
    apply UInt32.toNat_inj.1
    rw [Char.ofNat, dif_pos hv, UInt32.toNat_add]
    show c.toNat + 32 = (c.toNat + 32) % 2 ^ 32
    omega
  · have h' : ¬(c.val ≥ 'A'.val ∧ c.val ≤ 'Z'.val) := h
    rw [if_neg h, dif_neg h']

theorem foldCaseText_eq (word : String) : foldCaseText word = word.toLower := by
  apply String.ext
  have hlower : word.toLower = word.map Char.toLower := rfl
  simp [foldCaseText, hlower, String.toList_map, foldCase_eq]

theorem name_ne_char (kind : Kind) : kind.name ≠ "char" := by
  rcases kind with s | c
  · cases s <;> decide
  · cases c <;> decide

theorem find?_name {word : String} {kind : Kind} :
    all.find? (fun kind => kind.name = word) = some kind ↔ word = kind.name := by
  constructor
  · intro h
    have hk := List.find?_some h
    exact (of_decide_eq_true hk).symm
  · rintro rfl
    rcases kind with s | c
    · cases s <;> decide
    · cases c <;> decide

/-- **Reading a type word.** -/
theorem ofWord?_eq_some {word : String} {kind : Kind} :
    ofWord? word = some kind ↔ kind.NamedBy word := by
  unfold ofWord? NamedBy
  rw [foldCaseText_eq]
  by_cases h : word.toLower = "char"
  · simp only [h, if_true, Option.some.injEq, true_and]
    constructor
    · exact fun hk => .inr hk.symm
    · rintro (hk | hk)
      · exact absurd hk.symm (name_ne_char kind)
      · exact hk.symm
  · simp only [h, if_false, false_and, or_false]
    exact find?_name

theorem NamedBy.unique {word : String} {kind other : Kind} (h : kind.NamedBy word)
    (h' : other.NamedBy word) : kind = other :=
  Option.some.inj ((ofWord?_eq_some.2 h).symm.trans (ofWord?_eq_some.2 h'))

theorem NamedBy.toLower_first {word : String} {kind : Kind} (h : kind.NamedBy word) :
    ∃ c letters, word.toLower.toList = c :: letters ∧ 'a' ≤ c ∧ c ≤ 'z' := by
  rcases h with h | ⟨h, -⟩
  · rw [h]
    rcases kind with s | c
    · cases s <;> exact ⟨_, _, rfl, by decide, by decide⟩
    · cases c <;> exact ⟨_, _, rfl, by decide, by decide⟩
  · rw [h]
    exact ⟨_, _, rfl, by decide, by decide⟩

/-- A character that is a letter in lower case lies between `A` and `z`. -/
theorem letter_range_of_foldCase {c : Char} (h : 'a' ≤ foldCase c ∧ foldCase c ≤ 'z') :
    65 ≤ c.toNat ∧ c.toNat ≤ 122 := by
  unfold foldCase at h
  split at h
  · next hupper =>
    have hlow : 65 ≤ c.toNat := hupper.1
    have hhigh : c.toNat ≤ 90 := hupper.2
    omega
  · have hlow : 97 ≤ c.toNat := h.1
    have hhigh : c.toNat ≤ 122 := h.2
    omega

/-- A word for a type starts with a letter, and so neither with white space nor as a comment. -/
theorem NamedBy.first {word : String} {kind : Kind} (h : kind.NamedBy word) :
    ∃ c letters, word.toList = c :: letters ∧ Text.isBlank c = false ∧ c ≠ '#' := by
  obtain ⟨lower, rest, hlower, hletter⟩ := h.toLower_first
  rw [← foldCaseText_eq, foldCaseText, String.toList_ofList] at hlower
  obtain ⟨c, letters, hword, rfl, -⟩ := List.map_eq_cons_iff.1 hlower
  obtain ⟨hlow, hhigh⟩ := letter_range_of_foldCase hletter
  refine ⟨c, letters, hword, ?_, ?_⟩
  · simp [Text.isBlank, Text.inRanges, Text.blankRanges]
    omega
  · rintro rfl
    exact absurd hlow (by decide)

end Kind

/-! ## Names -/

namespace Name

/-- The words that may name an input. -/
structure Admissible (name : String) : Prop where
  identifier : ∃ first rest, name.toList = first :: rest ∧ (first.isAlpha ∨ first = '_') ∧
    ∀ c ∈ rest, c.isAlphanum ∨ c = '_'
  unreserved : name ∉ reservedWords

theorem isHead_iff (c : Char) : isHead c = true ↔ c.isAlpha ∨ c = '_' := by
  have halpha : c.isAlpha = (decide ('A' ≤ c ∧ c ≤ 'Z') || ('a' ≤ c && c ≤ 'z')) := rfl
  simp only [isHead, halpha, Bool.or_eq_true, Bool.and_eq_true, decide_eq_true_eq]
  exact or_congr_left or_comm

theorem isTail_iff (c : Char) : isTail c = true ↔ c.isAlphanum ∨ c = '_' := by
  rw [isTail, Bool.or_eq_true, isHead_iff, or_right_comm]
  simp only [Char.isAlphanum, Char.isDigit, Bool.or_eq_true, Bool.and_eq_true, decide_eq_true_eq]
  exact Iff.rfl

theorem isIdentifier_iff (name : String) : isIdentifier name = true ↔
    ∃ first rest, name.toList = first :: rest ∧ (first.isAlpha ∨ first = '_') ∧
      ∀ c ∈ rest, c.isAlphanum ∨ c = '_' := by
  unfold isIdentifier
  cases name.toList with
  | nil => simp
  | cons first rest => simp [isHead_iff, isTail_iff]

theorem admissible_iff (name : String) :
    Admissible name ↔ isIdentifier name = true ∧ isReserved name = false := by
  rw [isIdentifier_iff, isReserved, ← Bool.not_eq_true, List.contains_iff_mem]
  exact ⟨fun h => ⟨h.1, h.2⟩, fun h => ⟨h.1, h.2⟩⟩

theorem sizeName_ne (name : String) : sizeName name ≠ name := by
  intro h
  have := congrArg String.length h
  simp [sizeName, sizeSuffix] at this

end Name

/-! ## Sizes -/

namespace Text

/-- The word is a numeral of at most 64 bits, with or without a plus sign, and denotes `n`. -/
def Word64 (word : String) (n : Nat) : Prop :=
  ∃ digits, digits ≠ [] ∧ (∀ c ∈ digits, c.isDigit) ∧
    (word.toList = digits ∨ word.toList = '+' :: digits) ∧
    n = Nat.ofDigits 10 (digits.reverse.map digitValue) ∧ n < 2 ^ 64

theorem isDigit_iff (c : Char) : isDigit c = true ↔ c.isDigit := by
  simp [isDigit, Char.isDigit, UInt32.le_iff_toNat_le]

theorem digitsValue_eq (read : Nat) (cs : List Char) :
    digitsValue read cs =
      read * 10 ^ cs.length + Nat.ofDigits 10 (cs.reverse.map digitValue) := by
  induction cs generalizing read with
  | nil => simp [digitsValue]
  | cons c cs ih =>
    show digitsValue (read * 10 + digitValue c) cs = _
    rw [ih, List.reverse_cons, List.map_append, Nat.ofDigits_append]
    simp only [List.map_cons, List.map_nil, List.length_map, List.length_reverse,
      List.length_cons, Nat.ofDigits_singleton]
    ring

theorem natOfDigits?_eq_some {cs : List Char} {n : Nat} :
    natOfDigits? cs = some n ↔ cs ≠ [] ∧ (∀ c ∈ cs, c.isDigit) ∧
      n = Nat.ofDigits 10 (cs.reverse.map digitValue) := by
  have hall : cs.all isDigit = true ↔ ∀ c ∈ cs, c.isDigit := by
    simp only [List.all_eq_true, isDigit_iff]
  simp only [natOfDigits?, hall, digitsValue_eq, Nat.zero_mul, Nat.zero_add]
  by_cases h : cs ≠ [] ∧ ∀ c ∈ cs, c.isDigit
  · rw [if_pos h, Option.some.injEq]
    exact ⟨fun hn => ⟨h.1, h.2, hn.symm⟩, fun hn => hn.2.2.symm⟩
  · rw [if_neg h]
    constructor
    · simp
    · exact fun hn => absurd ⟨hn.1, hn.2.1⟩ h

/-- **Reading a size.** -/
theorem word64?_eq_some {word : String} {n : Nat} :
    word64? word.toList = some n ↔ Word64 word n := by
  have hlt : decide (n < word64Count) = true ↔ n < 2 ^ 64 := by
    rw [decide_eq_true_eq, word64Count]
    norm_num
  unfold word64? Word64
  rw [Option.filter_eq_some_iff, natOfDigits?_eq_some, hlt]
  constructor
  · rintro ⟨⟨hne, hdigits, hn⟩, hbound⟩
    refine ⟨_, hne, hdigits, ?_, hn, hbound⟩
    split
    · next rest h => exact .inr h
    · exact .inl rfl
  · rintro ⟨digits, hne, hdigits, hword, hn, hbound⟩
    refine ⟨?_, hbound⟩
    rcases hword with hword | hword
    · -- digits do not start with a sign, so nothing is taken off them
      have hplus : ∀ rest, digits ≠ '+' :: rest := by
        rintro rest rfl
        exact absurd (hdigits '+' List.mem_cons_self) (by decide)
      rw [hword]
      split
      · next rest => exact absurd rfl (hplus rest)
      · exact ⟨hne, hdigits, hn⟩
    · rw [hword]
      exact ⟨hne, hdigits, hn⟩

end Text

end StructuredCall
