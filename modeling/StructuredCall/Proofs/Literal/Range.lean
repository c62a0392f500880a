import StructuredCall.Proofs.Literal.Encodings
import StructuredCall.Proofs.Word

/-!
# Whole numbers in range

A whole number comes to a literal as a JSON number or as text, alone or out of an array or an
object, out of the text of one, or out of text joined by commas. Wherever it comes from, a scalar
is decoded, and that is where its range is looked at.

For a scalar the range is all that is looked at: `Json.GivesInt` says which values give a whole
number at all, without the functions that read it, and each one in range is decoded.

Main result: `Literal.decoded_in_range`.
-/

namespace StructuredCall

/-! ## Decimals -/

namespace Text

/-- A nonempty run of digits, and the number that it denotes. -/
def Digits (cs : List Char) (n : Nat) : Prop :=
  cs ≠ [] ∧ (∀ c ∈ cs, c.isDigit) ∧ n = Nat.ofDigits 10 (cs.reverse.map digitValue)

/-- Digits with at most one sign in front, and the number that they denote. -/
inductive Decimal : List Char → Int → Prop
  | unsigned {cs : List Char} {n : Nat} : Digits cs n → Decimal cs n
  | plus {cs : List Char} {n : Nat} : Digits cs n → Decimal ('+' :: cs) n
  | minus {cs : List Char} {n : Nat} : Digits cs n → Decimal ('-' :: cs) (-n)

theorem Digits.isDigit_first {c : Char} {cs : List Char} {n : Nat} (h : Digits (c :: cs) n) :
    c.isDigit :=
  h.2.1 c List.mem_cons_self

/-- **Reading a decimal.** -/
theorem int64?_eq_some {cs : List Char} {n : Int} :
    int64? cs = some n ↔ Decimal cs n ∧ fitsSigned 64 n = true := by
  have hread : ∀ {digits : List Char} {m : Nat}, natOfDigits? digits = some m ↔ Digits digits m :=
    natOfDigits?_eq_some
  unfold int64?
  rw [Option.filter_eq_some_iff]
  refine and_congr_left fun _ => ?_
  split
  · next rest =>
    simp only [Option.map_eq_some_iff, hread]
    constructor
    · rintro ⟨m, hm, rfl⟩
      exact .plus hm
    · intro h
      cases h with
      | unsigned hm => exact absurd hm.isDigit_first (by decide)
      | plus hm => exact ⟨_, hm, rfl⟩
  · next rest =>
    simp only [Option.map_eq_some_iff, hread]
    constructor
    · rintro ⟨m, hm, rfl⟩
      exact .minus hm
    · intro h
      cases h with
      | unsigned hm => exact absurd hm.isDigit_first (by decide)
      | minus hm => exact ⟨_, hm, rfl⟩
  · next hplus hminus =>
    simp only [Option.map_eq_some_iff, hread]
    constructor
    · rintro ⟨m, hm, rfl⟩
      exact .unsigned hm
    · intro h
      cases h with
      | unsigned hm => exact ⟨_, hm, rfl⟩
      | plus => exact absurd rfl (hplus _)
      | minus => exact absurd rfl (hminus _)

/-- A decimal has no white space at its ends. -/
theorem Decimal.tight {cs : List Char} {n : Int} (h : Decimal cs n) : Tight cs := by
  have hdigit : ∀ c : Char, c.isDigit = true → isBlank c = false :=
    fun c hc => isBlank_of_numeric (.inl ((isDigit_iff c).2 hc))
  have hall : ∀ c ∈ cs, isBlank c = false := by
    cases h with
    | unsigned hm => exact fun c hc => hdigit c (hm.2.1 c hc)
    | plus hm | minus hm =>
      exact List.forall_mem_cons.2 ⟨by decide, fun c hc => hdigit c (hm.2.1 c hc)⟩
  exact ⟨fun c hc => hall c (List.mem_of_mem_head? hc),
    fun c hc => hall c (List.mem_of_mem_getLast? hc)⟩

/-- A text is what is left of it by trimming, with white space around. -/
theorem exists_trim (s : String) : ∃ before after, isBlankText before = true ∧
    isBlankText after = true ∧ s = before ++ trim s ++ after := by
  let rest := s.toList.dropWhile isBlank
  refine ⟨String.ofList (s.toList.takeWhile isBlank),
    String.ofList (rest.reverse.takeWhile isBlank).reverse, ?_, ?_, ?_⟩
  · simp [isBlankText, List.all_takeWhile]
  · simp [isBlankText, List.all_takeWhile]
  · have hrest : trimChars s.toList ++ (rest.reverse.takeWhile isBlank).reverse = rest := by
      rw [trimChars, dropEndWhile, ← List.reverse_append, List.takeWhile_append_dropWhile,
        List.reverse_reverse]
    apply String.ext
    rw [trim, String.append_assoc, String.toList_append, String.toList_append,
      String.toList_ofList, String.toList_ofList, String.toList_ofList, hrest,
      List.takeWhile_append_dropWhile]

theorem fitsSigned_iff {bits : Nat} {n : Int} :
    fitsSigned bits n = true ↔ -2 ^ (bits - 1) ≤ n ∧ n ≤ 2 ^ (bits - 1) - 1 := by
  have hpow : Int.ofNat (Nat.pow 2 (bits - 1)) = 2 ^ (bits - 1) := by
    rw [Nat.pow_eq, Int.ofNat_eq_natCast]
    push_cast
    rfl
  simp only [fitsSigned, hpow, Bool.and_eq_true, decide_eq_true_eq]
  exact and_congr_right fun _ => Int.le_sub_one_iff.symm

end Text

/-! ## Values that give a whole number -/

/-- The whole number that a value gives: it is a JSON integer, or text that is a decimal with white
space around it. -/
inductive Json.GivesInt : Json → Int → Prop
  | number (n : Int) : GivesInt (.number (.int n)) n
  | text {before decimal after : String} {n : Int} : Text.isBlankText before = true →
      Text.isBlankText after = true → Text.Decimal decimal.toList n →
      GivesInt (.string (before ++ decimal ++ after)) n

namespace Literal

theorem int?_eq_some {value : Json} {n : Int} :
    int? value = some n ↔ value.GivesInt n ∧ Text.fitsSigned 64 n = true := by
  constructor
  · intro h
    have hfits := fitsSigned_of_int? h
    refine ⟨?_, hfits⟩
    unfold int? at h
    split at h
    · split at h <;> cases h
      exact .number n
    · next s =>
      obtain ⟨before, after, hbefore, hafter, hs⟩ := Text.exists_trim s
      rw [hs]
      refine .text hbefore hafter ?_
      rw [Text.trim, String.toList_ofList]
      exact (Text.int64?_eq_some.1 h).1
    · cases h
  · rintro ⟨hgives, hfits⟩
    cases hgives with
    | number => simp [int?, hfits]
    | @text before decimal after _ hbefore hafter hdecimal =>
      have htrim := hdecimal.tight.trim_around hbefore hafter
      have hchars : Text.trimChars (before ++ decimal ++ after).toList = decimal.toList := by
        have hlist := congrArg String.toList htrim
        rwa [Text.trim, String.toList_ofList] at hlist
      rw [int?, hchars, Text.int64?_eq_some]
      exact ⟨hdecimal, hfits⟩

end Literal

/-! ## Ranges -/

/-- The whole numbers of a scalar type. -/
def Scalar.Ranges : Scalar → Int → Prop
  | .integer, n => -2 ^ 31 ≤ n ∧ n ≤ 2 ^ 31 - 1
  | .long, n => -2 ^ 63 ≤ n ∧ n ≤ 2 ^ 63 - 1
  | .float, _ | .double, _ | .boolean, _ | .character, _ | .string, _ => False

/-- The type itself if it is scalar, otherwise the type of its elements. -/
def DataType.leaf : DataType → Scalar
  | .scalar s => s
  | .composite _ e => e

namespace Literal

/-- All scalars in a literal. -/
def scalars : Literal → List ScalarValue
  | .scalar value => [value]
  | .sequence values => values
  | .entries es => es.map (·.2)

theorem ranges_iff_hasScalar {s : Scalar} {n : Int} :
    s.Ranges n ↔ (ScalarValue.int n).HasScalar s := by
  constructor
  · intro h
    cases s with
    | integer => exact .integer (Text.fitsSigned_iff.2 h)
    | long => exact .long (Text.fitsSigned_iff.2 h)
    | float | double | boolean | character | string => cases h
  · intro h
    cases h with
    | integer fits => exact Text.fitsSigned_iff.1 fits
    | long fits => exact Text.fitsSigned_iff.1 fits

theorem HasType.hasScalar {type : DataType} {literal : Literal} (h : literal.HasType type)
    {value : ScalarValue} (hmem : value ∈ literal.scalars) : value.HasScalar type.leaf := by
  cases h with
  | scalar typed =>
    cases List.mem_singleton.1 hmem
    exact typed
  | array typed => exact typed value hmem
  | set typed => exact typed value hmem
  | map typed =>
    obtain ⟨entry, hentry, rfl⟩ := List.mem_map.1 hmem
    exact typed entry hentry

/-- A whole number is decoded if it is in range. -/
theorem decodeScalar_whole {s : Scalar} (hwhole : s.isWhole = true) {value : Json}
    {v : ScalarValue} : decodeScalar s value = .ok v ↔
      ∃ n, value.GivesInt n ∧ s.Ranges n ∧ v = .int n := by
  have hread : ∀ wide, decodeInt wide value = .ok v ↔
      ∃ n, int? value = some n ∧ (wide || Text.fitsSigned 32 n) = true ∧ v = .int n := by
    intro wide
    unfold decodeInt
    constructor
    · intro h
      split at h
      · cases h
      · next n hn =>
        split at h
        · next hfits =>
          cases h
          exact ⟨n, hn, hfits, rfl⟩
        · cases h
    · rintro ⟨n, hn, hfits, rfl⟩
      simp only [hn, hfits, if_true]
  cases s with
  | integer =>
    rw [decodeScalar, hread]
    refine exists_congr fun n => ?_
    rw [int?_eq_some, Bool.false_or, and_assoc]
    refine and_congr_right fun _ => ?_
    rw [← and_assoc]
    refine and_congr_left fun _ => ?_
    -- what fits 32 bits fits 64, so the reader loses none of it
    exact ⟨fun h => Text.fitsSigned_iff.1 h.2,
      fun h => ⟨Text.fitsSigned_of_narrow (Text.fitsSigned_iff.2 h), Text.fitsSigned_iff.2 h⟩⟩
  | long =>
    rw [decodeScalar, hread]
    refine exists_congr fun n => ?_
    rw [int?_eq_some, Bool.true_or, and_assoc]
    refine and_congr_right fun _ => and_congr Text.fitsSigned_iff ?_
    simp
  | float | double | boolean | character | string => cases hwhole

/-- **Decoded literals are well typed and in range.** A literal that a value is decoded to at a type
has the shape of the type, its scalars are of the declared kind, and its whole numbers are in the
range of that kind. As a scalar, a value is decoded to a whole number exactly if it gives one that
is in range. -/
theorem decoded_in_range (type : DataType) (value : Json) :
    (∀ literal, decode type value = .ok literal →
      literal.HasType type ∧ ∀ n, .int n ∈ literal.scalars → type.leaf.Ranges n) ∧
    ∀ s : Scalar, s.isWhole = true → ∀ literal, decode (.scalar s) value = .ok literal ↔
      ∃ n, value.GivesInt n ∧ s.Ranges n ∧ literal = .scalar (.int n) := by
  constructor
  · intro literal h
    have htype := hasType_of_decode h
    exact ⟨htype, fun n hmem => ranges_iff_hasScalar.2 (htype.hasScalar hmem)⟩
  · intro s hwhole literal
    simp only [decode, Compiled.map_eq_ok, decodeScalar_whole hwhole]
    constructor
    · rintro ⟨_, ⟨n, hgives, hrange, rfl⟩, rfl⟩
      exact ⟨n, hgives, hrange, rfl⟩
    · rintro ⟨n, hgives, hrange, rfl⟩
      exact ⟨_, ⟨n, hgives, hrange, rfl⟩, rfl⟩

/-- The least integer among the entries of a text, and a long integer with a sign between blanks. -/
theorem decoded_in_range_text :
    let entries : List (String × ScalarValue) := [("a", .int 7), ("b", .int (-2147483648))]
    decode (.composite .map .integer) (.string "a: 7,b:-2147483648") = .ok (.entries entries) ∧
    Scalar.integer.Ranges (-2147483648) ∧
    decode (.scalar .long) (.string " +3000000000 ") = .ok (.scalar (.int 3000000000)) := by
  intro entries
  have hmap : decode (.composite .map .integer) (.string "a: 7,b:-2147483648") =
      .ok (.entries entries) := by
    rfl
  have hrange := ((decoded_in_range _ _).1 _ hmap).2 (-2147483648) (by simp [scalars, entries])
  have hdecimal : Text.Decimal "+3000000000".toList 3000000000 :=
    .plus ⟨by decide, List.all_eq_true.1 (by decide), by decide⟩
  have hlong : Scalar.long.Ranges 3000000000 := by
    unfold Scalar.Ranges
    omega
  have hgives : (Json.string (" " ++ "+3000000000" ++ " ")).GivesInt 3000000000 :=
    .text (by decide) (by decide) hdecimal
  exact ⟨hmap, hrange, ((decoded_in_range (.scalar .long) _).2 .long rfl _).2
    ⟨_, hgives, hlong, rfl⟩⟩

end Literal

end StructuredCall
