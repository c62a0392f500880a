import StructuredCall.Proofs.Literal.Printed
import StructuredCall.Proofs.Source

/-!
# Forms of the same data

Whole numbers in an array or a map can be stored in three forms: as a JSON value, as the text of
that value with white space around it, and as text joined by commas. All of them are decoded to the
same literal, and what is expected for the first two is the third (`Encodings`).

A text is read as JSON first, so what is joined by commas must not be the text of an array or
object. It is not, because it ends with a digit or a comma (`getLast?_joined`).

Main result: `Literal.encodings_agree`.
-/

namespace StructuredCall

namespace Text

/-! ## White space -/

theorem getLast?_trim {s : String} {last : Char} (hlast : s.toList.getLast? = some last)
    (hblank : isBlank last = false) : (trim s).toList.getLast? = some last := by
  obtain ⟨cs, hcs⟩ := List.getLast?_eq_some_iff.1 hlast
  have hdrop : (s.toList.dropWhile isBlank).getLast? = some last := by
    rw [hcs, List.dropWhile_append]
    split
    · simp [hblank]
    · simp
  rw [trim, String.toList_ofList, trimChars, dropEndWhile_of_getLast, hdrop]
  rw [hdrop]
  rintro c hc
  cases hc
  exact hblank

/-! ## Numbers -/

theorem isBlank_of_numeric {c : Char} (h : Numeric c) : isBlank c = false := by
  rcases h with h | rfl | rfl
  · have hrange : 48 ≤ c.toNat ∧ c.toNat ≤ 57 := by simpa [isDigit] using h
    simp [isBlank, inRanges, blankRanges]
    omega
  · decide
  · decide

theorem tight_intDigits (n : Int) : Tight (intDigits n) := by
  constructor
  · intro c hc
    exact isBlank_of_numeric (numeric_of_mem_intDigits (List.mem_of_mem_head? hc))
  · intro c hc
    exact isBlank_of_numeric (numeric_of_mem_intDigits (List.mem_of_mem_getLast? hc))

theorem natOfDigits?_natDigits (n : Nat) : natOfDigits? (natDigits n) = some n := by
  have hdigits : (natDigits n).all isDigit = true :=
    List.all_eq_true.2 fun _ => isDigit_of_mem_natDigits
  rw [natOfDigits?, if_pos ⟨natDigits_ne_nil n, hdigits⟩, digitsValue_natDigits]

theorem int64?_intDigits {n : Int} (h : fitsSigned 64 n = true) :
    int64? (intDigits n) = some n := by
  unfold intDigits
  split
  · next hneg =>
    have hn : -Int.ofNat n.natAbs = n := by
      rw [Int.ofNat_eq_natCast]
      omega
    simp only [int64?, natOfDigits?_natDigits, Option.map_some, hn, Option.filter_some, h, if_true]
  · next hpos =>
    have hn : Int.ofNat n.natAbs = n := Int.natAbs_of_nonneg (Int.not_lt.1 hpos)
    unfold int64?
    split
    · next rest heq =>
      have hplus : isDigit '+' = true := isDigit_of_mem_natDigits (by rw [heq]; simp)
      cases hplus
    · next rest heq =>
      exact absurd (by simpa using heq) (natDigits_append_ne_minus n.natAbs [] rest)
    · simp only [natOfDigits?_natDigits, Option.map_some, hn, Option.filter_some, h, if_true]

theorem fitsSigned_of_narrow {n : Int} (h : fitsSigned 32 n = true) : fitsSigned 64 n = true := by
  have hnarrow : Nat.pow 2 (32 - 1) = 2147483648 := by decide
  have hwide : Nat.pow 2 (64 - 1) = 9223372036854775808 := by decide
  simp only [fitsSigned, hnarrow, hwide, Int.ofNat_eq_natCast, Bool.and_eq_true,
    decide_eq_true_eq] at h ⊢
  omega

/-! ## Commas -/

/-- Joining by commas is undone, but for empty tokens. -/
theorem commaTokens_intercalate {tokens : List String} (h : ∀ token ∈ tokens, ',' ∉ token.toList) :
    Literal.commaTokens (",".intercalate tokens) = tokens.filter (· ≠ "") := by
  by_cases hne : tokens = []
  · subst hne
    rfl
  have hsplit : pieces ',' (",".intercalate tokens).toList = tokens.map String.toList := by
    rw [pieces_eq_splitOn, String.toList_intercalate]
    exact List.splitOn_intercalate ',' (List.forall_mem_map.2 h) (by simpa using hne)
  rw [Literal.commaTokens, hsplit, List.filter_map, List.map_map]
  simp [Function.comp_def]

/-- What is joined by commas ends like one of its tokens, or with a comma. -/
theorem getLast?_joined {p : Char → Prop} (hcomma : p ',') {tokens : List String}
    (h : ∀ token ∈ tokens, ∀ c ∈ token.toList.getLast?, p c) :
    ∀ c ∈ (",".intercalate tokens).toList.getLast?, p c := by
  induction tokens with
  | nil => simp
  | cons token tokens ih =>
    obtain ⟨htoken, htokens⟩ := List.forall_mem_cons.1 h
    cases tokens with
    | nil => simpa using htoken
    | cons next tokens =>
      intro c hc
      rw [String.intercalate_cons_cons, String.toList_append, String.toList_append,
        List.getLast?_append] at hc
      cases hlast : (",".intercalate (next :: tokens)).toList.getLast? with
      | none =>
        rw [hlast] at hc
        obtain rfl : ',' = c := by simpa using hc
        exact hcomma
      | some d =>
        rw [hlast] at hc
        obtain rfl : d = c := by simpa using hc
        exact ih htokens d hlast

end Text

namespace Literal

open ScalarValue (HasScalar)

/-! ## The forms -/

/-- The stored forms of one literal: a JSON value, its text with white space around it, and its
parts joined by commas, with any empty tokens among them. All are decoded to the literal. What is
expected for the first two is the parts joined by commas. -/
structure Encodings (type : DataType) (stored : Json) (parts : List String) (literal : Literal) :
    Prop where
  value : decode type stored = .ok literal
  text : ∀ before after, Text.isBlankText before = true → Text.isBlankText after = true →
    decode type (.string (before ++ stored.text ++ after)) = .ok literal
  tokens : ∀ tokens, tokens.filter (· ≠ "") = parts →
    decode type (.string (",".intercalate tokens)) = .ok literal
  expected : Expected.text type stored = ",".intercalate parts
  expectedText : ∀ before after, Text.isBlankText before = true → Text.isBlankText after = true →
    Expected.text type (.string (before ++ stored.text ++ after)) = ",".intercalate parts
  back : decode type (.string (",".intercalate parts)) = .ok literal

/-! ## JSON text -/

theorem tight_of_brackets {first last : Char} {cs : List Char}
    (hfirst : Text.isBlank first = false) (hlast : Text.isBlank last = false) :
    Text.Tight (first :: cs ++ [last]) := by
  constructor
  · simpa using hfirst
  · rw [List.getLast?_concat]
    simpa using hlast

theorem tight_array (items : List Json) : Text.Tight (Json.array items).text.toList := by
  have htext : (Json.array items).text.toList =
      '[' :: (",".intercalate (Json.itemTexts items)).toList ++ [']'] := by
    rw [Json.text, String.toList_append, String.toList_append]
    rfl
  rw [htext]
  exact tight_of_brackets (by decide) (by decide)

theorem tight_object (members : List (String × Json)) :
    Text.Tight (Json.object members).text.toList := by
  have htext : (Json.object members).text.toList =
      '\x7b' :: (",".intercalate (Json.memberTexts members)).toList ++ ['\x7d'] := by
    rw [Json.text, String.toList_append, String.toList_append]
    rfl
  rw [htext]
  exact tight_of_brackets (by decide) (by decide)

theorem decode_arrayText {e : Scalar} {items : List Json} {s : String}
    (h : Json.ofText? (Text.trim s) = some (.array items)) :
    decode (.composite .array e) (.string s) = decode (.composite .array e) (.array items) := by
  simp [decode, decodeArray, Literal.items, h]

theorem decode_objectText {e : Scalar} {members : List (String × Json)} {s : String}
    (h : Json.ofText? (Text.trim s) = some (.object members)) :
    decode (.composite .map e) (.string s) = decode (.composite .map e) (.object members) := by
  simp [decode, decodeMap, Literal.members, h]

/-! ## Joined text -/

/-- Text joined by commas that ends with a digit is neither an array nor an object. -/
theorem ofText?_joined {tokens : List String}
    (h : ∀ token ∈ tokens, ∀ c ∈ token.toList.getLast?, Text.isDigit c = true) {value : Json}
    (hread : Json.ofText? (Text.trim (",".intercalate tokens)) = some value) :
    (∀ items, value ≠ .array items) ∧ ∀ members, value ≠ .object members := by
  have hends := Text.getLast?_joined (p := fun c => c = ',' ∨ Text.isDigit c = true) (.inl rfl)
    fun token htoken c hc => .inr (h token htoken c hc)
  cases hlast : (",".intercalate tokens).toList.getLast? with
  | none =>
    have hempty : ",".intercalate tokens = "" :=
      String.toList_eq_nil_iff.1 (List.getLast?_eq_none_iff.1 hlast)
    rw [hempty] at hread
    cases hread
  | some c =>
    have hc := hends c hlast
    have hblank : Text.isBlank c = false := by
      rcases hc with rfl | hc
      · decide
      · exact Text.isBlank_of_numeric (.inl hc)
    obtain ⟨harray, hobject, -⟩ :=
      Json.end_of_ofText? (Text.getLast?_trim hlast hblank) hblank hread
    constructor
    · intro items hitems
      rw [harray items hitems] at hc
      exact absurd hc (by decide)
    · intro members hmembers
      rw [hobject members hmembers] at hc
      exact absurd hc (by decide)

/-! ## Whole numbers -/

theorem comma_not_mem_intText (n : Int) : ',' ∉ (Text.intText n).toList := by
  intro hmem
  rw [Text.intText, String.toList_ofList] at hmem
  exact absurd (Text.numeric_of_mem_intDigits hmem) (by simp [Text.Numeric, Text.isDigit])

theorem isDigit_of_getLast?_intText {n : Int} :
    ∀ c ∈ (Text.intText n).toList.getLast?, Text.isDigit c = true := by
  intro c hc
  rw [Text.intText, String.toList_ofList, Text.intDigits] at hc
  have hlast : c ∈ (Text.natDigits n.natAbs).getLast? := by
    split at hc
    · rwa [← List.singleton_append,
        List.getLast?_append_of_ne_nil _ (Text.natDigits_ne_nil _)] at hc
    · exact hc
  exact Text.isDigit_of_mem_natDigits (List.mem_of_mem_getLast? hlast)

theorem intText_ne_empty (n : Int) : Text.intText n ≠ "" := by
  intro h
  have hdigits : Text.intDigits n = [] := by simpa [Text.intText] using congrArg String.toList h
  unfold Text.intDigits at hdigits
  split at hdigits
  · cases hdigits
  · exact Text.natDigits_ne_nil _ hdigits

section

variable {e : Scalar} {n : Int}

theorem fits_of_hasScalar (h : (ScalarValue.int n).HasScalar e) : Text.fitsSigned 64 n = true := by
  cases h with
  | integer fits => exact Text.fitsSigned_of_narrow fits
  | long fits => exact fits

theorem exact_int {depth : Nat} (h : (ScalarValue.int n).HasScalar e) :
    Json.Exact depth (.number (.int n)) := by
  have hwide : Nat.pow 2 (64 - 1) = 9223372036854775808 := by decide
  have hcount : Text.word64Count = 18446744073709551616 := rfl
  have hfits := fits_of_hasScalar h
  simp only [Text.fitsSigned, hwide, Int.ofNat_eq_natCast, Bool.and_eq_true,
    decide_eq_true_eq] at hfits
  exact .int depth ⟨by omega, by omega⟩

theorem decodeScalar_number (h : (ScalarValue.int n).HasScalar e) :
    decodeScalar e (.number (.int n)) = .ok (.int n) := by
  have hwide := fits_of_hasScalar h
  cases h with
  | integer fits => simp [decodeScalar, decodeInt, int?, hwide, fits]
  | long fits => simp [decodeScalar, decodeInt, int?, hwide]

theorem decodeScalar_decimal (h : (ScalarValue.int n).HasScalar e) :
    decodeScalar e (.string (Text.intText n)) = .ok (.int n) := by
  have hread : Text.int64? (Text.trimChars (Text.intText n).toList) = some n := by
    rw [Text.intText, String.toList_ofList, (Text.tight_intDigits n).trimChars_eq,
      Text.int64?_intDigits (fits_of_hasScalar h)]
  cases h with
  | integer fits => simp [decodeScalar, decodeInt, int?, hread, fits]
  | long fits => simp [decodeScalar, decodeInt, int?, hread]

end

/-! ## Entries -/

/-- The token of an entry. -/
def entryToken (entry : String × Int) : String :=
  entry.1 ++ ":" ++ Text.intText entry.2

theorem splitEntry_entryToken {entry : String × Int} (h : ':' ∉ entry.1.toList) :
    splitEntry (entryToken entry) = .ok (entry.1, .string (Text.intText entry.2)) :=
  splitEntry_eq_ok.2 ⟨_, ⟨rfl, h⟩, rfl⟩

theorem mapM_splitEntry {entries : List (String × Int)}
    (h : ∀ entry ∈ entries, ':' ∉ entry.1.toList) :
    (entries.map entryToken).mapM splitEntry =
      .ok (entries.map fun entry => (entry.1, .string (Text.intText entry.2))) := by
  rw [mapM_eq_ok, List.forall₂_map_left_iff, List.forall₂_map_right_iff, List.forall₂_same]
  exact fun entry hentry => splitEntry_entryToken (h entry hentry)

theorem entryToken_ne_empty (entry : String × Int) : entryToken entry ≠ "" := by
  intro h
  have hlist := congrArg String.toList h
  simp [entryToken] at hlist

theorem comma_not_mem_entryToken {entry : String × Int} (h : ',' ∉ entry.1.toList) :
    ',' ∉ (entryToken entry).toList := by
  intro hmem
  simp only [entryToken, String.toList_append, List.mem_append] at hmem
  rcases hmem with (hmem | hmem) | hmem
  · exact h hmem
  · exact absurd hmem (by decide)
  · exact comma_not_mem_intText _ hmem

theorem isDigit_of_getLast?_entryToken (entry : String × Int) :
    ∀ c ∈ (entryToken entry).toList.getLast?, Text.isDigit c = true := by
  intro c hc
  have hne : (Text.intText entry.2).toList ≠ [] :=
    fun h => intText_ne_empty _ (String.toList_eq_nil_iff.1 h)
  rw [entryToken, String.toList_append, List.getLast?_append_of_ne_nil _ hne] at hc
  exact isDigit_of_getLast?_intText c hc

/-! ## Putting the forms together -/

/-- The forms that are text follow from what a value is decoded to and printed as, if its text is
read back. -/
theorem Encodings.of_value {type : DataType} {stored : Json} {parts : List String}
    {literal : Literal} (exact : Json.Exact Json.maxDepth stored)
    (tight : Text.Tight stored.text.toList) (hne : ∀ part ∈ parts, part ≠ "")
    (value : decode type stored = .ok literal)
    (expected : Expected.text type stored = ",".intercalate parts)
    (tokens : ∀ tokens, tokens.filter (· ≠ "") = parts →
      decode type (.string (",".intercalate tokens)) = .ok literal)
    (same : ∀ s, Json.ofText? (Text.trim s) = some stored →
      decode type (.string s) = decode type stored ∧
        Expected.text type (.string s) = Expected.text type stored) :
    Encodings type stored parts literal := by
  have hread : ∀ before after, Text.isBlankText before = true → Text.isBlankText after = true →
      Json.ofText? (Text.trim (before ++ stored.text ++ after)) = some stored := by
    intro before after hbefore hafter
    rw [tight.trim_around hbefore hafter]
    exact Json.ofText?_text exact
  refine ⟨value, fun before after hbefore hafter => ?_, tokens, expected,
    fun before after hbefore hafter => ?_, tokens parts ?_⟩
  · rw [(same _ (hread before after hbefore hafter)).1, value]
  · rw [(same _ (hread before after hbefore hafter)).2, expected]
  · exact List.filter_eq_self.2 fun part hpart => by simpa using hne part hpart

/-- Tokens that are empty or among the parts end like the parts. -/
theorem last_of_filter {p : Char → Prop} {tokens parts : List String}
    (htokens : tokens.filter (· ≠ "") = parts)
    (hparts : ∀ part ∈ parts, ∀ c ∈ part.toList.getLast?, p c) :
    ∀ token ∈ tokens, ∀ c ∈ token.toList.getLast?, p c := by
  intro token htoken c hc
  by_cases hempty : token = ""
  · subst hempty
    cases hc
  · exact hparts token (htokens ▸ List.mem_filter.2 ⟨htoken, by simpa using hempty⟩) c hc

/-- Tokens without commas, and what is left of them when they are joined and cut again. -/
theorem commaTokens_of_filter {tokens parts : List String}
    (htokens : tokens.filter (· ≠ "") = parts) (hparts : ∀ part ∈ parts, ',' ∉ part.toList) :
    commaTokens (",".intercalate tokens) = parts := by
  rw [Text.commaTokens_intercalate, htokens]
  intro token htoken
  by_cases hempty : token = ""
  · subst hempty
    exact List.not_mem_nil
  · exact hparts token (htokens ▸ List.mem_filter.2 ⟨htoken, by simpa using hempty⟩)

/-! ## Arrays and maps of whole numbers -/

/-- Whole numbers as a stored array. -/
def storedArray (ns : List Int) : Json :=
  .array (ns.map fun n => .number (.int n))

/-- Entries with whole numbers as a stored object. -/
def storedMap (entries : List (String × Int)) : Json :=
  .object (entries.map fun entry => (entry.1, .number (.int entry.2)))

theorem encodings_array {e : Scalar} {ns : List Int}
    (fits : ∀ n ∈ ns, (ScalarValue.int n).HasScalar e) :
    Encodings (.composite .array e) (storedArray ns) (ns.map Text.intText)
      (.sequence (ns.map .int)) := by
  have hdecode : ∀ stored : Int → Json,
      (∀ n ∈ ns, decodeScalar e (stored n) = .ok (.int n)) →
      decodeItems e 0 (ns.map stored) = .ok (ns.map .int) := by
    intro stored hstored
    rw [decodeItems_eq_ok, List.forall₂_map_left_iff, List.forall₂_map_right_iff,
      List.forall₂_same]
    exact hstored
  refine .of_value (.array (List.forall_mem_map.2 fun n hn => exact_int (fits n hn)))
    (tight_array _) (List.forall_mem_map.2 fun n _ => intText_ne_empty n) ?_ ?_ ?_ ?_
  · simp only [decode, decodeArray, items, storedArray]
    exact Compiled.map_eq_ok.2
      ⟨_, hdecode _ fun n hn => decodeScalar_number (fits n hn), rfl⟩
  · show Expected.joined (storedArray ns) = _
    rw [storedArray, Expected.joined, Expected.joinedItems_eq, List.map_map]
    rfl
  · intro tokens htokens
    have hread : items (.string (",".intercalate tokens)) =
        .ok ((ns.map Text.intText).map .string) := by
      have hlast := last_of_filter htokens
        (List.forall_mem_map.2 fun n _ => isDigit_of_getLast?_intText)
      have hcut := commaTokens_of_filter htokens
        (List.forall_mem_map.2 fun n _ => comma_not_mem_intText n)
      simp only [items, hcut]
      -- the text is tried as JSON first
      split
      · next list hlist => exact absurd rfl ((ofText?_joined hlast hlist).1 list)
      · rfl
    simp only [decode, decodeArray, hread, List.map_map]
    exact Compiled.map_eq_ok.2
      ⟨_, hdecode _ fun n hn => decodeScalar_decimal (fits n hn), rfl⟩
  · intro s hs
    exact ⟨decode_arrayText hs, by simp only [Expected.text, hs, storedArray]⟩

theorem encodings_map {e : Scalar} {entries : List (String × Int)}
    (ordered : entries.Pairwise fun entry entry' => entry.1 < entry'.1)
    (separable : ∀ entry ∈ entries, ',' ∉ entry.1.toList ∧ ':' ∉ entry.1.toList)
    (fits : ∀ entry ∈ entries, (ScalarValue.int entry.2).HasScalar e) :
    Encodings (.composite .map e) (storedMap entries) (entries.map entryToken)
      (.entries (entries.map fun entry => (entry.1, .int entry.2))) := by
  have hdistinct : (entries.map (·.1)).Nodup :=
    List.pairwise_map.2 (ordered.imp fun {entry entry'} h (heq : entry.1 = entry'.1) =>
      String.lt_irrefl entry'.1 (heq ▸ h))
  have hdecode : ∀ stored : Int → Json,
      (∀ entry ∈ entries, decodeScalar e (stored entry.2) = .ok (.int entry.2)) →
      decodeEntries e [] (entries.map fun entry => (entry.1, stored entry.2)) =
        .ok (entries.map fun entry => (entry.1, .int entry.2)) := by
    intro stored hstored
    refine (decodeEntries_eq_ok ?_).2 ⟨_, ?_, rfl⟩
    · simpa [Function.comp_def] using hdistinct
    · rw [List.forall₂_map_left_iff, List.forall₂_map_right_iff, List.forall₂_same]
      exact fun entry hentry => ⟨rfl, hstored entry hentry⟩
  refine .of_value ?_ (tight_object _)
    (List.forall_mem_map.2 fun entry _ => entryToken_ne_empty entry) ?_ ?_ ?_ ?_
  · exact .object (List.pairwise_map.2 ordered)
      (List.forall_mem_map.2 fun entry hentry => exact_int (fits entry hentry))
  · simp only [decode, decodeMap, members, storedMap]
    exact Compiled.map_eq_ok.2 ⟨_, Compiled.bind_eq_ok.2 ⟨_, rfl, hdecode
      (fun n => .number (.int n)) fun entry hentry => decodeScalar_number (fits entry hentry)⟩, rfl⟩
  · show Expected.joined (storedMap entries) = _
    rw [storedMap, Expected.joined, Expected.joinedMembers_eq, List.map_map]
    rfl
  · intro tokens htokens
    have hread : members (.string (",".intercalate tokens)) =
        .ok (entries.map fun entry => (entry.1, .string (Text.intText entry.2))) := by
      have hlast := last_of_filter htokens
        (List.forall_mem_map.2 fun entry _ => isDigit_of_getLast?_entryToken entry)
      have hcut := commaTokens_of_filter htokens (List.forall_mem_map.2 fun entry hentry =>
        comma_not_mem_entryToken (separable entry hentry).1)
      simp only [members, hcut]
      -- the text is tried as JSON first
      split
      · next list hlist => exact absurd rfl ((ofText?_joined hlast hlist).2 list)
      · exact mapM_splitEntry fun entry hentry => (separable entry hentry).2
    simp only [decode, decodeMap, hread]
    exact Compiled.map_eq_ok.2 ⟨_, Compiled.bind_eq_ok.2 ⟨_, rfl, hdecode
      (fun n => .string (Text.intText n)) fun entry hentry =>
        decodeScalar_decimal (fits entry hentry)⟩, rfl⟩
  · intro s hs
    exact ⟨decode_objectText hs, by simp only [Expected.text, hs, storedMap]⟩

/-- **All forms of the same data agree.** Whole numbers that fit the element type are decoded to the
same literal from a JSON array or object, from its text with white space around it, and from their
decimals or entries joined by commas, with any number of empty tokens; and what is expected for the
first two is the third. Keys are in order, and without the separators of entries. Text joined by
commas is never taken for the text of an array or object. -/
theorem encodings_agree (e : Scalar) :
    (∀ ns : List Int, (∀ n ∈ ns, (ScalarValue.int n).HasScalar e) →
      Encodings (.composite .array e) (storedArray ns) (ns.map Text.intText)
        (.sequence (ns.map .int))) ∧
    ∀ entries : List (String × Int),
      (entries.Pairwise fun entry entry' => entry.1 < entry'.1) →
      (∀ entry ∈ entries, ',' ∉ entry.1.toList ∧ ':' ∉ entry.1.toList) →
      (∀ entry ∈ entries, (ScalarValue.int entry.2).HasScalar e) →
      Encodings (.composite .map e) (storedMap entries) (entries.map entryToken)
        (.entries (entries.map fun entry => (entry.1, .int entry.2))) :=
  ⟨fun _ fits => encodings_array fits,
    fun _ ordered separable fits => encodings_map ordered separable fits⟩

/-- Two long integers, and a map with two entries. -/
theorem encodings_agree_long :
    Encodings (.composite .array .long) (storedArray [3, -2]) ["3", "-2"]
      (.sequence [.int 3, .int (-2)]) ∧
    Encodings (.composite .map .long) (storedMap [("a", 1), ("b", -2)]) ["a:1", "b:-2"]
      (.entries [("a", .int 1), ("b", .int (-2))]) ∧
    decode (.composite .array .long) (.string ",3,,-2") = .ok (.sequence [.int 3, .int (-2)]) := by
  have hlong : ∀ n ∈ [3, -2, 1], (ScalarValue.int n).HasScalar .long := by
    intro n hn
    exact .long (by revert n; decide)
  have harray := (encodings_agree .long).1 [3, -2] fun n hn => hlong n (by simp at hn ⊢; tauto)
  have hmap := (encodings_agree .long).2 [("a", 1), ("b", -2)] (by decide) (by decide)
    fun entry h => hlong entry.2 (by simp at h ⊢; rcases h with rfl | rfl <;> decide)
  have hdecimals : [3, -2].map Text.intText = ["3", "-2"] := by decide +kernel
  have htokens : [("a", 1), ("b", -2)].map entryToken = ["a:1", "b:-2"] := by decide +kernel
  rw [hdecimals] at harray
  rw [htokens] at hmap
  exact ⟨harray, hmap, harray.tokens ["", "3", "", "-2"] rfl⟩

end Literal

end StructuredCall
