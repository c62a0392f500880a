import StructuredCall.Proofs.Literal.Decoded
import StructuredCall.Proofs.Source

/-!
# Repeated elements and keys

An array has its elements as they are listed, and a set has each of them where it occurs first. A
map has each key where it occurs first, with the value that it has where it occurs last
(`LastWins`); a value that is replaced has been decoded, so it can still be wrong.

Entries are set one after another. One lemma says what setting one more entry does
(`LastWins.set`), and the pairs that are set determine the entries (`LastWins.unique`), so that
setting all of them is the same as `LastWins`.

Main result: `Literal.repetitions`.
-/

namespace StructuredCall

namespace Literal

/-! ## Last values -/

/-- Entries have the keys of pairs, each where it occurs first, with the value that the key has
where it occurs last. -/
structure LastWins (pairs entries : List (String × ScalarValue)) : Prop where
  keys : entries.map (·.1) = firsts (· == ·) (pairs.map (·.1))
  last : ∀ entry ∈ entries, ∃ before after,
    pairs = before ++ entry :: after ∧ entry.1 ∉ after.map (·.1)

/-- Among entries whose keys differ, the one with the key is replaced. -/
theorem mem_setEntry_of_distinct {key : String} {value : ScalarValue}
    {entries : List (String × ScalarValue)} (distinct : (entries.map (·.1)).Nodup)
    {entry : String × ScalarValue} (h : entry ∈ setEntry key value entries) :
    entry = (key, value) ∨ entry ∈ entries ∧ entry.1 ≠ key := by
  induction entries with
  | nil => exact .inl (List.mem_singleton.1 h)
  | cons first entries ih =>
    obtain ⟨k, v⟩ := first
    obtain ⟨hfirst, hrest⟩ := List.nodup_cons.1 distinct
    unfold setEntry at h
    split at h
    · next hk =>
      rcases List.mem_cons.1 h with rfl | h
      · exact .inl (by rw [hk])
      · have hkey : entry.1 ∈ entries.map (·.1) := List.mem_map_of_mem h
        exact .inr ⟨List.mem_cons_of_mem _ h, fun heq => hfirst (heq.trans hk.symm ▸ hkey)⟩
    · next hk =>
      rcases List.mem_cons.1 h with rfl | h
      · exact .inr ⟨List.mem_cons_self, hk⟩
      · exact (ih hrest h).imp_right (And.imp_left (List.mem_cons_of_mem _))

namespace LastWins

variable {pairs entries : List (String × ScalarValue)}

theorem distinct (h : LastWins pairs entries) : (entries.map (·.1)).Nodup := by
  rw [h.keys]
  exact (pairwise_firsts _).imp ne_of_beq_false

theorem set (h : LastWins pairs entries) (pair : String × ScalarValue) :
    LastWins (pairs ++ [pair]) (setEntry pair.1 pair.2 entries) where
  keys := by
    have hany := any_firsts (· == ·) (by simp_all) (pairs.map (·.1)) pair.1
    rw [keys_setEntry, List.map_append, List.map_singleton, firsts_concat, ← hany, h.keys]
    simp only [List.any_beq', List.contains_iff_mem]
  last := by
    intro entry hentry
    rcases mem_setEntry_of_distinct h.distinct hentry with rfl | ⟨hmem, hne⟩
    · exact ⟨pairs, [], rfl, by simp⟩
    · obtain ⟨before, after, rfl, hlast⟩ := h.last entry hmem
      exact ⟨before, after ++ [pair], by simp, by simpa [not_or] using ⟨by simpa using hlast, hne⟩⟩

/-- The value of a key is found from the end. -/
theorem lookup (h : LastWins pairs entries) {entry : String × ScalarValue}
    (hmem : entry ∈ entries) : pairs.reverse.lookup entry.1 = some entry.2 := by
  obtain ⟨before, after, rfl, hlast⟩ := h.last entry hmem
  refine List.lookup_eq_some_iff.2 ⟨after.reverse, before.reverse, by simp, fun p hp => ?_⟩
  rw [bne_iff_ne]
  rintro heq
  exact hlast (heq ▸ List.mem_map_of_mem (List.mem_reverse.1 hp))

theorem unique {other : List (String × ScalarValue)} (h : LastWins pairs entries)
    (hother : LastWins pairs other) : entries = other := by
  have hread : ∀ {es}, LastWins pairs es → (es.map (·.1)).filterMap
      (fun key => (pairs.reverse.lookup key).map (key, ·)) = es := by
    intro es hes
    rw [List.filterMap_map, List.filterMap_congr (g := some), List.filterMap_some]
    intro entry hmem
    rw [Function.comp_apply, hes.lookup hmem]
    rfl
  rw [← hread h, h.keys, ← hother.keys, hread hother]

end LastWins

theorem lastWins_setEntries (pairs : List (String × ScalarValue)) :
    LastWins pairs (setEntries [] pairs) := by
  induction pairs using List.reverseRecOn with
  | nil => exact ⟨rfl, by simp [setEntries]⟩
  | append_singleton pairs pair ih =>
    have hstep : setEntries [] (pairs ++ [pair]) = setEntry pair.1 pair.2 (setEntries [] pairs) :=
      List.foldl_append
    rw [hstep]
    exact ih.set pair

theorem setEntries_eq_iff {pairs entries : List (String × ScalarValue)} :
    setEntries [] pairs = entries ↔ LastWins pairs entries :=
  ⟨fun h => h ▸ lastWins_setEntries pairs, fun h => (lastWins_setEntries pairs).unique h⟩

/-! ## Entries joined by commas -/

/-- The tokens between the commas of a text, but for empty ones. -/
def tokens (s : String) : List String :=
  ((s.toList.splitOn ',').map String.ofList).filter (· ≠ "")

/-- A token gives an entry, the value being decoded from the text behind the first colon. -/
def EntryOf (e : Scalar) (token : String) (entry : String × ScalarValue) : Prop :=
  ∃ text, EntryToken token entry.1 text ∧ decodeScalar e (.string text) = .ok entry.2

theorem commaTokens_eq (s : String) : commaTokens s = tokens s := by
  rw [commaTokens, tokens, Text.pieces_eq_splitOn, List.filter_map]
  congr 1
  refine List.filter_congr fun piece _ => ?_
  simp [String.ofList_eq_empty_iff]

/-- Splitting all tokens and then decoding all values is decoding token by token. -/
theorem exists_members_iff {e : Scalar} {list : List String} {pairs : List (String × ScalarValue)} :
    (∃ members, list.mapM splitEntry = .ok members ∧ DecodeMembers e members pairs) ↔
      List.Forall₂ (EntryOf e) list pairs := by
  simp only [mapM_eq_ok, DecodeMembers]
  induction list generalizing pairs with
  | nil => simp
  | cons token list ih =>
    simp only [List.forall₂_cons_left_iff]
    constructor
    · rintro ⟨_, ⟨member, members, hsplit, hlist, rfl⟩, hpairs⟩
      cases hpairs with
      | @cons _ pair _ pairs hpair hpairs =>
        obtain ⟨text, htoken, hitem⟩ := splitEntry_eq_ok.1 hsplit
        exact ⟨pair, pairs, ⟨text, hpair.1 ▸ htoken, hitem ▸ hpair.2⟩,
          ih.1 ⟨members, hlist, hpairs⟩, rfl⟩
    · rintro ⟨pair, pairs, ⟨text, htoken, hvalue⟩, hpairs, rfl⟩
      obtain ⟨members, hlist, hmembers⟩ := ih.2 hpairs
      exact ⟨_, ⟨_, members, splitEntry_eq_ok.2 ⟨text, htoken, rfl⟩, hlist, rfl⟩,
        .cons ⟨rfl, hvalue⟩ hmembers⟩

theorem decodeMap_text {e : Scalar} {s : String} {entries : List (String × ScalarValue)}
    (h : ∀ members, Json.ofText? (Text.trim s) ≠ some (.object members)) :
    decodeMap e (.string s) = .ok entries ↔
      ∃ pairs, List.Forall₂ (EntryOf e) (tokens s) pairs ∧ LastWins pairs entries := by
  have hmembers : members (.string s) = (tokens s).mapM splitEntry := by
    unfold members
    dsimp only
    split
    · next found hfound => exact absurd hfound (h found)
    · rw [commaTokens_eq]
  simp only [decodeMap, Compiled.bind_eq_ok, hmembers, decodeEntries_eq_setEntries,
    setEntries_eq_iff, ← exists_members_iff]
  constructor
  · rintro ⟨members, hsplit, pairs, hpairs, hlast⟩
    exact ⟨pairs, ⟨members, hsplit, hpairs⟩, hlast⟩
  · rintro ⟨pairs, ⟨members, hsplit, hpairs⟩, hlast⟩
    exact ⟨members, hsplit, pairs, hpairs, hlast⟩

/-- A token gives no entry if it has no colon or if its value does not decode. -/
theorem not_entryOf_iff {e : Scalar} {token : String} : (¬ ∃ entry, EntryOf e token entry) ↔
    ':' ∉ token.toList ∨ ∃ key text error, EntryToken token key text ∧
      decodeScalar e (.string text) = .error error := by
  constructor
  · intro hnone
    refine or_iff_not_imp_left.2 fun hcolon => ?_
    obtain ⟨key, text, htoken, hkey⟩ := List.eq_append_cons_of_mem (not_not.1 hcolon)
    have hentry : EntryToken token (String.ofList key) (String.ofList text) :=
      ⟨by apply String.ext; simpa using htoken, by simpa using hkey⟩
    cases hvalue : decodeScalar e (.string (String.ofList text)) with
    | error error => exact ⟨_, _, error, hentry, hvalue⟩
    | ok value => exact absurd ⟨(String.ofList key, value), _, hentry, hvalue⟩ hnone
  · rintro (hcolon | ⟨key, text, error, hentry, hvalue⟩) ⟨entry, text', hentry', hvalue'⟩
    · refine hcolon ?_
      rw [hentry'.1]
      simp
    · -- the two splits are the one that the reader makes
      have hsplit := splitEntry_eq_ok.2 ⟨text, hentry, rfl⟩
      rw [splitEntry_eq_ok.2 ⟨text', hentry', rfl⟩] at hsplit
      cases hsplit
      rw [hvalue] at hvalue'
      cases hvalue'

/-! ## Sets and maps -/

theorem exists_error_iff {ε α : Type} {x : Except ε α} :
    (∃ error, x = .error error) ↔ ¬ ∃ a, x = .ok a := by
  cases x <;> simp

/-- **Sets and maps with repetitions.** A value fails to decode as a set exactly if it fails as an
array, with the same error; otherwise the set has the elements of the array that are not the same
as an earlier one, in their order. Text joined by commas fails to decode as a map exactly if a
token lacks a colon or has a value that does not decode; otherwise the map has the keys of the
tokens in the order of their first occurrences, each with its last value. -/
theorem repetitions (e : Scalar) :
    (∀ value,
      (∀ error, decode (.composite .set e) value = .error error ↔
        decode (.composite .array e) value = .error error) ∧
      ∀ literal, decode (.composite .set e) value = .ok literal ↔
        ∃ values, decode (.composite .array e) value = .ok (.sequence values) ∧
          literal = .sequence (firsts ScalarValue.sameValue values)) ∧
    ∀ s, (∀ members, Json.ofText? (Text.trim s) ≠ some (.object members)) →
      ((∃ error, decode (.composite .map e) (.string s) = .error error) ↔
        ∃ token ∈ tokens s, ':' ∉ token.toList ∨ ∃ key text error, EntryToken token key text ∧
          decodeScalar e (.string text) = .error error) ∧
      ∀ literal, decode (.composite .map e) (.string s) = .ok literal ↔
        ∃ pairs entries, List.Forall₂ (EntryOf e) (tokens s) pairs ∧ LastWins pairs entries ∧
          literal = .entries entries := by
  refine ⟨fun value => ?_, fun s hs => ?_⟩
  · cases hvalues : decodeArray e value with
    | error error => simp [decode, hvalues, Except.map]
    | ok values => simp [decode, hvalues, Except.map, distinct_eq_firsts, eq_comm]
  · have hdecode : ∀ literal, decode (.composite .map e) (.string s) = .ok literal ↔
        ∃ pairs entries, List.Forall₂ (EntryOf e) (tokens s) pairs ∧ LastWins pairs entries ∧
          literal = .entries entries := by
      intro literal
      simp only [decode, Compiled.map_eq_ok, decodeMap_text hs]
      constructor
      · rintro ⟨entries, ⟨pairs, hpairs, hlast⟩, rfl⟩
        exact ⟨pairs, entries, hpairs, hlast, rfl⟩
      · rintro ⟨pairs, entries, hpairs, hlast, rfl⟩
        exact ⟨entries, ⟨pairs, hpairs, hlast⟩, rfl⟩
    refine ⟨?_, hdecode⟩
    have hsome : (∃ literal, decode (.composite .map e) (.string s) = .ok literal) ↔
        ∀ token ∈ tokens s, ∃ entry, EntryOf e token entry := by
      rw [← exists_forall₂_iff]
      constructor
      · rintro ⟨literal, hliteral⟩
        obtain ⟨pairs, -, hpairs, -⟩ := (hdecode literal).1 hliteral
        exact ⟨pairs, hpairs⟩
      · rintro ⟨pairs, hpairs⟩
        exact ⟨_, (hdecode _).2 ⟨pairs, _, hpairs, lastWins_setEntries pairs, rfl⟩⟩
    rw [exists_error_iff, hsome]
    push Not
    exact exists_congr fun token => and_congr_right fun _ => by
      rw [← not_entryOf_iff]
      push Not
      rfl

/-- The key `a` occurs twice, and its last value has a colon. In the set, `b` occurs twice. -/
theorem repetitions_of_twice :
    let s := "a:1,b:,,a:3:4"
    let entries : List (String × ScalarValue) := [("a", .text "3:4"), ("b", .text "")]
    (∀ members, Json.ofText? (Text.trim s) ≠ some (.object members)) ∧
    decode (.composite .map .string) (.string s) = .ok (.entries entries) ∧
    decode (.composite .set .string) (.string "b,a,b") =
      .ok (.sequence [.text "b", .text "a"]) := by
  intro s entries
  have hnone : Json.ofText? (Text.trim s) = none := by decide +kernel
  have hs : ∀ members, Json.ofText? (Text.trim s) ≠ some (.object members) := by simp [hnone]
  have htokens : tokens s = ["a:1", "b:", "a:3:4"] := by decide +kernel
  have hpairs : List.Forall₂ (EntryOf .string) (tokens s)
      [("a", .text "1"), ("b", .text ""), ("a", .text "3:4")] := by
    rw [htokens]
    exact .cons ⟨"1", ⟨by decide, by decide⟩, rfl⟩ (.cons ⟨"", ⟨by decide, by decide⟩, rfl⟩
      (.cons ⟨"3:4", ⟨by decide, by decide⟩, rfl⟩ .nil))
  have hlast : LastWins [("a", .text "1"), ("b", .text ""), ("a", .text "3:4")] entries :=
    lastWins_setEntries _
  have harray : decode (.composite .array .string) (.string "b,a,b") =
      .ok (.sequence [.text "b", .text "a", .text "b"]) := by rfl
  have hfirsts : firsts ScalarValue.sameValue [.text "b", .text "a", .text "b"] =
      [.text "b", .text "a"] := by
    decide
  obtain ⟨hset, hmap⟩ := repetitions .string
  exact ⟨hs, ((hmap s hs).2 _).2 ⟨_, entries, hpairs, hlast, rfl⟩,
    ((hset _).2 _).2 ⟨_, harray, by rw [hfirsts]⟩⟩

end Literal

end StructuredCall
