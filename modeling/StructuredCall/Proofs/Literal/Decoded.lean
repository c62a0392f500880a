import Mathlib.Data.List.Forall2
import StructuredCall.Error
import StructuredCall.Proofs.Literal.Distinct

/-!
# What decoding yields

A value that is decoded at a type is a literal of that type: its shape is the type's, its scalars
are of the declared kind and in range, the elements of a set differ and so do the keys of a map.

Main result: `Literal.hasType_of_decode`. The proof follows the functions that decode; for maps,
the invariant is about the entries that are there so far.
-/

namespace StructuredCall

/-! ## Element by element -/

theorem exists_forall₂_iff {α β : Type} {R : α → β → Prop} {xs : List α} :
    (∃ ys, List.Forall₂ R xs ys) ↔ ∀ x ∈ xs, ∃ y, R x y := by
  induction xs with
  | nil => simp
  | cons x xs ih =>
    rw [List.forall_mem_cons, ← ih]
    constructor
    · rintro ⟨_, h⟩
      cases h with
      | cons hx hxs => exact ⟨⟨_, hx⟩, ⟨_, hxs⟩⟩
    · rintro ⟨⟨y, hx⟩, ⟨ys, hxs⟩⟩
      exact ⟨y :: ys, .cons hx hxs⟩

theorem mapM_eq_ok {ε α β : Type} {f : α → Except ε β} {xs : List α} {ys : List β} :
    xs.mapM f = .ok ys ↔ List.Forall₂ (fun x y => f x = .ok y) xs ys := by
  induction xs generalizing ys with
  | nil =>
    rw [List.mapM_nil, List.forall₂_nil_left_iff]
    exact ⟨fun h => by cases h; rfl, fun h => by rw [h]; rfl⟩
  | cons x xs ih =>
    simp only [List.mapM_cons, Compiled.bind_eq_ok, ih, List.forall₂_cons_left_iff]
    constructor
    · rintro ⟨y, hy, ys, hys, ⟨⟩⟩
      exact ⟨y, ys, hy, hys, rfl⟩
    · rintro ⟨y, ys, hy, hys, rfl⟩
      exact ⟨y, hy, ys, hys, rfl⟩

/-! ## Types -/

namespace ScalarValue

/-- The value is one of a scalar type: whole numbers are in range, and reals are finite. -/
inductive HasScalar : ScalarValue → Scalar → Prop
  | integer {n : Int} (fits : Text.fitsSigned 32 n = true) : HasScalar (.int n) .integer
  | long {n : Int} (fits : Text.fitsSigned 64 n = true) : HasScalar (.int n) .long
  | float {x : Binary64} (finite : x.isFinite = true) : HasScalar (.real x) .float
  | double {x : Binary64} (finite : x.isFinite = true) : HasScalar (.real x) .double
  | boolean (b : Bool) : HasScalar (.bool b) .boolean
  | character (c : Char) : HasScalar (.char c) .character
  | string (s : String) : HasScalar (.text s) .string

end ScalarValue

namespace Literal

open ScalarValue (HasScalar)

/-- The literal is one of a type. -/
inductive HasType : Literal → DataType → Prop
  | scalar {value : ScalarValue} {s : Scalar} (typed : value.HasScalar s) :
    HasType (.scalar value) (.scalar s)
  | array {values : List ScalarValue} {e : Scalar} (typed : ∀ value ∈ values, value.HasScalar e) :
    HasType (.sequence values) (.composite .array e)
  | set {values : List ScalarValue} {e : Scalar} (typed : ∀ value ∈ values, value.HasScalar e)
    (distinct : values.Pairwise fun v w => v.sameValue w = false) :
    HasType (.sequence values) (.composite .set e)
  | map {entries : List (String × ScalarValue)} {e : Scalar}
    (typed : ∀ entry ∈ entries, entry.2.HasScalar e) (distinct : (entries.map (·.1)).Nodup) :
    HasType (.entries entries) (.composite .map e)

/-! ## Scalars -/

theorem fitsSigned_of_int? {value : Json} {n : Int} (h : int? value = some n) :
    Text.fitsSigned 64 n = true := by
  unfold int? at h
  split at h
  · split at h
    · cases h
      assumption
    · cases h
  · exact (Option.filter_eq_some_iff.1 h).2
  · cases h

theorem isFinite_of_real? {value : Json} {x : Binary64} (h : real? value = some x) :
    x.isFinite = true :=
  (Option.filter_eq_some_iff.1 h).2

theorem decodeInt_eq_ok {wide : Bool} {value : Json} {v : ScalarValue}
    (h : decodeInt wide value = .ok v) :
    ∃ n, v = .int n ∧ Text.fitsSigned 64 n = true ∧
      (wide = false → Text.fitsSigned 32 n = true) := by
  unfold decodeInt at h
  split at h
  · cases h
  · next n hn =>
    split at h
    · next hfits =>
      cases h
      exact ⟨n, rfl, fitsSigned_of_int? hn, by rintro rfl; simpa using hfits⟩
    · cases h

theorem decodeReal_eq_ok {value : Json} {v : ScalarValue} (h : decodeReal value = .ok v) :
    ∃ x, v = .real x ∧ x.isFinite = true := by
  unfold decodeReal at h
  split at h
  · cases h
  · next x hx =>
    cases h
    exact ⟨x, rfl, isFinite_of_real? hx⟩

theorem hasScalar_of_decodeScalar {s : Scalar} {value : Json} {v : ScalarValue}
    (h : decodeScalar s value = .ok v) : v.HasScalar s := by
  cases s with
  | integer =>
    obtain ⟨n, rfl, -, hfits⟩ := decodeInt_eq_ok h
    exact .integer (hfits rfl)
  | long =>
    obtain ⟨n, rfl, hfits, -⟩ := decodeInt_eq_ok h
    exact .long hfits
  | float =>
    obtain ⟨x, rfl, hfinite⟩ := decodeReal_eq_ok h
    exact .float hfinite
  | double =>
    obtain ⟨x, rfl, hfinite⟩ := decodeReal_eq_ok h
    exact .double hfinite
  | boolean =>
    simp only [decodeScalar, decodeBool] at h
    split at h <;> cases h
    exact .boolean _
  | character =>
    simp only [decodeScalar] at h
    unfold decodeChar at h
    split at h
    · split at h <;> cases h
      exact .character _
    · cases h
  | string =>
    simp only [decodeScalar] at h
    unfold decodeText at h
    split at h <;> cases h <;> exact .string _

/-! ## Elements -/

theorem hasScalar_of_decodeItems {e : Scalar} {index : Nat} {items : List Json}
    {values : List ScalarValue} (h : decodeItems e index items = .ok values) :
    ∀ value ∈ values, value.HasScalar e := by
  induction items generalizing index values with
  | nil =>
    cases h
    simp
  | cons item items ih =>
    unfold decodeItems at h
    split at h
    · cases h
    · next value hvalue =>
      obtain ⟨rest, hrest, rfl⟩ := Compiled.map_eq_ok.1 h
      exact List.forall_mem_cons.2 ⟨hasScalar_of_decodeScalar hvalue, ih hrest⟩

theorem hasScalar_of_decodeArray {e : Scalar} {value : Json} {values : List ScalarValue}
    (h : decodeArray e value = .ok values) : ∀ value ∈ values, value.HasScalar e := by
  obtain ⟨list, -, h⟩ := Compiled.bind_eq_ok.1 h
  exact hasScalar_of_decodeItems h

/-! ## Entries -/

/-- A token is a key and a text with a colon between them, its first one. -/
def EntryToken (token key text : String) : Prop :=
  token = key ++ ":" ++ text ∧ ':' ∉ key.toList

/-- A token with a colon is split, and only there. -/
theorem splitEntry_eq_ok {token key : String} {item : Json} : splitEntry token = .ok (key, item) ↔
    ∃ text, EntryToken token key text ∧ item = .string text := by
  have hall : ∀ c ∈ token.toList.takeWhile (· ≠ ':'), decide (c ≠ ':') = true :=
    List.all_eq_true.1 List.all_takeWhile
  constructor
  · intro h
    unfold splitEntry at h
    dsimp only at h
    split at h
    · cases h
    · next c text hdrop =>
      cases h
      -- what the key stops at is the first colon
      have hc : c = ':' := by
        have hhead := List.head?_dropWhile_not (· ≠ ':') token.toList
        rw [hdrop] at hhead
        simpa using hhead
      refine ⟨String.ofList text, ⟨?_, ?_⟩, rfl⟩
      · have htoken := List.takeWhile_append_dropWhile (p := (· ≠ ':')) (l := token.toList)
        rw [hdrop, hc] at htoken
        apply String.ext
        simpa using htoken.symm
      · rw [String.toList_ofList]
        exact fun hmem => of_decide_eq_true (hall ':' hmem) rfl
  · rintro ⟨text, ⟨rfl, hkey⟩, rfl⟩
    have htoken : (key ++ ":" ++ text).toList = key.toList ++ ':' :: text.toList := by simp
    have hkey : ∀ c ∈ key.toList, decide (c ≠ ':') = true :=
      fun c hc => decide_eq_true (ne_of_mem_of_not_mem hc hkey)
    rw [splitEntry, htoken, List.takeWhile_append_of_pos hkey, List.dropWhile_append_of_pos hkey]
    simp

theorem keys_setEntry (key : String) (value : ScalarValue)
    (entries : List (String × ScalarValue)) :
    (setEntry key value entries).map (·.1) =
      if key ∈ entries.map (·.1) then entries.map (·.1) else entries.map (·.1) ++ [key] := by
  induction entries with
  | nil => rfl
  | cons entry entries ih =>
    obtain ⟨k, v⟩ := entry
    by_cases hk : k = key
    · simp [setEntry, hk]
    · have hne : key ≠ k := Ne.symm hk
      simp only [setEntry, hk, if_false, List.map_cons, ih, List.mem_cons, hne, false_or]
      split <;> simp

theorem nodup_keys_setEntry {key : String} {value : ScalarValue}
    {entries : List (String × ScalarValue)} (h : (entries.map (·.1)).Nodup) :
    ((setEntry key value entries).map (·.1)).Nodup := by
  rw [keys_setEntry]
  split
  · exact h
  · next hnew =>
    refine List.nodup_append.2 ⟨h, by simp, ?_⟩
    rintro k hk _ hkey rfl
    rw [List.mem_singleton.1 hkey] at hk
    exact hnew hk

theorem mem_setEntry {key : String} {value : ScalarValue}
    {entries : List (String × ScalarValue)} {entry : String × ScalarValue}
    (h : entry ∈ setEntry key value entries) : entry ∈ entries ∨ entry.2 = value := by
  induction entries with
  | nil =>
    rw [List.mem_singleton.1 h]
    exact .inr rfl
  | cons first entries ih =>
    obtain ⟨k, v⟩ := first
    unfold setEntry at h
    split at h
    · rcases List.mem_cons.1 h with rfl | h
      · exact .inr rfl
      · exact .inl (List.mem_cons_of_mem _ h)
    · rcases List.mem_cons.1 h with rfl | h
      · exact .inl List.mem_cons_self
      · exact (ih h).imp_left (List.mem_cons_of_mem _)

/-- Entries of a map: the values are of the element type, and the keys differ. -/
structure Entries (e : Scalar) (entries : List (String × ScalarValue)) : Prop where
  typed : ∀ entry ∈ entries, entry.2.HasScalar e
  distinct : (entries.map (·.1)).Nodup

theorem entries_of_decodeEntries {e : Scalar} {members : List (String × Json)}
    {before after : List (String × ScalarValue)} (hbefore : Entries e before)
    (h : decodeEntries e before members = .ok after) : Entries e after := by
  induction members generalizing before with
  | nil =>
    cases h
    exact hbefore
  | cons member members ih =>
    obtain ⟨key, item⟩ := member
    unfold decodeEntries at h
    split at h
    · cases h
    · next value hvalue =>
      refine ih ⟨fun entry hmem => ?_, nodup_keys_setEntry hbefore.distinct⟩ h
      rcases mem_setEntry hmem with hmem | hentry
      · exact hbefore.typed entry hmem
      · rw [hentry]
        exact hasScalar_of_decodeScalar hvalue

theorem entries_of_decodeMap {e : Scalar} {value : Json} {entries : List (String × ScalarValue)}
    (h : decodeMap e value = .ok entries) : Entries e entries := by
  obtain ⟨list, -, h⟩ := Compiled.bind_eq_ok.1 h
  exact entries_of_decodeEntries ⟨by simp, by simp⟩ h

/-! ## What is decoded of a list -/

theorem decodeItems_eq_ok {e : Scalar} {index : Nat} {items : List Json}
    {values : List ScalarValue} : decodeItems e index items = .ok values ↔
      List.Forall₂ (fun item value => decodeScalar e item = .ok value) items values := by
  induction items generalizing index values with
  | nil =>
    rw [List.forall₂_nil_left_iff]
    exact ⟨fun h => by cases h; rfl, fun h => by rw [h]; rfl⟩
  | cons item items ih =>
    rw [decodeItems, List.forall₂_cons_left_iff]
    cases hvalue : decodeScalar e item with
    | error cause => simp
    | ok value =>
      simp only [Compiled.map_eq_ok, ih, Except.ok.injEq]
      constructor
      · rintro ⟨rest, hrest, rfl⟩
        exact ⟨value, rest, rfl, hrest, rfl⟩
      · rintro ⟨_, rest, rfl, hrest, rfl⟩
        exact ⟨rest, hrest, rfl⟩

/-- Entries that are set one after another. -/
def setEntries (before pairs : List (String × ScalarValue)) : List (String × ScalarValue) :=
  pairs.foldl (fun kept pair => setEntry pair.1 pair.2 kept) before

/-- Each entry has the key of its member, and the value that the member decodes to. -/
abbrev DecodeMembers (e : Scalar) (members : List (String × Json))
    (pairs : List (String × ScalarValue)) : Prop :=
  List.Forall₂ (fun member pair => pair.1 = member.1 ∧ decodeScalar e member.2 = .ok pair.2)
    members pairs

/-- Members are decoded one by one, and what they give is set in that order. -/
theorem decodeEntries_eq_setEntries {e : Scalar} {before after : List (String × ScalarValue)}
    {members : List (String × Json)} : decodeEntries e before members = .ok after ↔
      ∃ pairs, DecodeMembers e members pairs ∧ setEntries before pairs = after := by
  induction members generalizing before with
  | nil => simp [decodeEntries, setEntries, DecodeMembers]
  | cons member members ih =>
    obtain ⟨key, item⟩ := member
    simp only [decodeEntries, DecodeMembers, List.forall₂_cons_left_iff]
    cases hvalue : decodeScalar e item with
    | error cause => simp
    | ok value =>
      rw [ih]
      constructor
      · rintro ⟨pairs, hpairs, rfl⟩
        exact ⟨(key, value) :: pairs, ⟨_, pairs, ⟨rfl, rfl⟩, hpairs, rfl⟩, rfl⟩
      · rintro ⟨_, ⟨⟨k, v⟩, pairs, ⟨hk, hv⟩, hpairs, rfl⟩, rfl⟩
        cases hk
        cases hv
        exact ⟨pairs, hpairs, rfl⟩

theorem setEntry_of_new {key : String} {value : ScalarValue}
    {entries : List (String × ScalarValue)} (h : key ∉ entries.map (·.1)) :
    setEntry key value entries = entries ++ [(key, value)] := by
  induction entries with
  | nil => rfl
  | cons entry entries ih =>
    obtain ⟨k, v⟩ := entry
    rw [List.map_cons, List.mem_cons, not_or] at h
    rw [setEntry, if_neg (Ne.symm h.1), ih h.2, List.cons_append]

theorem setEntries_of_distinct {before pairs : List (String × ScalarValue)}
    (distinct : (before.map (·.1) ++ pairs.map (·.1)).Nodup) :
    setEntries before pairs = before ++ pairs := by
  induction pairs generalizing before with
  | nil => simp [setEntries]
  | cons pair pairs ih =>
    have hnew : pair.1 ∉ before.map (·.1) := fun hmem =>
      (List.nodup_append.1 distinct).2.2 pair.1 hmem pair.1 (by simp) rfl
    show setEntries (setEntry pair.1 pair.2 before) pairs = _
    rw [setEntry_of_new hnew, ih (by simpa using distinct)]
    simp

theorem keys_of_decodeMembers {e : Scalar} {members : List (String × Json)}
    {pairs : List (String × ScalarValue)} (h : DecodeMembers e members pairs) :
    pairs.map (·.1) = members.map (·.1) := by
  induction h with
  | nil => rfl
  | cons hpair _ ih => rw [List.map_cons, List.map_cons, hpair.1, ih]

theorem decodeEntries_eq_ok {e : Scalar} {before after : List (String × ScalarValue)}
    {members : List (String × Json)}
    (distinct : (before.map (·.1) ++ members.map (·.1)).Nodup) :
    decodeEntries e before members = .ok after ↔
      ∃ entries, List.Forall₂ (fun member entry => entry.1 = member.1 ∧
        decodeScalar e member.2 = .ok entry.2) members entries ∧ after = before ++ entries := by
  rw [decodeEntries_eq_setEntries]
  refine exists_congr fun pairs => and_congr_right fun hpairs => ?_
  rw [setEntries_of_distinct (keys_of_decodeMembers hpairs ▸ distinct)]
  exact eq_comm

/-! ## All types -/

/-- **A value that is decoded at a type is a literal of that type.** -/
theorem hasType_of_decode {type : DataType} {value : Json} {literal : Literal}
    (h : decode type value = .ok literal) : literal.HasType type := by
  cases type with
  | scalar s =>
    obtain ⟨v, hv, rfl⟩ := Compiled.map_eq_ok.1 h
    exact .scalar (hasScalar_of_decodeScalar hv)
  | composite c e =>
    cases c with
    | array =>
      obtain ⟨values, hvalues, rfl⟩ := Compiled.map_eq_ok.1 h
      exact .array (hasScalar_of_decodeArray hvalues)
    | set =>
      obtain ⟨values, hvalues, rfl⟩ := Compiled.map_eq_ok.1 h
      exact .set (fun v hv => hasScalar_of_decodeArray hvalues v (mem_of_mem_distinct hv))
        (pairwise_distinct values)
    | map =>
      obtain ⟨entries, hentries, rfl⟩ := Compiled.map_eq_ok.1 h
      obtain ⟨typed, distinct⟩ := entries_of_decodeMap hentries
      exact .map typed distinct

end Literal

end StructuredCall
