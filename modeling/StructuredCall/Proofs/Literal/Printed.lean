import StructuredCall.Literal.Expected
import StructuredCall.Proofs.Json.RoundTrip
import StructuredCall.Proofs.Literal.Decoded

/-!
# Expected outputs and decoded values

A stored value is looked at twice: it is decoded as a literal, and it is put into the form that a
program prints its result in. For values that are given in JSON's own terms (`Json.Native`) the two
agree: the expected text is what a program prints that has the decoded literal as its result.

Main result: `Expected.text_eq_printed`. The elements are looked at one by one on both sides; for
maps, decoding keeps the entries as they are because their keys differ.
-/

namespace StructuredCall

/-! ## Printing -/

/-- A value as programs print it. How a real is printed depends on the language; here it is
printed as in JSON. -/
def ScalarValue.printed : ScalarValue → String
  | .int n => Text.intText n
  | .real x => x.jsonText
  | .bool b => if b then "true" else "false"
  | .char c => String.ofList [c]
  | .text s => s

/-- A result as programs print it. -/
def Literal.printed : Literal → String
  | .scalar value => value.printed
  | .sequence values => ",".intercalate (values.map (·.printed))
  | .entries es => ",".intercalate (es.map fun entry => entry.1 ++ ":" ++ entry.2.printed)

/-! ## Values in JSON's own terms -/

/-- The value is given in JSON's own terms, not as text that has to be read. -/
inductive Json.NativeScalar : Scalar → Json → Prop
  | integer (n : Int) : NativeScalar .integer (.number (.int n))
  | long (n : Int) : NativeScalar .long (.number (.int n))
  | boolean (b : Bool) : NativeScalar .boolean (.bool b)
  | character (c : Char) : NativeScalar .character (.string (String.ofList [c]))
  | text (s : String) : NativeScalar .string (.string s)
  | textOfBool (b : Bool) : NativeScalar .string (.bool b)
  | textOfInt (n : Int) : NativeScalar .string (.number (.int n))

/-- The same for a value of a type; composites are arrays and objects. The keys of an object are
different. -/
inductive Json.Native : DataType → Json → Prop
  | scalar {s : Scalar} {value : Json} (native : NativeScalar s value) : Native (.scalar s) value
  | array {e : Scalar} {items : List Json} (native : ∀ item ∈ items, NativeScalar e item) :
    Native (.composite .array e) (.array items)
  | map {e : Scalar} {members : List (String × Json)}
    (native : ∀ member ∈ members, NativeScalar e member.2)
    (distinct : (members.map (·.1)).Nodup) : Native (.composite .map e) (.object members)

namespace Expected

theorem joinedItems_eq (items : List Json) : joinedItems items = items.map joined := by
  induction items with
  | nil => rfl
  | cons item items ih => rw [joinedItems, ih, List.map_cons]

theorem joinedMembers_eq (members : List (String × Json)) :
    joinedMembers members = members.map fun member => member.1 ++ ":" ++ joined member.2 := by
  induction members with
  | nil => rfl
  | cons member members ih => rw [joinedMembers, ih, List.map_cons]

/-! ## Parts -/

/-- The parts of an array or an object, as a program prints them. -/
def parts? : Json → Option (List String)
  | .array items => some (items.map joined)
  | .object members => some (members.map fun member => member.1 ++ ":" ++ joined member.2)
  | _ => none

/-- The value is an array or an object, or the text of one, with these parts. -/
inductive Parts : Json → List String → Prop
  | value {value : Json} {parts : List String} (split : parts? value = some parts) :
    Parts value parts
  | text {s : String} {value : Json} {parts : List String}
    (reads : Json.ofText? (Text.trim s) = some value) (split : parts? value = some parts) :
    Parts (.string s) parts

theorem text_of_parts {value : Json} {parts : List String} (h : Parts value parts) (c : Container)
    (e : Scalar) : text (.composite c e) value = ",".intercalate parts := by
  cases h with
  | value split =>
    cases value <;> cases split
    · rw [← joinedItems_eq]
      simp only [text, joined]
    · rw [← joinedMembers_eq]
      simp only [text, joined]
  | @text s value _ reads split =>
    cases value <;> cases split
    · simp only [text, reads, joined, joinedItems_eq]
    · simp only [text, reads, joined, joinedMembers_eq]

/-! ## Scalars -/

theorem eq_int_of_decodeInt {wide : Bool} {n : Int} {v : ScalarValue}
    (h : Literal.decodeInt wide (.number (.int n)) = .ok v) : v = .int n := by
  unfold Literal.decodeInt at h
  split at h
  · cases h
  · next m hm =>
    simp only [Literal.int?] at hm
    split_ifs at h hm
    cases hm
    cases h
    rfl

theorem joined_eq_printed {s : Scalar} {value : Json} {v : ScalarValue}
    (hnative : value.NativeScalar s) (h : Literal.decodeScalar s value = .ok v) :
    joined value = v.printed := by
  cases hnative with
  | integer n =>
    rw [eq_int_of_decodeInt h]
    rfl
  | long n =>
    rw [eq_int_of_decodeInt h]
    rfl
  | character c =>
    simp only [Literal.decodeScalar, Literal.decodeChar, String.toList_ofList] at h
    cases h
    rfl
  | boolean | text | textOfBool | textOfInt =>
    cases h
    rfl

/-- One character is not a string between quotes. -/
theorem ofText?_character (c : Char) (inner : String) :
    Json.ofText? (Text.trim (String.ofList [c])) ≠ some (.string inner) := by
  intro h
  cases hblank : Text.isBlank c with
  | true =>
    have htrim : Text.trim (String.ofList [c]) = "" := by
      simp [Text.trim, Text.trimChars, Text.dropEndWhile, hblank]
    rw [htrim] at h
    cases h
  | false =>
    have htrim : Text.trim (String.ofList [c]) = String.ofList [c] := by
      simp [Text.trim, Text.trimChars, Text.dropEndWhile, hblank]
    rw [htrim] at h
    have hlast : (String.ofList [c]).toList.getLast? = some c := by simp
    have hlength := (Json.end_of_ofText? hlast hblank h).2.2 inner rfl
    simp at hlength

theorem text_character (c : Char) :
    text (.scalar .character) (.string (String.ofList [c])) = String.ofList [c] := by
  simp only [text]
  split
  · next inner hinner => exact absurd hinner (ofText?_character c inner)
  · rfl

/-! ## Composites -/

theorem map_joined_eq {e : Scalar} {items : List Json} {values : List ScalarValue}
    (hnative : ∀ item ∈ items, item.NativeScalar e)
    (h : List.Forall₂ (fun item value => Literal.decodeScalar e item = .ok value) items values) :
    items.map joined = values.map (·.printed) := by
  induction h with
  | nil => rfl
  | cons hvalue _ ih =>
    obtain ⟨hitem, hitems⟩ := List.forall_mem_cons.1 hnative
    rw [List.map_cons, List.map_cons, joined_eq_printed hitem hvalue, ih hitems]

theorem map_joinedMember_eq {e : Scalar} {members : List (String × Json)}
    {entries : List (String × ScalarValue)}
    (hnative : ∀ member ∈ members, member.2.NativeScalar e)
    (h : List.Forall₂ (fun member entry => entry.1 = member.1 ∧
      Literal.decodeScalar e member.2 = .ok entry.2) members entries) :
    members.map (fun member => member.1 ++ ":" ++ joined member.2) =
      entries.map fun entry => entry.1 ++ ":" ++ entry.2.printed := by
  induction h with
  | nil => rfl
  | cons hentry _ ih =>
    obtain ⟨hmember, hmembers⟩ := List.forall_mem_cons.1 hnative
    rw [List.map_cons, List.map_cons, joined_eq_printed hmember hentry.2, hentry.1, ih hmembers]

/-! ## All types -/

/-- **The expected text is what a program prints.** For a stored value that is given in JSON's own
terms and decoded at a type, the expected text for a result of that type is the decoded literal as
programs print it. -/
theorem text_eq_printed {type : DataType} {value : Json} {literal : Literal}
    (hnative : value.Native type) (h : Literal.decode type value = .ok literal) :
    text type value = literal.printed := by
  cases hnative with
  | scalar native =>
    obtain ⟨v, hv, rfl⟩ := Compiled.map_eq_ok.1 h
    have hjoined := joined_eq_printed native hv
    rw [Literal.printed, ← hjoined]
    cases native with
    | character c => exact text_character c
    | _ => rfl
  | @array e items native =>
    obtain ⟨values, hvalues, rfl⟩ := Compiled.map_eq_ok.1 h
    have hdecoded := Literal.decodeItems_eq_ok.1 hvalues
    show joined (.array items) = _
    rw [joined, joinedItems_eq, map_joined_eq native hdecoded, Literal.printed]
  | @map e members native distinct =>
    obtain ⟨entries, hentries, rfl⟩ := Compiled.map_eq_ok.1 h
    obtain ⟨_, hdecoded, rfl⟩ := (Literal.decodeEntries_eq_ok (by simpa using distinct)).1 hentries
    show joined (.object members) = _
    rw [joined, joinedMembers_eq, map_joinedMember_eq native hdecoded]
    rfl

/-- A map of long integers. -/
theorem text_eq_printed_map :
    let value : Json := .object [("a", .number (.int (-3000000000))), ("b c", .number (.int 2))]
    let literal : Literal := .entries [("a", .int (-3000000000)), ("b c", .int 2)]
    value.Native (.composite .map .long) ∧
    Literal.decode (.composite .map .long) value = .ok literal ∧
    text (.composite .map .long) value = literal.printed ∧
    literal.printed = "a:-3000000000,b c:2" := by
  intro value literal
  have hnative : value.Native (.composite .map .long) :=
    .map (List.forall_mem_cons.2 ⟨.long _, List.forall_mem_singleton.2 (.long _)⟩) (by decide)
  have hdecode : Literal.decode (.composite .map .long) value = .ok literal := by rfl
  exact ⟨hnative, hdecode, text_eq_printed hnative hdecode, by decide +kernel⟩

end Expected

end StructuredCall
