import StructuredCall.Proofs.Literal.Encodings
import StructuredCall.Proofs.Literal.Reading
import StructuredCall.Proofs.Literal.Repetition

/-!
# Expected outputs of sets

The expected text for a set has the elements as they are listed in the stored array: in the order
of the list, as often as they are in it, and spelled as they are there. Decoding makes the list a
set, but the expected text is not made from what is decoded. So two lists of one set have the same
expected text only if they are the same list, and the text is what a program prints for the set
only if the list repeats nothing.

Elements are told apart in the text if no comma is in them.

Main result: `Expected.text_of_listed_sets`.
-/

namespace StructuredCall

/-! ## Lists -/

/-- The value is an array of items, or the text of one. -/
inductive Json.Lists : Json → List Json → Prop
  | array (items : List Json) : Lists (.array items) items
  | text {s : String} {items : List Json}
    (reads : Json.ofText? (Text.trim s) = some (.array items)) : Lists (.string s) items

theorem Json.Lists.decodeArray {value : Json} {items : List Json} (h : value.Lists items)
    (e : Scalar) : Literal.decodeArray e value = Literal.decodeItems e 0 items := by
  cases h with
  | array => rfl
  | text reads =>
    simp only [Literal.decodeArray, Literal.items, reads]
    rfl

/-- Tokens without commas are determined by the text that joins them. -/
theorem Text.intercalate_comma {xs ys : List String} (hxs : ∀ x ∈ xs, ',' ∉ x.toList)
    (hys : ∀ y ∈ ys, ',' ∉ y.toList) (hempty : xs = [] ↔ ys = []) :
    ",".intercalate xs = ",".intercalate ys ↔ xs = ys := by
  refine ⟨fun h => ?_, fun h => by rw [h]⟩
  by_cases hnil : xs = []
  · rw [hnil, hempty.1 hnil]
  have hsplit : ∀ {tokens : List String}, (∀ token ∈ tokens, ',' ∉ token.toList) → tokens ≠ [] →
      (",".intercalate tokens).toList.splitOn ',' = tokens.map String.toList := by
    intro tokens htokens hne
    rw [String.toList_intercalate]
    exact List.splitOn_intercalate ',' (List.forall_mem_map.2 htokens) (by simpa using hne)
  have hlists : xs.map String.toList = ys.map String.toList := by
    rw [← hsplit hxs hnil, ← hsplit hys (fun hy => hnil (hempty.2 hy)), h]
  exact List.map_injective_iff.2 (fun _ _ => String.ext) hlists

/-- Values of an exact type are told apart by how they are printed. -/
theorem ScalarValue.eq_of_printed {e : Scalar} (he : e.IsExact) {v w : ScalarValue}
    (hv : v.HasScalar e) (hw : w.HasScalar e) (h : v.printed = w.printed) : v = w := by
  cases hv with
  | float => exact absurd rfl he.1
  | double => exact absurd rfl he.2
  | integer | long =>
    cases hw
    exact congrArg _ (Text.legible_intText.injective trivial trivial h)
  | boolean b =>
    cases hw with
    | boolean c =>
      revert b c
      decide
  | character | string =>
    cases hw
    simpa [printed] using h

theorem ScalarValue.map_printed {e : Scalar} (he : e.IsExact) {vs ws : List ScalarValue}
    (hvs : ∀ v ∈ vs, v.HasScalar e) (hws : ∀ w ∈ ws, w.HasScalar e) :
    vs.map (·.printed) = ws.map (·.printed) ↔ vs = ws := by
  refine ⟨fun h => ?_, fun h => by rw [h]⟩
  induction vs generalizing ws with
  | nil => exact (List.map_eq_nil_iff.1 h.symm).symm
  | cons v vs ih =>
    obtain ⟨w, ws, rfl, hvw, hrest⟩ := List.map_eq_cons_iff.1 h.symm
    obtain ⟨hv, hvs⟩ := List.forall_mem_cons.1 hvs
    obtain ⟨hw, hws⟩ := List.forall_mem_cons.1 hws
    rw [eq_of_printed he hv hw hvw.symm, ih hvs hws hrest.symm]

namespace Expected

/-! ## Expected texts -/

theorem text_of_lists {value : Json} {items : List Json} (h : value.Lists items) (c : Container)
    (e : Scalar) : text (.composite c e) value = ",".intercalate (items.map joined) := by
  cases h with
  | array => exact text_of_parts (.value rfl) c e
  | text reads => exact text_of_parts (.text reads rfl) c e

/-- A list that is decoded as a set is decoded as an array, element by element, and the set has its
first elements. -/
theorem exists_listed {e : Scalar} {value : Json} {items : List Json} {kept : List ScalarValue}
    (hlists : value.Lists items)
    (h : Literal.decode (.composite .set e) value = .ok (.sequence kept)) :
    ∃ values, Literal.decode (.composite .array e) value = .ok (.sequence values) ∧
      List.Forall₂ (fun item v => Literal.decodeScalar e item = .ok v) items values ∧
      (∀ v ∈ values, v.HasScalar e) ∧ kept = firsts ScalarValue.sameValue values := by
  obtain ⟨values, hvalues, hkept⟩ := Compiled.map_eq_ok.1 h
  have hdecoded := hvalues
  rw [hlists.decodeArray, Literal.decodeItems_eq_ok] at hdecoded
  refine ⟨values, by rw [Literal.decode, hvalues]; rfl, hdecoded,
    Literal.hasScalar_of_decodeArray hvalues, ?_⟩
  rw [← Literal.distinct_eq_firsts]
  exact (Literal.sequence.inj hkept).symm

section

variable {e : Scalar} {value other : Json} {items others : List Json}
  {kept kept' : List ScalarValue}

/-- Two lists of one set have the same text if their elements are spelled alike. -/
theorem text_eq_iff_spelled (hitems : value.Lists items) (hothers : other.Lists others)
    (hcomma : ∀ item ∈ items ++ others, ',' ∉ (joined item).toList)
    (hkept : Literal.decode (.composite .set e) value = .ok (.sequence kept))
    (hkept' : Literal.decode (.composite .set e) other = .ok (.sequence kept'))
    (hsame : ∀ v, v ∈ kept ↔ v ∈ kept') :
    text (.composite .set e) value = text (.composite .set e) other ↔
      items.map joined = others.map joined := by
  have hnil : ∀ {value : Json} {items : List Json} {kept : List ScalarValue}, value.Lists items →
      Literal.decode (.composite .set e) value = .ok (.sequence kept) →
      (items.map joined = [] ↔ kept = []) := by
    intro value items kept hitems hkept
    obtain ⟨values, -, hdecoded, -, hfirsts⟩ := exists_listed hitems hkept
    rw [hfirsts, firsts_eq_nil, List.map_eq_nil_iff, ← List.length_eq_zero_iff,
      hdecoded.length_eq, List.length_eq_zero_iff]
  obtain ⟨hcommas, hcommas'⟩ := List.forall_mem_append.1 hcomma
  rw [text_of_lists hitems, text_of_lists hothers]
  refine Text.intercalate_comma (List.forall_mem_map.2 hcommas) (List.forall_mem_map.2 hcommas') ?_
  rw [hnil hitems hkept, hnil hothers hkept']
  simp only [List.eq_nil_iff_forall_not_mem, hsame]

/-- The text of a list is the printed set if nothing is listed twice. -/
theorem text_eq_printed_iff (he : e.IsExact) (hitems : value.Lists items)
    (hcomma : ∀ item ∈ items, ',' ∉ (joined item).toList)
    (hnative : ∀ item ∈ items, item.NativeScalar e)
    (hkept : Literal.decode (.composite .set e) value = .ok (.sequence kept)) :
    text (.composite .set e) value = (Literal.sequence kept).printed ↔
      Literal.decode (.composite .array e) value = .ok (.sequence kept) := by
  obtain ⟨values, harray, hdecoded, htyped, hfirsts⟩ := exists_listed hitems hkept
  have hmem : ∀ v ∈ kept, v ∈ values := fun v hv => mem_of_mem_firsts (hfirsts ▸ hv)
  have hprinted := map_joined_eq hnative hdecoded
  have hvalues : ∀ token ∈ values.map (·.printed), ',' ∉ token.toList := by
    rw [← hprinted]
    exact List.forall_mem_map.2 hcomma
  have hfirst : ∀ token ∈ kept.map (·.printed), ',' ∉ token.toList :=
    List.forall_mem_map.2 fun v hv => hvalues _ (List.mem_map_of_mem (hmem v hv))
  have hempty : values.map (·.printed) = [] ↔ kept.map (·.printed) = [] := by
    rw [List.map_eq_nil_iff, List.map_eq_nil_iff, hfirsts, firsts_eq_nil]
  rw [text_of_lists hitems, hprinted, Literal.printed,
    Text.intercalate_comma hvalues hfirst hempty,
    ScalarValue.map_printed he htyped fun v hv => htyped v (hmem v hv), harray]
  simp

/-- **The expected text of a set follows the list.** Of two lists of one set, without commas in
their elements, the expected texts are the same exactly if the elements are spelled alike, one by
one. If the elements are given in JSON's own terms, this is so exactly if the lists are the same
array; and the text is what a program prints for the set that is decoded exactly if the list has
nothing twice. -/
theorem text_of_listed_sets (he : e.IsExact) (hitems : value.Lists items)
    (hothers : other.Lists others)
    (hcomma : ∀ item ∈ items ++ others, ',' ∉ (joined item).toList)
    (hkept : Literal.decode (.composite .set e) value = .ok (.sequence kept))
    (hkept' : Literal.decode (.composite .set e) other = .ok (.sequence kept'))
    (hsame : ∀ v, v ∈ kept ↔ v ∈ kept') :
    (text (.composite .set e) value = text (.composite .set e) other ↔
      items.map joined = others.map joined) ∧
    ((∀ item ∈ items ++ others, item.NativeScalar e) →
      (text (.composite .set e) value = text (.composite .set e) other ↔
        Literal.decode (.composite .array e) value =
          Literal.decode (.composite .array e) other) ∧
      (text (.composite .set e) value = (Literal.sequence kept).printed ↔
        Literal.decode (.composite .array e) value = .ok (.sequence kept))) := by
  have hspelled := text_eq_iff_spelled hitems hothers hcomma hkept hkept' hsame
  refine ⟨hspelled, fun hnative => ?_⟩
  obtain ⟨hnatives, hnatives'⟩ := List.forall_mem_append.1 hnative
  constructor
  · obtain ⟨values, harray, hdecoded, htyped, -⟩ := exists_listed hitems hkept
    obtain ⟨values', harray', hdecoded', htyped', -⟩ := exists_listed hothers hkept'
    rw [hspelled, map_joined_eq hnatives hdecoded, map_joined_eq hnatives' hdecoded',
      ScalarValue.map_printed he htyped htyped', harray, harray']
    simp
  · exact text_eq_printed_iff he hitems (List.forall_mem_append.1 hcomma).1 hnatives hkept

end

/-- The set of 1 and 2, listed in both orders. -/
theorem text_of_listed_sets_of_order :
    let value : Json := .array [.number (.int 2), .number (.int 1)]
    let other : Json := .array [.number (.int 1), .number (.int 2)]
    Literal.decode (.composite .set .integer) value = .ok (.sequence [.int 2, .int 1]) ∧
    Literal.decode (.composite .set .integer) other = .ok (.sequence [.int 1, .int 2]) ∧
    text (.composite .set .integer) value ≠ text (.composite .set .integer) other := by
  intro value other
  have hvalue : Literal.decode (.composite .set .integer) value =
      .ok (.sequence [.int 2, .int 1]) := by
    rfl
  have hother : Literal.decode (.composite .set .integer) other =
      .ok (.sequence [.int 1, .int 2]) := by
    rfl
  obtain ⟨hspelled, -⟩ := text_of_listed_sets (e := .integer) (by decide) (.array _) (.array _)
    (by decide +kernel) hvalue hother (by simp [or_comm])
  refine ⟨hvalue, hother, fun h => ?_⟩
  exact absurd (hspelled.1 h) (by decide +kernel)

/-- The set of 1 alone, listed once and twice. -/
theorem text_of_listed_sets_not_of_set :
    ¬ ∀ (e : Scalar) (items others : List Json) (kept kept' : List ScalarValue), e.IsExact →
      Literal.decode (.composite .set e) (.array items) = .ok (.sequence kept) →
      Literal.decode (.composite .set e) (.array others) = .ok (.sequence kept') →
      (∀ v, v ∈ kept ↔ v ∈ kept') →
      text (.composite .set e) (.array items) = text (.composite .set e) (.array others) := by
  intro h
  have htexts := h .integer [.number (.int 1), .number (.int 1)] [.number (.int 1)] [.int 1]
    [.int 1] (by decide) (by rfl) (by rfl) (fun _ => Iff.rfl)
  exact absurd htexts (by decide +kernel)

end Expected

end StructuredCall
