import Mathlib.Data.List.Induction
import StructuredCall.Literal.Decode

/-!
# First occurrences

A set has each of its elements where it occurs first in the list that is decoded. The elements are
kept by going through the list from its front and looking at what is kept so far; here it is said
without that (`firsts`), by looking at the list itself. The two are the same because elements that
are the same as one element are the same as each other (`any_firsts`).

The list grows at its end, so one lemma says what one more element changes (`firsts_concat`), and
induction over the end gives the rest.

Main result: `Literal.distinct_eq_firsts`.
-/

namespace StructuredCall

section Firsts

variable {α : Type} {same : α → α → Bool}

/-- The elements that are not the same as an earlier one. -/
def firsts (same : α → α → Bool) (xs : List α) : List α :=
  (xs.zipIdx.filter fun (x, i) => !(xs.take i).any (same · x)).map (·.1)

theorem firsts_concat (xs : List α) (x : α) : firsts same (xs ++ [x]) =
    if xs.any (same · x) then firsts same xs else firsts same xs ++ [x] := by
  have hbefore : (xs.zipIdx.filter fun (y, i) => !((xs ++ [x]).take i).any (same · y)) =
      xs.zipIdx.filter fun (y, i) => !(xs.take i).any (same · y) := by
    refine List.filter_congr fun (y, i) hmem => ?_
    have hlength : i ≤ xs.length := Nat.le_of_lt (by simpa using (List.mem_zipIdx hmem).2.1)
    simp only [List.take_append_of_le_length hlength]
  rw [firsts, List.zipIdx_append, List.filter_append, hbefore, List.map_append]
  cases hany : xs.any (same · x) <;> simp [firsts, hany]

theorem firsts_subset_concat (xs : List α) (x : α) : firsts same xs ⊆ firsts same (xs ++ [x]) := by
  rw [firsts_concat]
  split
  · exact List.Subset.refl _
  · exact List.subset_append_left _ _

theorem mem_of_mem_firsts {xs : List α} {x : α} (h : x ∈ firsts same xs) : x ∈ xs := by
  obtain ⟨⟨y, i⟩, hmem, rfl⟩ := List.mem_map.1 h
  exact List.fst_mem_of_mem_zipIdx (List.mem_filter.1 hmem).1

theorem firsts_eq_nil {xs : List α} : firsts same xs = [] ↔ xs = [] := by
  induction xs using List.reverseRecOn with
  | nil => simp [firsts]
  | append_singleton xs x ih =>
    rw [firsts_concat]
    split
    · next hany =>
      have hne : xs ≠ [] := by
        rintro rfl
        cases hany
      simp [ih, hne]
    · simp

theorem pairwise_firsts (xs : List α) : (firsts same xs).Pairwise fun x y => same x y = false := by
  induction xs using List.reverseRecOn with
  | nil => exact .nil
  | append_singleton xs x ih =>
    rw [firsts_concat]
    split
    · exact ih
    · next hnew =>
      have hnew : ∀ y ∈ xs, same y x = false := by simpa using hnew
      refine List.pairwise_append.2 ⟨ih, List.pairwise_singleton _ _, ?_⟩
      simpa using fun y hy => hnew y (mem_of_mem_firsts hy)

theorem any_firsts (same : α → α → Bool)
    (trans : ∀ {x y z}, same x y = true → same y z = true → same x z = true) (xs : List α)
    (z : α) : (firsts same xs).any (same · z) = xs.any (same · z) := by
  induction xs using List.reverseRecOn with
  | nil => rfl
  | append_singleton xs y ih =>
    rw [firsts_concat, List.any_append, ← ih]
    split
    · next hany =>
      -- an earlier element is the same as `y`, and so it is the same as what `y` is
      cases hyz : same y z with
      | false => simp [hyz]
      | true =>
        obtain ⟨x, hx, hxy⟩ := List.any_eq_true.1 hany
        have hxz : xs.any (same · z) = true := List.any_eq_true.2 ⟨x, hx, trans hxy hyz⟩
        simp [ih, hxz]
    · rw [List.any_append]

theorem covered_firsts (same : α → α → Bool)
    (trans : ∀ {x y z}, same x y = true → same y z = true → same x z = true) {xs : List α} {x : α}
    (h : x ∈ xs) : x ∈ firsts same xs ∨ ∃ y ∈ firsts same xs, same y x = true := by
  induction xs using List.reverseRecOn with
  | nil => cases h
  | append_singleton xs y ih =>
    have hsubset : firsts same xs ⊆ firsts same (xs ++ [y]) := firsts_subset_concat xs y
    rcases List.mem_append.1 h with h | h
    · exact (ih h).imp (fun hmem => hsubset hmem) fun ⟨w, hmem, hsame⟩ => ⟨w, hsubset hmem, hsame⟩
    · rw [List.mem_singleton.1 h]
      cases hany : xs.any (same · y) with
      | false => exact .inl (by simp [firsts_concat, hany])
      | true =>
        rw [← any_firsts same trans, List.any_eq_true] at hany
        obtain ⟨w, hmem, hsame⟩ := hany
        exact .inr ⟨w, hsubset hmem, hsame⟩

end Firsts

/-! ## Elements of sets -/

theorem Binary64.sameValue_trans {x y z : Binary64} (hxy : x.sameValue y = true)
    (hyz : y.sameValue z = true) : x.sameValue z = true := by
  cases x <;> cases y <;> cases z <;> simp_all [Binary64.sameValue]
  grind

theorem ScalarValue.sameValue_trans {u v w : ScalarValue} (huv : u.sameValue v = true)
    (hvw : v.sameValue w = true) : u.sameValue w = true := by
  cases u <;> cases v <;> cases w <;> simp_all [ScalarValue.sameValue]
  exact Binary64.sameValue_trans huv hvw

namespace Literal

/-- **A set has the first of its listed elements.** -/
theorem distinct_eq_firsts (values : List ScalarValue) :
    distinct values = firsts ScalarValue.sameValue values := by
  induction values using List.reverseRecOn with
  | nil => rfl
  | append_singleton values value ih =>
    have hany : (firsts ScalarValue.sameValue values).any (·.sameValue value) =
        values.any (·.sameValue value) :=
      any_firsts ScalarValue.sameValue ScalarValue.sameValue_trans values value
    rw [distinct, List.foldl_append, ← distinct, ih, List.foldl_cons, List.foldl_nil, hany,
      firsts_concat]

theorem pairwise_distinct (values : List ScalarValue) :
    (distinct values).Pairwise fun v w => v.sameValue w = false :=
  distinct_eq_firsts values ▸ pairwise_firsts values

theorem mem_of_mem_distinct {values : List ScalarValue} {v : ScalarValue}
    (h : v ∈ distinct values) : v ∈ values :=
  mem_of_mem_firsts (distinct_eq_firsts values ▸ h)

theorem covered_distinct {values : List ScalarValue} {v : ScalarValue} (h : v ∈ values) :
    v ∈ distinct values ∨ ∃ w ∈ distinct values, w.sameValue v = true := by
  rw [distinct_eq_firsts]
  exact covered_firsts ScalarValue.sameValue ScalarValue.sameValue_trans h

end Literal

end StructuredCall
