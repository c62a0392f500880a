import StructuredCall.Proofs.Acceptance

/-!
# Signatures by the texts of their lines

What a source describes depends on the texts of its lines and not on where the lines stand. So
two sources are compared by their texts (`Signature.ofSource_iff_ofTexts`), and texts that are
joined to a source describe what they describe as lines (`Signature.ofSource_intercalate`).
-/

namespace StructuredCall

/-! ## Clauses -/

theorem Line.forall₂_says_iff {lines : List Line} {clauses : List Clause} :
    List.Forall₂ Line.Says lines clauses ↔
      List.Forall₂ Clause.Reads (lines.map (·.content)) clauses := by
  have hsays : Line.Says = fun line clause => Clause.Reads line.content clause := by
    funext line clause
    exact propext Line.says_iff
  rw [List.forall₂_map_left_iff, hsays]

/-- Texts read as clauses, without those that are ignored. -/
def Clause.ReadsAll (texts : List String) (clauses : List Clause) : Prop :=
  List.Forall₂ Clause.Reads (texts.filter (!Source.isIgnored ·)) clauses

namespace Clause.ReadsAll

variable {texts texts' : List String} {text : String} {clauses clauses' : List Clause}

theorem append (h : ReadsAll texts clauses) (h' : ReadsAll texts' clauses') :
    ReadsAll (texts ++ texts') (clauses ++ clauses') := by
  rw [ReadsAll, List.filter_append]
  exact List.rel_append h h'

theorem of_append (h : ReadsAll (texts ++ texts') clauses) :
    ∃ before after, clauses = before ++ after ∧ ReadsAll texts before ∧ ReadsAll texts' after := by
  rw [ReadsAll, List.filter_append] at h
  refine ⟨clauses.take (texts.filter (!Source.isIgnored ·)).length,
    clauses.drop (texts.filter (!Source.isIgnored ·)).length, by simp, ?_, ?_⟩
  · simpa [ReadsAll] using List.forall₂_take (texts.filter (!Source.isIgnored ·)).length h
  · simpa [ReadsAll] using List.forall₂_drop (texts.filter (!Source.isIgnored ·)).length h

theorem cons {clause : Clause} (hread : Clause.Reads text clause) (h : ReadsAll texts clauses) :
    ReadsAll (text :: texts) (clause :: clauses) := by
  rw [ReadsAll, List.filter_cons_of_pos (by simp [hread.isIgnored_eq_false])]
  exact .cons hread h

theorem of_cons (hkept : Source.isIgnored text = false) (h : ReadsAll (text :: texts) clauses) :
    ∃ clause rest, clauses = clause :: rest ∧ Clause.Reads text clause ∧ ReadsAll texts rest := by
  rw [ReadsAll, List.filter_cons_of_pos (by simp [hkept])] at h
  cases h with
  | cons hread hrest => exact ⟨_, _, rfl, hread, hrest⟩

theorem exists_clause (h : ReadsAll texts clauses) (hmem : text ∈ texts)
    (hkept : Source.isIgnored text = false) : ∃ clause ∈ clauses, Clause.Reads text clause := by
  obtain ⟨before, after, rfl⟩ := List.append_of_mem hmem
  obtain ⟨_, _, rfl, -, hafter⟩ := h.of_append
  obtain ⟨clause, rest, rfl, hread, -⟩ := hafter.of_cons hkept
  exact ⟨clause, by simp, hread⟩

end Clause.ReadsAll

/-! ## Signatures -/

/-- Lines with these texts describe a signature. -/
def Signature.OfTexts (texts : List String) (signature : Signature) : Prop :=
  ∃ clauses, Clause.ReadsAll texts clauses ∧ ({} : Draft).Completes clauses signature

/-- Only the texts of the significant lines count. -/
theorem Signature.ofSource_iff_reads {source : String} {signature : Signature} :
    Signature.ofSource source = .ok signature ↔
      ∃ clauses,
        List.Forall₂ Clause.Reads ((Source.significant source).map (·.content)) clauses ∧
        ({} : Draft).Completes clauses signature := by
  simp only [ofSource_iff_completes, Line.forall₂_says_iff]

theorem Signature.ofSource_iff_ofTexts {source : String} {signature : Signature} :
    Signature.ofSource source = .ok signature ↔ OfTexts (Source.texts source) signature := by
  rw [ofSource_iff_reads, Source.texts_significant]
  rfl

/-- Joined texts describe what they describe as lines. -/
theorem Signature.ofSource_intercalate {texts : List String} (hne : texts ≠ [])
    (h : ∀ text ∈ texts, Text.OneLine text) {signature : Signature} :
    Signature.ofSource ("\n".intercalate texts) = .ok signature ↔ OfTexts texts signature := by
  have hignored : (fun text => !Source.isIgnored text) ∘ Source.withoutReturn =
      fun text => !Source.isIgnored text := by
    funext text
    simp [Source.isIgnored_withoutReturn]
  rw [ofSource_iff_ofTexts, Source.texts_intercalate hne h]
  simp only [OfTexts, Clause.ReadsAll, List.filter_map, hignored, List.forall₂_map_left_iff,
    Clause.reads_withoutReturn]

end StructuredCall
