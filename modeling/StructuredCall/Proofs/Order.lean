import Mathlib.Data.List.Perm.Basic
import StructuredCall.Proofs.Texts

/-!
# The order of declarations

Whether a source is a signature does not depend on the order of its significant lines, and the
result does not either. The inputs follow the lines.

The scope claims names one at a time, so two lines in conflict are refused by different checks
in different orders. `Draft.Completes` says what the checks come to for all lines together: the
claimed names are distinct. This is a statement about a list up to its order.
-/

namespace StructuredCall

namespace Clause

theorem inputs_perm {clauses others : List Clause} (h : clauses.Perm others) :
    (inputs clauses).Perm (inputs others) :=
  h.filterMap _

theorem results_perm {clauses others : List Clause} (h : clauses.Perm others) :
    (results clauses).Perm (results others) :=
  h.filterMap _

end Clause

/-- Clauses in another order complete an empty draft with their inputs in the other order. -/
theorem Draft.Completes.perm {clauses others : List Clause} {signature : Signature}
    (hcompletes : ({} : Draft).Completes clauses signature) (h : clauses.Perm others) :
    ({} : Draft).Completes others ⟨Clause.inputs others, signature.returns⟩ := by
  have hinputs := Clause.inputs_perm h
  refine ⟨rfl, ?_, fun input hinput => ?_, ?_⟩
  · have hreturns : Clause.results clauses = [signature.returns] := hcompletes.returns
    have hperm := Clause.results_perm h
    rw [hreturns] at hperm
    exact (List.singleton_perm.1 hperm).symm
  · exact hcompletes.admissible input (hinputs.mem_iff.2 hinput)
  · have hdistinct : ((Clause.inputs clauses).flatMap Parameter.claims).Nodup :=
      hcompletes.distinct
    exact (hinputs.flatMap_right Parameter.claims).nodup_iff.1 hdistinct

theorem Clause.reads_perm {texts others : List String} {clauses : List Clause}
    (h : texts.Perm others) (hreads : List.Forall₂ Clause.Reads texts clauses) :
    ∃ reordered, List.Forall₂ Clause.Reads others reordered ∧ clauses.Perm reordered := by
  obtain ⟨reordered, hothers, hperm⟩ := List.perm_comp_forall₂ h.symm hreads
  exact ⟨reordered, hothers, hperm.symm⟩

namespace Signature

/-- A source whose lines stand in another order is a signature with the inputs in the other
order. -/
theorem ofSource_of_perm {first second : String} {signature : Signature}
    (h : ((Source.significant first).map (·.content)).Perm
      ((Source.significant second).map (·.content)))
    (hfirst : ofSource first = .ok signature) :
    ∃ clauses others, List.Forall₂ Line.Says (Source.significant first) clauses ∧
      List.Forall₂ Line.Says (Source.significant second) others ∧ clauses.Perm others ∧
      Clause.inputs clauses = signature.inputs ∧
      ofSource second = .ok ⟨Clause.inputs others, signature.returns⟩ := by
  obtain ⟨clauses, hreads, hcompletes⟩ := ofSource_iff_reads.1 hfirst
  obtain ⟨others, hothers, hperm⟩ := Clause.reads_perm h hreads
  exact ⟨clauses, others, Line.forall₂_says_iff.2 hreads, Line.forall₂_says_iff.2 hothers, hperm,
    hcompletes.inputs, ofSource_iff_reads.2 ⟨others, hothers, hcompletes.perm hperm⟩⟩

/-- **The order of the declarations does not decide.** Of two sources with the same significant
lines in any order, both are signatures or none is. Then the results agree, and each source
has the inputs in the order of its lines. -/
theorem declarations_in_any_order {first second : String}
    (h : ((Source.significant first).map (·.content)).Perm
      ((Source.significant second).map (·.content))) :
    ((∃ signature, ofSource first = .ok signature) ↔
      ∃ signature, ofSource second = .ok signature) ∧
    ∀ signature other, ofSource first = .ok signature → ofSource second = .ok other →
      signature.returns = other.returns ∧ signature.inputs.Perm other.inputs ∧
      ∃ clauses others : List Clause,
        List.Forall₂ Line.Says (Source.significant first) clauses ∧
        List.Forall₂ Line.Says (Source.significant second) others ∧ clauses.Perm others ∧
        Clause.inputs clauses = signature.inputs ∧ Clause.inputs others = other.inputs := by
  refine ⟨⟨?_, ?_⟩, fun signature other hfirst hsecond => ?_⟩
  · rintro ⟨signature, hfirst⟩
    obtain ⟨_, _, _, _, _, _, hsecond⟩ := ofSource_of_perm h hfirst
    exact ⟨_, hsecond⟩
  · rintro ⟨signature, hsecond⟩
    obtain ⟨_, _, _, _, _, _, hfirst⟩ := ofSource_of_perm h.symm hsecond
    exact ⟨_, hfirst⟩
  · obtain ⟨clauses, others, hclauses, hothers, hperm, hinputs, hreordered⟩ :=
      ofSource_of_perm h hfirst
    rw [hsecond] at hreordered
    cases hreordered
    exact ⟨rfl, hinputs ▸ Clause.inputs_perm hperm, clauses, others, hclauses, hothers, hperm,
      hinputs, rfl⟩

/-- The result first, an ignored line and the inputs the other way round. -/
theorem declarations_in_any_order_reversed :
    ofSource "array -> integer xs 3\nlong -> n\nlong -> return" =
      .ok ⟨[⟨"xs", .composite .array .integer, some 3⟩, ⟨"n", .scalar .long, none⟩],
        .scalar .long⟩ ∧
    ∃ other, ofSource "long -> return\n# inputs\nlong -> n\narray -> integer xs 3" = .ok other ∧
      other.returns = .scalar .long := by
  have hfirst : ofSource "array -> integer xs 3\nlong -> n\nlong -> return" =
      .ok ⟨[⟨"xs", .composite .array .integer, some 3⟩, ⟨"n", .scalar .long, none⟩],
        .scalar .long⟩ := by
    decide +kernel
  have hlines :
      ((Source.significant "array -> integer xs 3\nlong -> n\nlong -> return").map
        (·.content)).Perm
      ((Source.significant "long -> return\n# inputs\nlong -> n\narray -> integer xs 3").map
        (·.content)) := by
    decide +kernel
  have hany := declarations_in_any_order hlines
  obtain ⟨other, hsecond⟩ := hany.1.1 ⟨_, hfirst⟩
  exact ⟨hfirst, other, hsecond, (hany.2 _ _ hfirst hsecond).1.symm⟩

end Signature

end StructuredCall
