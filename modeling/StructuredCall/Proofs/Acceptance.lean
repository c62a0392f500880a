import Mathlib.Data.List.Forall2
import Mathlib.Data.List.Nodup
import Mathlib.Data.List.Pairwise
import StructuredCall.Proofs.Clause
import StructuredCall.Proofs.Scope
import StructuredCall.Signature.Reader

/-!
# Which sources are signatures

A source describes a signature exactly when each significant line says a clause, one clause is
the result, the names of the inputs are admissible, and no name is claimed twice.

Reading goes line by line and keeps a draft. The claimed names of the draft stand for all
earlier lines, so the induction over the lines is about reading on from any draft whose names
are distinct (`Draft.reads_iff`).
-/

namespace StructuredCall

/-- The names that a parameter claims. -/
def Parameter.claims (input : Parameter) : List String :=
  Scope.claims input.name input.isComposite

namespace Draft

/-! ## One clause -/

/-- A clause may follow a draft. -/
def Admits (draft : Draft) : Clause → Prop
  | .input parameter => draft.scope.Admits parameter.name parameter.isComposite
  | .result _ => draft.returns = none

/-- A draft with one more clause. -/
def extend (draft : Draft) (line : Line) : Clause → Draft
  | .input parameter =>
    { draft with
      scope := draft.scope.declared parameter.name parameter.isComposite line
      inputs := draft.inputs ++ [parameter] }
  | .result type => { draft with returns := some type }

theorem claim_eq_ok {draft : Draft} {name : String} {type : DataType} {line : Line}
    {scope : Scope} : draft.claim name type line = .ok scope ↔
      draft.scope.Admits name type.isComposite ∧
        scope = draft.scope.declared name type.isComposite line := by
  constructor
  · intro h
    unfold claim at h
    split at h
    · next after hd =>
      have hadmits := Scope.admits_of_declare hd
      rw [Scope.declare_of_admits hadmits] at hd
      cases hd
      cases h
      exact ⟨hadmits, rfl⟩
    · cases h
  · rintro ⟨hadmits, rfl⟩
    unfold claim
    rw [Scope.declare_of_admits hadmits]

theorem sizeOf_eq_ok {line : Line} {word : Word} {size : Option Nat} :
    sizeOf line (some word) = .ok size ↔ ∃ n, Text.Word64 word.text n ∧ size = some n := by
  simp only [sizeOf, ← Text.word64?_eq_some]
  cases Text.word64? word.text.toList <;> simp [eq_comm]

theorem add_eq_ok {draft after : Draft} {line : Line} {d : Declaration} :
    draft.add line d = .ok after ↔
      ∃ clause, d.Means clause ∧ draft.Admits clause ∧ after = draft.extend line clause := by
  constructor
  · intro h
    cases d with
    | returns type =>
      refine ⟨.result type, .result, ?_⟩
      simp only [add] at h
      split at h
      · cases h
      · next hnone =>
        cases h
        exact ⟨hnone, rfl⟩
    | input name type size =>
      obtain ⟨scope, hscope, h⟩ := Compiled.bind_eq_ok.1 h
      obtain ⟨n, hn, h⟩ := Compiled.bind_eq_ok.1 h
      -- the names are claimed ahead of the size
      obtain ⟨hadmits, rfl⟩ := claim_eq_ok.1 hscope
      cases h
      cases size with
      | none =>
        cases hn
        exact ⟨_, .input, hadmits, rfl⟩
      | some word =>
        obtain ⟨n, hsize, rfl⟩ := sizeOf_eq_ok.1 hn
        exact ⟨_, .sized hsize, hadmits, rfl⟩
  · rintro ⟨clause, hm, hadmits, rfl⟩
    cases hm with
    | result =>
      have hnone : draft.returns = none := hadmits
      simp [add, hnone, extend]
    | input =>
      exact Compiled.bind_eq_ok.2 ⟨_, claim_eq_ok.2 ⟨hadmits, rfl⟩,
        Compiled.bind_eq_ok.2 ⟨none, rfl, rfl⟩⟩
    | sized hsize =>
      exact Compiled.bind_eq_ok.2 ⟨_, claim_eq_ok.2 ⟨hadmits, rfl⟩,
        Compiled.bind_eq_ok.2 ⟨_, sizeOf_eq_ok.2 ⟨_, hsize, rfl⟩, rfl⟩⟩

theorem name_ne_returnWord {name : String} (h : Name.Admissible name) :
    name ≠ Declaration.returnWord := by
  rintro rfl
  exact h.unreserved (by decide)

/-- **Taking in a line is taking in what it says.** -/
theorem addLine_eq_ok {draft after : Draft} {line : Line} :
    draft.addLine line = .ok after ↔
      ∃ clause, line.Says clause ∧ draft.Admits clause ∧ after = draft.extend line clause := by
  constructor
  · intro h
    obtain ⟨d, hd, h⟩ := Compiled.bind_eq_ok.1 h
    obtain ⟨clause, hm, hadmits⟩ := add_eq_ok.1 h
    exact ⟨clause, Declaration.says_of_ofLine hd hm, hadmits⟩
  · rintro ⟨clause, hsays, hadmits, rfl⟩
    have hname : ∀ parameter, clause = .input parameter →
        parameter.name ≠ Declaration.returnWord := by
      rintro parameter rfl
      exact name_ne_returnWord (Scope.Admits.admissible hadmits)
    obtain ⟨d, hd, hm⟩ := Declaration.ofLine_of_says hsays hname
    exact Compiled.bind_eq_ok.2 ⟨d, hd, add_eq_ok.2 ⟨clause, hm, hadmits, rfl⟩⟩

/-! ## All lines -/

theorem finish_eq_ok {draft : Draft} {signature : Signature} :
    draft.finish = .ok signature ↔
      draft.inputs = signature.inputs ∧ draft.returns.toList = [signature.returns] := by
  obtain ⟨inputs, returns⟩ := signature
  unfold finish
  cases draft.returns <;> simp

/-- What a draft may become by clauses: a signature whose names are all distinct. -/
structure Completes (draft : Draft) (clauses : List Clause) (signature : Signature) : Prop where
  inputs : draft.inputs ++ Clause.inputs clauses = signature.inputs
  returns : draft.returns.toList ++ Clause.results clauses = [signature.returns]
  admissible : ∀ input ∈ Clause.inputs clauses, Name.Admissible input.name
  distinct :
    (draft.scope.names ++ (Clause.inputs clauses).flatMap Parameter.claims).Nodup

theorem completes_nil {draft : Draft} (hdistinct : draft.scope.names.Nodup)
    {signature : Signature} : draft.finish = .ok signature ↔ draft.Completes [] signature := by
  rw [finish_eq_ok]
  constructor
  · rintro ⟨hinputs, hreturns⟩
    exact ⟨by simpa using hinputs, by simpa using hreturns, by simp, by simpa using hdistinct⟩
  · rintro ⟨hinputs, hreturns, -, -⟩
    exact ⟨by simpa using hinputs, by simpa using hreturns⟩

theorem distinct_extend {draft : Draft} {line : Line} {clause : Clause}
    (hadmits : draft.Admits clause) (hdistinct : draft.scope.names.Nodup) :
    (draft.extend line clause).scope.names.Nodup := by
  cases clause with
  | result type => exact hdistinct
  | input parameter =>
    show (draft.scope.declared _ _ line).names.Nodup
    rw [Scope.names_declared, List.nodup_append]
    refine ⟨hdistinct, Scope.claims_nodup _ _, ?_⟩
    rintro claimed hmem _ hclaimed rfl
    exact hadmits.free claimed hclaimed hmem

theorem completes_cons {draft : Draft} (line : Line) {clause : Clause} {clauses : List Clause}
    {signature : Signature} : draft.Completes (clause :: clauses) signature ↔
      draft.Admits clause ∧ (draft.extend line clause).Completes clauses signature := by
  cases clause with
  | result type =>
    constructor
    · rintro ⟨hinputs, hreturns, hadmissible, hdistinct⟩
      have hnone : draft.returns = none := by
        cases h : draft.returns with
        | none => rfl
        | some first => simp [h] at hreturns
      exact ⟨hnone, hinputs, by simpa [hnone, extend] using hreturns, hadmissible, hdistinct⟩
    · rintro ⟨hnone, hinputs, hreturns, hadmissible, hdistinct⟩
      have hnone : draft.returns = none := hnone
      exact ⟨hinputs, by simpa [hnone, extend] using hreturns, hadmissible, hdistinct⟩
  | input parameter =>
    have hnames : (draft.extend line (.input parameter)).scope.names =
        draft.scope.names ++ parameter.claims := Scope.names_declared ..
    constructor
    · rintro ⟨hinputs, hreturns, hadmissible, hdistinct⟩
      obtain ⟨hname, hadmissible⟩ := List.forall_mem_cons.1 hadmissible
      rw [Clause.inputs_input, List.flatMap_cons, ← List.append_assoc] at hdistinct
      have hfree := (List.nodup_append.1 (List.nodup_append.1 hdistinct).1).2.2
      refine ⟨⟨hname, fun claimed hc hmem => hfree claimed hmem claimed hc rfl⟩, ?_⟩
      exact ⟨by simpa [extend] using hinputs, hreturns, hadmissible, hnames ▸ hdistinct⟩
    · rintro ⟨hadmits, hinputs, hreturns, hadmissible, hdistinct⟩
      have hname : Name.Admissible parameter.name := hadmits.admissible
      refine ⟨by simpa [extend] using hinputs, hreturns,
        List.forall_mem_cons.2 ⟨hname, hadmissible⟩, ?_⟩
      rw [Clause.inputs_input, List.flatMap_cons, ← List.append_assoc, ← hnames]
      exact hdistinct

theorem reads_iff {lines : List Line} {draft : Draft} (hdistinct : draft.scope.names.Nodup)
    {signature : Signature} :
    (∃ last, draft.addLines lines = .ok last ∧ last.finish = .ok signature) ↔
      ∃ clauses, List.Forall₂ Line.Says lines clauses ∧ draft.Completes clauses signature := by
  induction lines generalizing draft with
  | nil =>
    constructor
    · rintro ⟨last, hlast, hfinish⟩
      cases hlast
      exact ⟨[], .nil, (completes_nil hdistinct).1 hfinish⟩
    · rintro ⟨clauses, hsays, hcompletes⟩
      cases hsays
      exact ⟨draft, rfl, (completes_nil hdistinct).2 hcompletes⟩
  | cons line lines ih =>
    constructor
    · rintro ⟨last, hlast, hfinish⟩
      obtain ⟨next, hnext, hlast⟩ := Compiled.bind_eq_ok.1 hlast
      obtain ⟨clause, hsays, hadmits, rfl⟩ := addLine_eq_ok.1 hnext
      obtain ⟨clauses, hrest, hcompletes⟩ :=
        (ih (distinct_extend hadmits hdistinct)).1 ⟨last, hlast, hfinish⟩
      exact ⟨clause :: clauses, .cons hsays hrest, (completes_cons line).2 ⟨hadmits, hcompletes⟩⟩
    · rintro ⟨clauses, hsays, hcompletes⟩
      cases hsays with | @cons _ clause _ clauses hclause hrest => ?_
      obtain ⟨hadmits, hcompletes⟩ := (completes_cons line).1 hcompletes
      obtain ⟨last, hlast, hfinish⟩ :=
        (ih (distinct_extend hadmits hdistinct)).2 ⟨clauses, hrest, hcompletes⟩
      have hnext := addLine_eq_ok.2 ⟨clause, hclause, hadmits, rfl⟩
      exact ⟨last, Compiled.bind_eq_ok.2 ⟨_, hnext, hlast⟩, hfinish⟩

/-! ## Clauses that make up a signature -/

section

variable {clauses : List Clause} {signature : Signature}

/-- The word for the result is the name of nothing else. -/
theorem Completes.eq_result (h : ({} : Draft).Completes clauses signature) {clause : Clause}
    (hmem : clause ∈ clauses) (hname : clause.name = Declaration.returnWord) :
    clause = .result signature.returns := by
  cases clause with
  | input parameter =>
    exact absurd hname (name_ne_returnWord (h.admissible _ (Clause.mem_inputs.2 hmem)))
  | result type =>
    have hreturns : Clause.results clauses = [signature.returns] := h.returns
    have htype := Clause.mem_results.2 hmem
    rw [hreturns, List.mem_singleton] at htype
    rw [htype]

/-- What comes before the result is an input. -/
theorem Completes.exists_input {before after : List Clause} {type : DataType}
    (h : ({} : Draft).Completes (before ++ .result type :: after) signature) {clause : Clause}
    (hmem : clause ∈ before) : ∃ input ∈ signature.inputs, clause = .input input := by
  have hinputs : Clause.inputs (before ++ .result type :: after) = signature.inputs := h.inputs
  have hreturns : Clause.results (before ++ .result type :: after) = [signature.returns] :=
    h.returns
  cases clause with
  | input input =>
    exact ⟨input, hinputs ▸ Clause.mem_inputs.2 (List.mem_append_left _ hmem), rfl⟩
  | result other =>
    have hother := Clause.mem_results.2 hmem
    rw [Clause.results_append, Clause.results_result] at hreturns
    have hlength := congrArg List.length hreturns
    have hpos := List.length_pos_of_mem hother
    simp only [List.length_append, List.length_cons, List.length_nil] at hlength
    omega

/-- An input has its name for itself. -/
theorem Completes.input_eq (h : ({} : Draft).Completes clauses signature)
    {input input' : Parameter} (hmem : input ∈ Clause.inputs clauses)
    (hmem' : input' ∈ Clause.inputs clauses) (hname : input.name = input'.name) :
    input = input' := by
  have hdistinct : ((Clause.inputs clauses).flatMap Parameter.claims).Nodup := h.distinct
  have hdisjoint := (List.nodup_flatMap.1 hdistinct).2
  have hsymm : Std.Symm (Function.onFun List.Disjoint Parameter.claims) :=
    ⟨fun _ _ hab _ hb ha => hab ha hb⟩
  have hclaims : ∀ p : Parameter, p.name ∈ p.claims := fun p => by
    cases hp : p.isComposite <;> simp [Parameter.claims, Scope.claims, hp]
  by_contra hne
  exact hdisjoint.forall hmem hmem' hne (hclaims input) (hname ▸ hclaims input')

theorem Completes.type_eq (h : ({} : Draft).Completes clauses signature) {clause clause' : Clause}
    (hmem : clause ∈ clauses) (hmem' : clause' ∈ clauses) (hname : clause.name = clause'.name) :
    clause.type = clause'.type := by
  by_cases hreturn : clause.name = Declaration.returnWord
  · rw [h.eq_result hmem hreturn, h.eq_result hmem' (hname ▸ hreturn)]
  · cases clause with
    | result => exact absurd rfl hreturn
    | input input =>
      cases clause' with
      | result => exact absurd hname hreturn
      | input input' =>
        have heq := h.input_eq (Clause.mem_inputs.2 hmem) (Clause.mem_inputs.2 hmem') hname
        rw [heq]

end

end Draft

/-! ## Sources -/

/-- A source is read as a draft that the clauses of its significant lines complete. -/
theorem Signature.ofSource_iff_completes {source : String} {signature : Signature} :
    Signature.ofSource source = .ok signature ↔
      ∃ clauses, List.Forall₂ Line.Says (Source.significant source) clauses ∧
        ({} : Draft).Completes clauses signature := by
  have hempty : ({} : Draft).scope.names.Nodup := List.nodup_nil
  rw [Signature.ofSource, Compiled.bind_eq_ok, Draft.reads_iff hempty]

theorem Signature.admissible_of_ofSource {source : String} {signature : Signature}
    (h : Signature.ofSource source = .ok signature) :
    ∀ input ∈ signature.inputs, Name.Admissible input.name := by
  obtain ⟨clauses, -, hcompletes⟩ := ofSource_iff_completes.1 h
  have hinputs : Clause.inputs clauses = signature.inputs := hcompletes.inputs
  exact hinputs ▸ hcompletes.admissible

/-- **Which sources are signatures.** A source describes a signature exactly when its
significant lines say clauses of which one is the result, and the inputs among them have
admissible names and claim no name twice; the inputs are those of the signature, in order. -/
theorem Signature.ofSource_eq_ok_iff (source : String) (signature : Signature) :
    Signature.ofSource source = .ok signature ↔
      ∃ clauses : List Clause,
        List.Forall₂ Line.Says (Source.significant source) clauses ∧
        Clause.inputs clauses = signature.inputs ∧
        Clause.results clauses = [signature.returns] ∧
        (∀ input ∈ signature.inputs, Name.Admissible input.name) ∧
        (signature.inputs.flatMap Parameter.claims).Nodup := by
  have hempty : ({} : Draft).scope.names.Nodup := List.nodup_nil
  rw [Signature.ofSource, Compiled.bind_eq_ok, Draft.reads_iff hempty]
  refine exists_congr fun clauses => and_congr_right fun _ => ?_
  constructor
  · rintro ⟨hinputs, hreturns, hadmissible, hdistinct⟩
    exact ⟨hinputs, hreturns, hinputs ▸ hadmissible, hinputs ▸ hdistinct⟩
  · rintro ⟨hinputs, hreturns, hadmissible, hdistinct⟩
    exact ⟨hinputs, hreturns, hinputs ▸ hadmissible, hinputs ▸ hdistinct⟩

end StructuredCall
