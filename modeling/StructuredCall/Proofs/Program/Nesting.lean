import StructuredCall.Proofs.Program.Stub

/-!
# Levels of indentation

A writer that is told to close a level where none is open stays where it is, so a level that is
closed too often goes unnoticed. Here the levels are counted in a way that notices it:
`Step.nesting?` gives the depth behind some steps, and nothing if a level is closed that was not
opened. Counting goes from part to part (`Step.nesting_append`), so the methods that open a class,
a function or a block are matched with those that close it once for each language, and a program
is put together from parts that fit.

Main results: `Language.nesting_starter`, `Language.nesting_harness` and `Language.nesting_case`.
-/

namespace StructuredCall

/-! ## Counting levels -/

namespace Step

/-- The depth behind some steps, if each level that they close is open. -/
def nesting? (depth : Nat) : List Step → Option Nat
  | [] => some depth
  | .line _ :: steps | .block _ :: steps | .blank :: steps => nesting? depth steps
  | .indent :: steps => nesting? (depth + 1) steps
  | .dedent :: steps =>
    match depth with
    | 0 => none
    | depth + 1 => nesting? depth steps

variable {start middle stop : Nat} {steps more : List Step}

theorem nesting?_append (depth : Nat) (steps more : List Step) :
    nesting? depth (steps ++ more) = (nesting? depth steps).bind (nesting? · more) := by
  induction steps generalizing depth with
  | nil => rfl
  | cons step steps ih =>
    cases step with
    | line | block | blank | indent => exact ih _
    | dedent =>
      cases depth with
      | zero => rfl
      | succ depth => exact ih depth

theorem nesting_append (h : nesting? start steps = some middle)
    (h' : nesting? middle more = some stop) : nesting? start (steps ++ more) = some stop := by
  rw [nesting?_append, h]
  exact h'

theorem nesting_lines (depth : Nat) (texts : List String) :
    nesting? depth (texts.map .line) = some depth := by
  induction texts with
  | nil => rfl
  | cons text texts ih => exact ih

/-- **What the count says**: the depth is what it says, and in front of every step that closes a
level there is one to close. -/
theorem nesting?_eq_some : nesting? start steps = some stop ↔ depthAfter start steps = stop ∧
    ∀ before after, steps = before ++ .dedent :: after → 0 < depthAfter start before := by
  induction steps generalizing start with
  | nil => simp [nesting?, depthAfter]
  | cons step steps ih =>
    -- a split of the steps is one before the first step, or one of those behind it
    have hsplit : (∀ before after, step :: steps = before ++ .dedent :: after →
        0 < depthAfter start before) ↔ (step = .dedent → 0 < start) ∧
          ∀ before after, steps = before ++ .dedent :: after →
            0 < depthAfter (depthAfter start [step]) before := by
      constructor
      · intro h
        refine ⟨fun hstep => h [] steps (by rw [hstep]; rfl), fun before after hsteps => ?_⟩
        have hbefore := h (step :: before) after (by rw [hsteps]; rfl)
        rwa [← List.singleton_append, depthAfter_append] at hbefore
      · rintro ⟨hfirst, hrest⟩ before after hsteps
        cases before with
        | nil =>
          cases hsteps
          exact hfirst rfl
        | cons first before =>
          cases hsteps
          rw [← List.singleton_append, depthAfter_append]
          exact hrest before after rfl
    rw [hsplit]
    cases step with
    | line | block | blank | indent => simpa [nesting?, depthAfter] using ih
    | dedent =>
      cases start with
      | zero => simp [nesting?]
      | succ depth => simpa [nesting?, depthAfter] using ih

end Step

namespace Writer

/-- While a writer takes the steps, a level is closed only where one is open, and in the end none
is left open. -/
structure Nested (indentUnit : String) (steps : List Step) : Prop where
  closed : ∀ before after, steps = before ++ .dedent :: after →
    0 < (({ indentUnit } : Writer).run before).depth
  ended : (({ indentUnit } : Writer).run steps).depth = 0

theorem nested_iff {indentUnit : String} {steps : List Step} :
    Nested indentUnit steps ↔ Step.nesting? 0 steps = some 0 := by
  have hdepth (steps : List Step) :
      (({ indentUnit } : Writer).run steps).depth = Step.depthAfter 0 steps := depth_run _ steps
  rw [Step.nesting?_eq_some]
  constructor
  · rintro ⟨hclosed, hended⟩
    simp only [hdepth] at hclosed hended
    exact ⟨hended, hclosed⟩
  · rintro ⟨hended, hclosed⟩
    constructor
    · simpa only [hdepth] using hclosed
    · rw [hdepth, hended]

instance (indentUnit : String) (steps : List Step) : Decidable (Nested indentUnit steps) :=
  decidable_of_iff _ nested_iff.symm

end Writer

/-! ## The parts of a program -/

namespace Language

variable {language : Language} {ctx : Context}

open Step (nesting? nesting_append nesting_lines)

/-- Ahead of the stub the class is opened, where there is one. -/
theorem nesting_ahead (language : Language) :
    let backend := language.target.backend
    nesting? 0 (backend.imports .starter ++ [.blank] ++ backend.openUnit) =
      some language.unitDepth ∧
    nesting? 0 (backend.imports .harness ++ [.blank] ++ backend.helpers ++ [.blank] ++
      backend.openUnit) = some language.unitDepth ∧
    nesting? 0 (language.target.style.prelude backend ++ [.blank] ++ backend.openUnit) =
      some language.unitDepth := by
  cases language <;> exact ⟨rfl, rfl, rfl⟩

theorem nesting_open (language : Language) :
    let backend := language.target.backend
    nesting? language.unitDepth ([.blank] ++ backend.openMain ++ backend.readInput) =
      some (language.unitDepth + 1) ∧
    nesting? language.unitDepth ([.blank] ++ language.target.style.support ++ [.blank] ++
      backend.openMain) = some (language.unitDepth + 1) := by
  cases language <;> exact ⟨rfl, rfl⟩

theorem nesting_close (language : Language) :
    let backend := language.target.backend
    nesting? language.unitDepth backend.closeUnit = some 0 ∧
    nesting? (language.unitDepth + 1) (backend.closeMain ++ backend.closeUnit) = some 0 := by
  cases language <;> exact ⟨rfl, rfl⟩

theorem nesting_stubBody {body : Option String} {inner : List Step}
    (h : language.target.backend.stubBody ctx body = .ok inner) (depth : Nat) :
    nesting? depth inner = some depth := by
  cases body with
  | some body =>
    cases h
    rfl
  | none =>
    obtain ⟨value, -, h⟩ := Compiled.bind_eq_ok.1 h
    cases h
    rfl

/-- A stub ends at the depth where it starts, with a body or without. -/
theorem nesting_stub {body : Option String} {stub : List Step}
    (h : language.target.backend.stub ctx body = .ok stub) (depth : Nat) :
    nesting? depth stub = some depth := by
  obtain ⟨doc, opening, inner, hdoc, -, hinner, rfl⟩ := Backend.stub_eq_ok h
  obtain ⟨texts, rfl⟩ := Stub.exists_docLines hdoc
  have hopening : nesting? depth [.line opening, .indent] = some (depth + 1) := rfl
  have hdedent : nesting? (depth + 1) [.dedent] = some depth := rfl
  have hend : nesting? depth (language.target.backend.blockEnd.map Step.line).toList =
      some depth := by
    cases language.target.backend.blockEnd <;> rfl
  exact nesting_append (nesting_append (nesting_append (nesting_append (nesting_lines depth texts)
    hopening) (nesting_stubBody hinner (depth + 1))) hdedent) hend

theorem nesting_inputLines {inputs : List Parameter} {index : Nat} {lines : List Step}
    (h : language.target.backend.inputLines ctx index inputs = .ok lines) (depth : Nat) :
    nesting? depth lines = some depth := by
  induction inputs generalizing index lines with
  | nil =>
    cases h
    rfl
  | cons input inputs ih =>
    obtain ⟨line, hline, h⟩ := Compiled.bind_eq_ok.1 h
    obtain ⟨rest, hrest, h⟩ := Compiled.bind_eq_ok.1 h
    cases h
    obtain ⟨value, -, hline⟩ := Compiled.bind_eq_ok.1 hline
    obtain ⟨text, -, hline⟩ := Compiled.bind_eq_ok.1 hline
    cases hline
    have hlines : nesting? depth rest = some depth := ih hrest
    exact hlines

theorem nesting_measuredCall (language : Language) (call : String) :
    nesting? (language.unitDepth + 1) (language.target.style.measuredCall call) =
      some (language.unitDepth + 1) := by
  cases language <;> rfl

/-- The record has an entry for each of nine keys, whatever the data. -/
theorem nesting_record (language : Language) (returns : DataType) (test : TestCase)
    (caseNo : Nat) :
    nesting? (language.unitDepth + 1) (language.target.style.record
      (language.target.style.outcomeRecord language.target.backend returns test caseNo)) =
        some (language.unitDepth + 1) := by
  cases language <;> rfl

/-! ## Programs -/

/-- **A starter is nested.** -/
theorem nesting_starter (hpurpose : ctx.purpose = .starter) {steps : List Step}
    (h : language.target.backend.starter ctx = .ok steps) : nesting? 0 steps = some 0 := by
  obtain ⟨stub, hstub, h⟩ := Compiled.bind_eq_ok.1 h
  cases h
  rw [hpurpose]
  exact nesting_append (nesting_append language.nesting_ahead.1 (nesting_stub hstub _))
    language.nesting_close.1

/-- **A harness is nested.** -/
theorem nesting_harness (hpurpose : ctx.purpose = .harness) {steps : List Step}
    (h : language.target.backend.program ctx = .ok steps) : nesting? 0 steps = some 0 := by
  obtain ⟨stub, inputs, call, rendered, hstub, hinputs, -, -, rfl⟩ := Backend.program_eq_ok h
  rw [hpurpose]
  have hahead := nesting_append language.nesting_ahead.2.1 (nesting_stub hstub _)
  have hopen := nesting_append language.nesting_open.1 (nesting_inputLines hinputs _)
  have hcall := nesting_append hopen
    (nesting_lines _ [call, language.target.backend.print rendered])
  have hprogram := nesting_append (nesting_append hahead hcall) language.nesting_close.2
  simpa only [List.append_assoc, List.map_cons, List.map_nil] using hprogram

/-- **The program of a test case is nested**, whatever the body. -/
theorem nesting_case {body : String} {test : TestCase} {caseNo : Nat} {literals : List Literal}
    {steps : List Step}
    (h : language.target.style.program language.target.backend ctx body test caseNo literals =
      .ok steps) : nesting? 0 steps = some 0 := by
  obtain ⟨stub, declared, call, rendered, output, hstub, -, -, -, -, rfl⟩ :=
    CaseStyle.program_eq_ok h
  have hahead := nesting_append language.nesting_ahead.2.2 (nesting_stub hstub _)
  have hdeclared := nesting_append language.nesting_open.2
    (nesting_lines _ (CaseStyle.hoisted declared))
  have hcall := nesting_append hdeclared (language.nesting_measuredCall call)
  have hrecord := nesting_append (nesting_append hcall (nesting_lines _ [output]))
    (language.nesting_record ctx.signature.returns test caseNo)
  have hprogram := nesting_append (nesting_append hahead hrecord) language.nesting_close.2
  simpa only [List.append_assoc, List.map_cons, List.map_nil] using hprogram

end Language

end StructuredCall
