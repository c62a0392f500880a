import StructuredCall.Proofs.Program.Completeness
import StructuredCall.Proofs.Program.Generation

/-!
# Registries that agree on a language

A program looks at nothing in a registry but the bindings of its own language. So two registries
that bind a language alike give the same starter, the same harness and the same program for a test
case, and where one fails the other fails with the same error.

Main results: `Generator.generate_of_agreeOn` and `Materializer.materialize_of_agreeOn`.
-/

namespace StructuredCall

/-- The two registries bind every kind alike in a language. -/
def Registry.AgreeOn (registry registry' : Registry) (language : Language) : Prop :=
  ∀ kind, registry.lookup kind language = registry'.lookup kind language

variable {registry registry' : Registry} {language : Language}

theorem Registry.AgreeOn.part_eq {ε α : Type} (h : registry.AgreeOn registry' language)
    {signature : Signature} {part : Context → Except ε α} (hpart : Determined signature part)
    (purpose : Purpose) : part ⟨signature, registry, language, purpose⟩ =
      part ⟨signature, registry', language, purpose⟩ :=
  hpart.eq_of_answers rfl (funext h)

/-- **The generated text follows from the bindings of the language.** -/
theorem Generator.generate_of_agreeOn (h : registry.AgreeOn registry' language)
    (backends : Backends) (signature : Signature) (stubOnly : Bool) :
    generate ⟨registry, backends⟩ signature stubOnly language =
      generate ⟨registry', backends⟩ signature stubOnly language := by
  by_cases hbackend : language ∈ backends
  · have hstub (purpose : Purpose) :
        language.target.backend.stub ⟨signature, registry, language, purpose⟩ none =
          language.target.backend.stub ⟨signature, registry', language, purpose⟩ none :=
      h.part_eq (language.determined_stub none) purpose
    have hharness : language.target.backend.harness ⟨signature, registry, language, .harness⟩ =
        language.target.backend.harness ⟨signature, registry', language, .harness⟩ :=
      h.part_eq language.determined_harness .harness
    simp only [generate_eq hbackend, Backend.starter, Backend.program, hstub, hharness]
  · simp only [generate, Backends.find, if_neg hbackend]
    rfl

/-- **The program of a test case follows from the bindings of the language.** -/
theorem Materializer.materialize_of_agreeOn (h : registry.AgreeOn registry' language)
    (backends : Backends) (styles : List Language) (signature : Signature) (body : String)
    (test : TestCase) (caseNo : Nat) :
    materialize ⟨registry, backends, styles⟩ signature language body test caseNo =
      materialize ⟨registry', backends, styles⟩ signature language body test caseNo := by
  by_cases hbackend : language ∈ backends
  swap
  · simp only [materialize, Backends.find, if_neg hbackend]
    rfl
  by_cases hstyle : language ∈ styles
  swap
  · simp only [materialize, Backends.find, style, if_pos hbackend, if_neg hstyle,
      Judged.ofCompiled_ok, Compiled.ok_bind]
    rfl
  simp only [materialize, Backends.find, style, if_pos hbackend, if_pos hstyle,
    Judged.ofCompiled_ok, Compiled.ok_bind]
  cases hcase : Literal.ofCase signature test with
  | error e => rfl
  | ok literals =>
    -- only literals of the inputs' types have a determined program, and decoded values are such
    have hprogram := h.part_eq
      (language.determined_caseProgram body test caseNo (Literal.hasType_of_ofCase hcase))
      .materialized
    simp only [Except.mapError, Compiled.ok_bind, hprogram]

end StructuredCall
