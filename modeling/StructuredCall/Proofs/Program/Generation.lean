import StructuredCall.Proofs.Program.Determined

/-!
# Generated programs and the registry

A starter or harness asks its registry for bindings of one language. It is there whenever every
kind is bound in that language, and this is what building a registry checks ahead of time.

Main result: `Registry.ofRows_leaves_no_gap`.
-/

namespace StructuredCall

theorem Language.language_target (language : Language) :
    language.target.backend.language = language := by
  cases language <;> rfl

/-- Every lookup in a language succeeds. -/
def Registry.BindsAll (registry : Registry) (language : Language) : Prop :=
  ∀ kind, ∃ binding, registry.lookup kind language = .ok binding

/-! ## Starters and harnesses -/

theorem Backend.stub_eq_ok {backend : Backend} {ctx : Context} {body : Option String}
    {steps : List Step} (h : backend.stub ctx body = .ok steps) : ∃ doc opening inner,
      backend.stubDoc ctx = .ok doc ∧ backend.signatureLine ctx = .ok opening ∧
      backend.stubBody ctx body = .ok inner ∧
      steps = doc ++ [.line opening, .indent] ++ inner ++ [.dedent] ++
        (backend.blockEnd.map Step.line).toList := by
  obtain ⟨doc, hdoc, h⟩ := Compiled.bind_eq_ok.1 h
  obtain ⟨opening, hopening, h⟩ := Compiled.bind_eq_ok.1 h
  obtain ⟨inner, hinner, h⟩ := Compiled.bind_eq_ok.1 h
  cases h
  exact ⟨doc, opening, inner, hdoc, hopening, hinner, rfl⟩

theorem Backend.program_eq_ok {backend : Backend} {ctx : Context} {steps : List Step}
    (h : backend.program ctx = .ok steps) : ∃ stub inputs call rendered,
      backend.stub ctx none = .ok stub ∧
      backend.inputLines ctx 0 ctx.signature.inputs = .ok inputs ∧
      backend.callLine ctx = .ok call ∧ backend.renderedResult ctx = .ok rendered ∧
      steps = backend.imports ctx.purpose ++ [.blank] ++ backend.helpers ++ [.blank] ++
        backend.openUnit ++ stub ++ [.blank] ++ (backend.openMain ++ backend.readInput ++ inputs ++
          [.line call, .line (backend.print rendered)] ++ backend.closeMain) ++
        backend.closeUnit := by
  obtain ⟨stub, hstub, h⟩ := Compiled.bind_eq_ok.1 h
  obtain ⟨harness, hharness, h⟩ := Compiled.bind_eq_ok.1 h
  obtain ⟨inputs, hinputs, hharness⟩ := Compiled.bind_eq_ok.1 hharness
  obtain ⟨call, hcall, hharness⟩ := Compiled.bind_eq_ok.1 hharness
  obtain ⟨rendered, hrendered, hharness⟩ := Compiled.bind_eq_ok.1 hharness
  cases h
  cases hharness
  exact ⟨stub, inputs, call, rendered, hstub, hinputs, hcall, hrendered, rfl⟩

namespace Generator

variable {registry : Registry} {language : Language} {backends : Backends}

/-- What a generated text is made of. -/
theorem generate_eq (hbackend : language ∈ backends) (signature : Signature) (stubOnly : Bool) :
    generate ⟨registry, backends⟩ signature stubOnly language =
      (if stubOnly then
        language.target.backend.starter ⟨signature, registry, language, .starter⟩
      else language.target.backend.program ⟨signature, registry, language, .harness⟩).map
        (layout language.target.backend.indentUnit) := by
  simp only [generate, Backends.find, if_pos hbackend, Compiled.ok_bind, Backend.generate,
    language.language_target]
  cases stubOnly <;> rfl

/-- **A program is there where every kind is bound.** -/
theorem exists_generate (hbackend : language ∈ backends) (h : registry.BindsAll language)
    (signature : Signature) (stubOnly : Bool) :
    ∃ code, generate ⟨registry, backends⟩ signature stubOnly language = .ok code := by
  have hstub (purpose : Purpose) : ∃ stub,
      language.target.backend.stub ⟨signature, registry, language, purpose⟩ none = .ok stub :=
    (language.determined_stub none).exists_ok h
  rw [generate_eq hbackend]
  cases stubOnly with
  | true =>
    obtain ⟨stub, hstub⟩ := hstub .starter
    simp only [Backend.starter, hstub]
    exact ⟨_, rfl⟩
  | false =>
    obtain ⟨stub, hstub⟩ := hstub .harness
    obtain ⟨harness, hharness⟩ : ∃ harness,
        language.target.backend.harness ⟨signature, registry, language, .harness⟩ = .ok harness :=
      language.determined_harness.exists_ok h
    simp only [Backend.program, hstub, hharness]
    exact ⟨_, rfl⟩

section

variable {generator : Generator} {lenient : Bool}

theorem binds_of_standard (h : Generator.standard lenient = .ok generator) (language : Language) :
    generator.registry.Binds language language.target.bindings := by
  obtain ⟨registry, hregistry, h⟩ := Compiled.bind_eq_ok.1 h
  cases h
  exact Registry.binds_of_standard hregistry language

/-- **The standard generator** has steps for a starter and for a harness in every language. -/
theorem exists_steps (h : Generator.standard lenient = .ok generator) (signature : Signature)
    (language : Language) (stubOnly : Bool) : ∃ steps,
      (if stubOnly then
        language.target.backend.starter ⟨signature, generator.registry, language, .starter⟩
      else language.target.backend.program ⟨signature, generator.registry, language, .harness⟩) =
        .ok steps ∧
      generator.generate signature stubOnly language =
        .ok (layout language.target.backend.indentUnit steps) := by
  have hbinds := binds_of_standard h language
  obtain ⟨registry, -, h⟩ := Compiled.bind_eq_ok.1 h
  cases h
  obtain ⟨code, hcode⟩ := exists_generate language.mem_all (fun kind => ⟨_, hbinds kind⟩)
    signature stubOnly
  rw [generate_eq language.mem_all] at hcode ⊢
  obtain ⟨steps, hsteps, -⟩ := Compiled.map_eq_ok.1 hcode
  exact ⟨steps, hsteps, congrArg (Except.map _) hsteps⟩

theorem exists_harness (h : Generator.standard lenient = .ok generator) (signature : Signature)
    (language : Language) : ∃ steps,
      language.target.backend.program ⟨signature, generator.registry, language, .harness⟩ =
        .ok steps ∧
      generator.generate signature false language =
        .ok (layout language.target.backend.indentUnit steps) :=
  exists_steps h signature language false

end

end Generator

/-! ## Building a registry -/

namespace Registry

/-- **Building a registry leaves no gap.** Of several bindings for one kind and language the last
counts. A registry is built exactly when every lookup in its languages succeeds, and is refused for
the first lookup that fails, language by language; and with a registry that is built, every program
in its languages can be generated. -/
theorem ofRows_leaves_no_gap (rows : List BindingRow) (languages : List Language)
    (lenient : Bool) :
    let registry : Registry := ⟨rows, languages, lenient⟩
    (∀ kind language binding, registry.given? kind language = some binding ↔
      ∃ before after, rows = before ++ ⟨kind, language, binding⟩ :: after ∧
        ∀ row ∈ after, ¬(row.kind = kind ∧ row.language = language)) ∧
    (∀ built, ofRows rows languages lenient = .ok built ↔
      built = registry ∧ ∀ language ∈ languages, registry.BindsAll language) ∧
    (∀ e, ofRows rows languages lenient = .error e ↔
      ∃ kind language, registry.FirstGap kind language ∧ e = .missingBinding kind language) ∧
    ∀ built, ofRows rows languages lenient = .ok built →
      ∀ backends signature stubOnly, ∀ language ∈ languages, language ∈ backends →
        ∃ code, Generator.generate ⟨built, backends⟩ signature stubOnly language = .ok code := by
  intro registry
  have hbuilt (built : Registry) : ofRows rows languages lenient = .ok built ↔
      built = registry ∧ ∀ language ∈ languages, registry.BindsAll language := by
    rw [ofRows_eq_ok]
    refine and_congr_right ?_
    rintro rfl
    simp only [gaps_eq_nil, BindsAll, exists_lookup_iff]
    exact Iff.rfl
  refine ⟨fun _ _ _ => given?_eq_some, hbuilt, fun e => ofRows_eq_error, ?_⟩
  intro built h backends signature stubOnly language hlanguage hbackend
  obtain ⟨rfl, hbinds⟩ := (hbuilt built).1 h
  exact Generator.exists_generate hbackend (hbinds language hlanguage) signature stubOnly

/-- With integers and the composites alone, a lenient registry generates a program for reals and
texts. -/
theorem ofRows_leaves_no_gap_lenient_python :
    let kinds : List Kind := [.scalar .integer, .container .array, .container .map, .container .set]
    let rows : List BindingRow := kinds.map fun kind => ⟨kind, .python, Target.Python.bindings kind⟩
    let signature : Signature := ⟨[⟨"x", .scalar .double, none⟩], .composite .map .string⟩
    ofRows rows [.python] true = .ok ⟨rows, [.python], true⟩ ∧
    ∃ code, Generator.generate ⟨⟨rows, [.python], true⟩, [.python]⟩ signature false .python =
      .ok code := by
  intro kinds rows signature
  have hbuilt : ofRows rows [.python] true = .ok ⟨rows, [.python], true⟩ := by decide
  obtain ⟨-, -, -, hgenerate⟩ := ofRows_leaves_no_gap rows [.python] true
  exact ⟨hbuilt, hgenerate _ hbuilt [.python] signature false .python (by simp) (by simp)⟩

end Registry

end StructuredCall
