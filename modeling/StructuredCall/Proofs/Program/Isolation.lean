import StructuredCall.Proofs.Program.Agreement

/-!
# Languages are apart from each other

What a registry binds in other languages, and which other languages have a backend or a style,
makes no difference to the programs in a language. Two registries with the same fallback that are
given the same bindings for a language agree on it (`Registry.agreeOn_of_given?`), and of the
backends and styles only those of the language are looked at.

Main result: `Generator.languages_isolated`.
-/

namespace StructuredCall

variable {registry registry' : Registry} {language : Language}

/-- The fallback stays within the language, so the given bindings of the language decide. -/
theorem Registry.agreeOn_of_given? (hlenient : registry.lenient = registry'.lenient)
    (hgiven : ∀ kind, registry.given? kind language = registry'.given? kind language) :
    registry.AgreeOn registry' language := by
  intro kind
  simp only [lookup, binding?, hgiven, hlenient]

theorem Backends.find_congr {backends backends' : Backends}
    (h : language ∈ backends ↔ language ∈ backends') :
    backends.find language = backends'.find language := by
  simp only [find, h]

theorem Materializer.style_congr (materializer materializer' : Materializer)
    (h : language ∈ materializer.styles ↔ language ∈ materializer'.styles) :
    materializer.style language = materializer'.style language := by
  simp only [style, h]

namespace Generator

theorem mem_generateEach {generator : Generator} {signature : Signature} {stubOnly : Bool}
    {requested : List Language} {result : Compiled String} :
    (language, result) ∈ generator.generateEach signature stubOnly requested ↔
      language ∈ requested ∧ generator.generate signature stubOnly language = result := by
  simp only [generateEach, List.mem_map, Prod.mk.injEq]
  constructor
  · rintro ⟨other, hother, rfl, hresult⟩
    exact ⟨hother, hresult⟩
  · rintro ⟨hrequested, hresult⟩
    exact ⟨language, hrequested, rfl, hresult⟩

/-- **Languages are isolated.** Take two registries with the same fallback that are given the same
bindings for a language, and backends and styles that both have the language or both lack it. For
every signature the two give the same starter, the same harness and the same program for a test
case in that language, or the same error. So when several languages are asked for at once, the
result for a language is the one that it has for itself under either of the two, whatever the other
languages lack. -/
theorem languages_isolated (hlenient : registry.lenient = registry'.lenient)
    (hgiven : ∀ kind, registry.given? kind language = registry'.given? kind language)
    {backends backends' : Backends} (hbackends : language ∈ backends ↔ language ∈ backends')
    (signature : Signature) :
    (∀ stubOnly, generate ⟨registry, backends⟩ signature stubOnly language =
      generate ⟨registry', backends'⟩ signature stubOnly language) ∧
    (∀ styles styles', (language ∈ styles ↔ language ∈ styles') → ∀ body test caseNo,
      Materializer.materialize ⟨registry, backends, styles⟩ signature language body test caseNo =
        Materializer.materialize ⟨registry', backends', styles'⟩ signature language body test
          caseNo) ∧
    ∀ stubOnly requested result,
      (language, result) ∈ generateEach ⟨registry, backends⟩ signature stubOnly requested ↔
        language ∈ requested ∧
          generate ⟨registry', backends'⟩ signature stubOnly language = result := by
  have hagree := Registry.agreeOn_of_given? hlenient hgiven
  have hgenerate (stubOnly : Bool) : generate ⟨registry, backends⟩ signature stubOnly language =
      generate ⟨registry', backends'⟩ signature stubOnly language := by
    rw [generate_of_agreeOn hagree]
    simp only [generate, Backends.find_congr hbackends]
  refine ⟨hgenerate, ?_, ?_⟩
  · intro styles styles' hstyles body test caseNo
    have hstyle :=
      Materializer.style_congr ⟨registry', backends, styles⟩ ⟨registry', backends', styles'⟩ hstyles
    rw [Materializer.materialize_of_agreeOn hagree]
    simp only [Materializer.materialize, Backends.find_congr hbackends, hstyle]
  · intro stubOnly requested result
    rw [mem_generateEach, hgenerate]

/-- Without any binding or backend for Java, a Python program is what it is with all of them. -/
theorem languages_isolated_without_java :
    let full : Registry := ⟨Registry.standardRows, Language.all, true⟩
    let partly : Registry :=
      ⟨Registry.standardRows.filter (·.language ≠ .java), [.python], true⟩
    let signature : Signature := ⟨[⟨"xs", .composite .array .integer, none⟩], .scalar .integer⟩
    Registry.ofRows full.rows full.languages true = .ok full ∧
    Registry.ofRows partly.rows partly.languages true = .ok partly ∧
    partly.lookup (.scalar .integer) .java = .error (.missingBinding (.scalar .integer) .java) ∧
    (∀ kind, full.given? kind .python = partly.given? kind .python) ∧
    generate ⟨full, Language.all⟩ signature false .python =
      generate ⟨partly, [.python]⟩ signature false .python := by
  intro full partly signature
  have hgiven : ∀ kind, full.given? kind .python = partly.given? kind .python := by
    rintro (s | c)
    · cases s <;> decide +kernel
    · cases c <;> decide +kernel
  have hlenient : full.lenient = partly.lenient := rfl
  have hbackends : Language.python ∈ Language.all ↔ Language.python ∈ [Language.python] := by decide
  obtain ⟨hgenerate, -, -⟩ := languages_isolated hlenient hgiven hbackends signature
  exact ⟨Registry.standard_eq true, by decide +kernel, by decide +kernel, hgiven, hgenerate false⟩

end Generator

end StructuredCall
