import StructuredCall.Proofs.Program.Agreement

/-!
# Lenient registries

A lenient registry lets a language's integer binding stand in for scalars that are not bound. It is
as if that binding had been given for each of these scalars: with the copies among its rows, a
strict registry is built as well, and every lookup in a listed language finds the same. So all
programs in the listed languages are the same.

Main result: `Registry.lenient_eq_filled`.
-/

namespace StructuredCall

theorem Scalar.mem_all (s : Scalar) : s ∈ Scalar.all := by
  cases s <;> decide

namespace Registry

/-- Copies of a language's integer binding for the scalars that are not bound in the language. -/
def copies (registry : Registry) (language : Language) : List BindingRow :=
  match registry.given? (.scalar .integer) language with
  | none => []
  | some integer =>
    (Scalar.all.filter fun s => !registry.isGiven (.scalar s) language).map
      (⟨.scalar ·, language, integer⟩)

/-- The rows, and behind them the copies for every language. -/
def filledRows (registry : Registry) : List BindingRow :=
  registry.rows ++ registry.languages.flatMap registry.copies

variable {registry : Registry} {kind : Kind} {language : Language}

theorem mem_copies {row : BindingRow} : row ∈ registry.copies language ↔
    row.language = language ∧ registry.given? (.scalar .integer) language = some row.binding ∧
      ∃ s, row.kind = .scalar s ∧ registry.given? (.scalar s) language = none := by
  obtain ⟨kind, language', binding⟩ := row
  unfold copies
  cases registry.given? (.scalar .integer) language with
  | none => simp
  | some integer =>
    simp only [← given?_isSome, List.mem_map, List.mem_filter, Scalar.mem_all, true_and,
      BindingRow.mk.injEq, Option.some.injEq, Bool.not_eq_true', Option.isSome_eq_false_iff,
      Option.isNone_iff_eq_none]
    constructor
    · rintro ⟨s, hmissing, rfl, rfl, rfl⟩
      exact ⟨rfl, rfl, s, rfl, hmissing⟩
    · rintro ⟨rfl, rfl, s, rfl, hmissing⟩
      exact ⟨s, hmissing, rfl, rfl, rfl⟩

/-! ## Looking up -/

theorem given?_append (rows later : List BindingRow) (languages : List Language) (lenient : Bool) :
    given? ⟨rows ++ later, languages, lenient⟩ kind language =
      (given? ⟨later, languages, lenient⟩ kind language).or
        (given? ⟨rows, languages, lenient⟩ kind language) := by
  simp only [given?, List.reverse_append, List.find?_append, Option.map_or]

theorem binding?_of_strict (hstrict : registry.lenient = false) :
    registry.binding? kind language = registry.given? kind language := by
  unfold binding?
  cases registry.given? kind language <;> simp [hstrict]

/-- What the copies bind is missing, and is bound to the integer binding. -/
theorem missing_of_given?_copies {languages : List Language} {lenient : Bool} {binding : Binding}
    (h : given? ⟨registry.languages.flatMap registry.copies, languages, lenient⟩ kind language =
      some binding) :
    registry.given? kind language = none ∧ kind.isComposite = false ∧
      registry.given? (.scalar .integer) language = some binding := by
  obtain ⟨language', -, hcopy⟩ := List.mem_flatMap.1 (row_of_given? h)
  obtain ⟨rfl, hinteger, s, rfl, hmissing⟩ := mem_copies.1 hcopy
  exact ⟨hmissing, rfl, hinteger⟩

/-- What is missing is bound by the copies, as far as there is an integer binding. -/
theorem given?_copies {languages : List Language} {lenient : Bool} {s : Scalar}
    (hlanguage : language ∈ registry.languages)
    (hmissing : registry.given? (.scalar s) language = none) :
    given? ⟨registry.languages.flatMap registry.copies, languages, lenient⟩ (.scalar s) language =
      registry.given? (.scalar .integer) language := by
  cases hinteger : registry.given? (.scalar .integer) language with
  | none =>
    refine Option.eq_none_iff_forall_ne_some.2 fun binding h => ?_
    simpa [hinteger] using (missing_of_given?_copies h).2.2
  | some integer =>
    have hrow : ⟨.scalar s, language, integer⟩ ∈ registry.languages.flatMap registry.copies :=
      List.mem_flatMap.2 ⟨language, hlanguage, mem_copies.2 ⟨rfl, hinteger, s, rfl, hmissing⟩⟩
    have hgiven : (given? ⟨registry.languages.flatMap registry.copies, languages, lenient⟩
        (.scalar s) language).isSome = true :=
      given?_isSome.trans (isGiven_iff.2 ⟨_, hrow, rfl, rfl⟩)
    obtain ⟨binding, h⟩ := Option.isSome_iff_exists.1 hgiven
    rw [hinteger.symm.trans (missing_of_given?_copies h).2.2]
    exact h

/-- **A lookup in the filled rows finds what the fallback finds.** -/
theorem given?_filledRows {languages : List Language} {lenient : Bool}
    (hlenient : registry.lenient = true) (hlanguage : language ∈ registry.languages) :
    given? ⟨registry.filledRows, languages, lenient⟩ kind language =
      registry.binding? kind language := by
  have hrows : given? ⟨registry.rows, languages, lenient⟩ kind language =
      registry.given? kind language := rfl
  rw [filledRows, given?_append, hrows, binding?]
  cases hgiven : registry.given? kind language with
  | some binding =>
    have hcopies : given? ⟨registry.languages.flatMap registry.copies, languages, lenient⟩ kind
        language = none := by
      refine Option.eq_none_iff_forall_ne_some.2 fun copied h => ?_
      simpa [hgiven] using (missing_of_given?_copies h).1
    rw [hcopies, Option.none_or]
  | none =>
    rw [Option.or_none]
    cases kind with
    | scalar s => simpa [hlenient, Kind.isComposite] using given?_copies hlanguage hgiven
    | container c =>
      simp only [Kind.isComposite, Bool.not_true, Bool.and_false, Bool.false_eq_true, if_false]
      refine Option.eq_none_iff_forall_ne_some.2 fun copied h => ?_
      simpa [Kind.isComposite] using (missing_of_given?_copies h).2.1

/-- **The fallback equals filling the gaps.** Where a lenient registry can be built, the rows with
copies of the integer bindings make a strict one, and in the listed languages the two give the same
starter, the same harness and the same program for a test case, or the same error. -/
theorem lenient_eq_filled {rows : List BindingRow} {languages : List Language}
    {registry : Registry} (h : ofRows rows languages true = .ok registry) :
    ∃ strict, ofRows registry.filledRows languages false = .ok strict ∧
      ∀ language ∈ languages, ∀ backends signature,
        (∀ stubOnly, Generator.generate ⟨registry, backends⟩ signature stubOnly language =
          Generator.generate ⟨strict, backends⟩ signature stubOnly language) ∧
        ∀ styles body test caseNo,
          Materializer.materialize ⟨registry, backends, styles⟩ signature language body test
            caseNo =
          Materializer.materialize ⟨strict, backends, styles⟩ signature language body test
            caseNo := by
  obtain ⟨rfl, hgaps⟩ := ofRows_eq_ok.1 h
  let lenient : Registry := ⟨rows, languages, true⟩
  let strict : Registry := ⟨lenient.filledRows, languages, false⟩
  have hbinding : ∀ language ∈ languages, ∀ kind,
      strict.binding? kind language = lenient.binding? kind language :=
    fun language hlanguage kind =>
      (binding?_of_strict rfl).trans (given?_filledRows rfl hlanguage)
  have hagree : ∀ language ∈ languages, lenient.AgreeOn strict language := by
    intro language hlanguage kind
    simp only [lookup, hbinding language hlanguage kind]
  -- what is bound in the lenient registry is bound in the strict one, so it has no gaps either
  have hstrict : strict.gaps = [] := by
    refine gaps_eq_nil.2 fun language hlanguage kind => ?_
    rw [← binding?_isSome, hbinding language hlanguage kind, binding?_isSome]
    exact gaps_eq_nil.1 hgaps language hlanguage kind
  refine ⟨strict, ofRows_eq_ok.2 ⟨rfl, hstrict⟩, fun language hlanguage backends signature => ?_⟩
  exact ⟨Generator.generate_of_agreeOn (hagree language hlanguage) backends signature,
    fun styles => Materializer.materialize_of_agreeOn (hagree language hlanguage) backends styles
      signature⟩

/-- With integers and the composites alone, a starter and a program with a real and a text are those
of the filled registry. -/
theorem lenient_eq_filled_python :
    let kinds : List Kind := [.scalar .integer, .container .array, .container .map, .container .set]
    let rows : List BindingRow := kinds.map fun kind => ⟨kind, .python, Target.Python.bindings kind⟩
    let registry : Registry := ⟨rows, [.python], true⟩
    let signature : Signature := ⟨[⟨"x", .scalar .double, none⟩], .composite .array .string⟩
    let test : TestCase := ⟨"a", [.number (.int 1)], .array [.string "b"], true⟩
    ofRows rows [.python] true = .ok registry ∧
    registry.filledRows.length = 10 ∧
    ∃ strict, ofRows registry.filledRows [.python] false = .ok strict ∧
      Generator.generate ⟨registry, [.python]⟩ signature true .python =
        Generator.generate ⟨strict, [.python]⟩ signature true .python ∧
      Materializer.materialize ⟨registry, [.python], [.python]⟩ signature .python "" test 1 =
        Materializer.materialize ⟨strict, [.python], [.python]⟩ signature .python "" test 1 := by
  intro kinds rows registry signature test
  have h : ofRows rows [.python] true = .ok registry := by decide
  obtain ⟨strict, hstrict, hprograms⟩ := lenient_eq_filled h
  obtain ⟨hgenerate, hmaterialize⟩ := hprograms .python (by simp) [.python] signature
  exact ⟨h, by decide, strict, hstrict, hgenerate true, hmaterialize [.python] "" test 1⟩

end Registry

end StructuredCall
