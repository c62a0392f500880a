import Mathlib.Data.List.Forall2
import StructuredCall.Materializer
import StructuredCall.Proofs.Literal.Decoded
import StructuredCall.Proofs.Program.Determined

/-!
# Which test cases become programs

A test case becomes a program exactly when it has one value for every input and each value decodes
at the input's type. A test case for which that is not so is itself to blame: the wrong number of
values comes first, then the first value that does not decode. Nothing else ends in an error; in
particular every kind that the program asks for is bound, and every literal has the shape of its
type.

After decoding, all that is left of the values is that each literal has its input's type
(`Literal.hasType_of_decode`), which is what makes every further step succeed
(`Language.determined_caseProgram`).

Main result: `Materializer.materialize_classified`.
-/

namespace StructuredCall

/-! ## Test cases and signatures -/

namespace TestCase

/-- There is one value for every input, and each decodes at the input's type. -/
structure Fits (test : TestCase) (signature : Signature) : Prop where
  count : test.input.length = signature.inputs.length
  decodes : ∀ pair ∈ signature.inputs.zip test.input,
    ∃ literal, Literal.decode pair.1.type pair.2 = .ok literal

/-- Why a test case does not fit: its number of values, or else the first value that does not
decode. -/
inductive Misfit (test : TestCase) (signature : Signature) : CaseError → Prop
  | count (h : test.input.length ≠ signature.inputs.length) :
    Misfit test signature (.inputCount signature.inputs.length test.input.length)
  | undecodable {before after : List (Parameter × Json)} {input : Parameter} {value : Json}
    {cause : DecodeError} (count : test.input.length = signature.inputs.length)
    (split : signature.inputs.zip test.input = before ++ (input, value) :: after)
    (earlier : ∀ pair ∈ before, ∃ literal, Literal.decode pair.1.type pair.2 = .ok literal)
    (fails : Literal.decode input.type value = .error cause) :
    Misfit test signature (.undecodable input.name cause)

end TestCase

theorem forall_mem_zipIdx {α : Type} (p : α → Prop) (xs : List α) (n : Nat) :
    (∀ numbered ∈ xs.zipIdx n, p numbered.1) ↔ ∀ x ∈ xs, p x := by
  conv_rhs => rw [← List.zipIdx_map_fst n xs]
  exact (List.forall_mem_map (f := Prod.fst)).symm

namespace Literal

/-- Each of the literals is what a value decodes to at its input's type. -/
abbrev Decode (pairs : List (Parameter × Json)) (literals : List Literal) : Prop :=
  List.Forall₂ (fun pair literal => decode pair.1.type pair.2 = .ok literal) pairs literals

theorem decodeInputs_eq_ok {inputs : List Parameter} {values : List Json}
    {literals : List Literal} :
    decodeInputs inputs values = .ok literals ↔ Decode (inputs.zip values) literals := by
  induction inputs generalizing values literals with
  | nil => cases values <;> simp [decodeInputs, Decode, eq_comm]
  | cons input inputs ih =>
    cases values with
    | nil => simp [decodeInputs, Decode, eq_comm]
    | cons value values =>
      rw [decodeInputs, List.zip_cons_cons]
      cases hvalue : decode input.type value with
      | error e =>
        simp only [reduceCtorEq, false_iff]
        intro h
        cases h with
        | cons hpair => rw [hvalue] at hpair; cases hpair
      | ok literal =>
        simp only [Compiled.map_eq_ok]
        constructor
        · rintro ⟨rest, hrest, rfl⟩
          exact .cons hvalue (ih.1 hrest)
        · intro h
          cases h with
          | cons hpair hpairs =>
            rw [hvalue] at hpair
            cases hpair
            exact ⟨_, ih.2 hpairs, rfl⟩

/-- The pair at which decoding stops: those before it decode, and it does not. -/
def Stops (pairs : List (Parameter × Json)) (e : CaseError) : Prop :=
  ∃ before input value after cause, pairs = before ++ (input, value) :: after ∧
    (∀ pair ∈ before, ∃ literal, decode pair.1.type pair.2 = .ok literal) ∧
    decode input.type value = .error cause ∧ e = .undecodable input.name cause

theorem stops_cons_of_error {input : Parameter} {value : Json} {cause : DecodeError}
    (h : decode input.type value = .error cause) (pairs : List (Parameter × Json)) {e : CaseError} :
    Stops ((input, value) :: pairs) e ↔ e = .undecodable input.name cause := by
  constructor
  · rintro ⟨before, input', value', after, cause', hsplit, hearlier, hfails, rfl⟩
    cases before with
    | nil =>
      cases hsplit
      rw [h] at hfails
      cases hfails
      rfl
    | cons pair before =>
      cases hsplit
      obtain ⟨literal, hliteral⟩ := hearlier _ List.mem_cons_self
      rw [h] at hliteral
      cases hliteral
  · rintro rfl
    exact ⟨[], input, value, pairs, cause, rfl, by simp, h, rfl⟩

theorem stops_cons_of_ok {input : Parameter} {value : Json} {literal : Literal}
    (h : decode input.type value = .ok literal) (pairs : List (Parameter × Json)) {e : CaseError} :
    Stops ((input, value) :: pairs) e ↔ Stops pairs e := by
  constructor
  · rintro ⟨before, input', value', after, cause, hsplit, hearlier, hfails, rfl⟩
    cases before with
    | nil =>
      cases hsplit
      rw [h] at hfails
      cases hfails
    | cons pair before =>
      cases hsplit
      exact ⟨before, input', value', after, cause, rfl,
        fun pair hpair => hearlier pair (List.mem_cons_of_mem _ hpair), hfails, rfl⟩
  · rintro ⟨before, input', value', after, cause, rfl, hearlier, hfails, rfl⟩
    exact ⟨(input, value) :: before, input', value', after, cause, rfl,
      List.forall_mem_cons.2 ⟨⟨literal, h⟩, hearlier⟩, hfails, rfl⟩

theorem decodeInputs_eq_error {inputs : List Parameter} {values : List Json} {e : CaseError} :
    decodeInputs inputs values = .error e ↔ Stops (inputs.zip values) e := by
  induction inputs generalizing values with
  | nil => cases values <;> simp [decodeInputs, Stops]
  | cons input inputs ih =>
    cases values with
    | nil => simp [decodeInputs, Stops]
    | cons value values =>
      rw [decodeInputs, List.zip_cons_cons]
      cases hvalue : decode input.type value with
      | error cause =>
        rw [stops_cons_of_error hvalue]
        simp [eq_comm]
      | ok literal =>
        rw [stops_cons_of_ok hvalue, ← ih]
        cases decodeInputs inputs values <;> simp [Except.map]

theorem ofCase_eq_ok {signature : Signature} {test : TestCase} {literals : List Literal} :
    ofCase signature test = .ok literals ↔ test.input.length = signature.inputs.length ∧
      Decode (signature.inputs.zip test.input) literals := by
  unfold ofCase
  split
  · next hcount => simp [hcount]
  · next hcount => simp [decodeInputs_eq_ok, not_not.1 hcount]

/-- A test case is decoded exactly when it fits. -/
theorem exists_ofCase_iff {signature : Signature} {test : TestCase} :
    (∃ literals, ofCase signature test = .ok literals) ↔ test.Fits signature := by
  simp only [ofCase_eq_ok, exists_and_left, Decode, exists_forall₂_iff]
  exact ⟨fun ⟨count, decodes⟩ => ⟨count, decodes⟩, fun ⟨count, decodes⟩ => ⟨count, decodes⟩⟩

theorem ofCase_eq_error {signature : Signature} {test : TestCase} {e : CaseError} :
    ofCase signature test = .error e ↔ test.Misfit signature e := by
  unfold ofCase
  split
  · next hcount =>
    constructor
    · intro h
      cases h
      exact .count hcount
    · intro h
      cases h with
      | count => rfl
      | undecodable count => exact absurd count hcount
  · next hcount =>
    rw [decodeInputs_eq_error]
    constructor
    · rintro ⟨before, input, value, after, cause, hsplit, hearlier, hfails, rfl⟩
      exact .undecodable (not_not.1 hcount) hsplit hearlier hfails
    · intro h
      cases h with
      | count h => exact absurd h hcount
      | undecodable count split earlier fails =>
        exact ⟨_, _, _, _, _, split, earlier, fails, rfl⟩

theorem hasType_of_ofCase {signature : Signature} {test : TestCase} {literals : List Literal}
    (h : ofCase signature test = .ok literals) :
    List.Forall₂ (fun input literal => HasType literal input.type) signature.inputs literals := by
  obtain ⟨hcount, hvalues⟩ := ofCase_eq_ok.1 h
  have htypes : List.Forall₂ (fun input literal => HasType literal input.type)
      ((signature.inputs.zip test.input).map Prod.fst) literals :=
    List.forall₂_map_left_iff.2 (hvalues.imp fun _ _ => hasType_of_decode)
  rwa [List.map_fst_zip (Nat.le_of_eq hcount.symm)] at htypes

end Literal

/-! ## Programs -/

@[simp] theorem Judged.ofCompiled_ok {α : Type} (a : α) :
    Judged.ofCompiled (.ok a : Compiled α) = .ok a := rfl

theorem Judged.ofCompiled_eq_ok {α : Type} {result : Compiled α} {a : α} :
    Judged.ofCompiled result = .ok a ↔ result = .ok a := by
  cases result <;> simp [Judged.ofCompiled, Except.mapError]

theorem CaseStyle.program_eq_ok {style : CaseStyle} {backend : Backend} {ctx : Context}
    {body : String} {test : TestCase} {caseNo : Nat} {literals : List Literal} {steps : List Step}
    (h : style.program backend ctx body test caseNo literals = .ok steps) :
    ∃ stub declared call rendered output,
      backend.stub ctx (if Text.isBlankText body then none else some body) = .ok stub ∧
      style.allInputLines backend ctx caseNo 0 ctx.signature.inputs literals = .ok declared ∧
      backend.callLine ctx = .ok call ∧ backend.renderedResult ctx = .ok rendered ∧
      backend.declare ctx outputVariable (.scalar .string) rendered = .ok output ∧
      steps = style.prelude backend ++ [.blank] ++ backend.openUnit ++ stub ++ [.blank] ++
        style.support ++ [.blank] ++ backend.openMain ++ (hoisted declared).map .line ++
        style.measuredCall call ++ [.line output] ++
        style.record (style.outcomeRecord backend ctx.signature.returns test caseNo) ++
        backend.closeMain ++ backend.closeUnit := by
  obtain ⟨stub, hstub, h⟩ := Compiled.bind_eq_ok.1 h
  obtain ⟨declared, hdeclared, h⟩ := Compiled.bind_eq_ok.1 h
  obtain ⟨call, hcall, h⟩ := Compiled.bind_eq_ok.1 h
  obtain ⟨rendered, hrendered, h⟩ := Compiled.bind_eq_ok.1 h
  obtain ⟨output, houtput, h⟩ := Compiled.bind_eq_ok.1 h
  rw [Judged.ofCompiled_eq_ok] at hstub hcall hrendered houtput
  cases h
  exact ⟨stub, declared, call, rendered, output, hstub, hdeclared, hcall, hrendered, houtput, rfl⟩

theorem Determined.ofCompiled {α : Type} {signature : Signature} {part : Context → Compiled α}
    (h : Determined signature part) :
    Determined signature fun ctx => Judged.ofCompiled (part ctx) := by
  obtain ⟨result, hresult, hok⟩ := h
  refine ⟨fun answers => Judged.ofCompiled (result answers), fun ctx hsignature => ?_, ?_⟩
  · exact congrArg Judged.ofCompiled (hresult ctx hsignature)
  · intro answers htotal
    obtain ⟨a, ha⟩ := hok answers htotal
    exact ⟨a, Judged.ofCompiled_eq_ok.2 ha⟩

namespace Language

variable (language : Language) {signature : Signature}

theorem determined_literal? {type : DataType} {literal : Literal} (h : literal.HasType type) :
    ∃ part : Context → Compiled String, Determined signature part ∧
      ∀ ctx, language.target.style.literal? ctx type literal = some (part ctx) := by
  cases h with
  | scalar => exact ⟨_, .pure _, fun _ => rfl⟩
  | array | set | map =>
    exact ⟨_, language.determined_compositeLiteral _ _ _, fun _ => rfl⟩

theorem determined_caseInputLines (caseNo index : Nat) {input : Parameter} {literal : Literal}
    (h : literal.HasType input.type) : Determined signature fun ctx =>
      language.target.style.inputLines language.target.backend ctx caseNo index input literal := by
  obtain ⟨part, hpart, hliteral⟩ := language.determined_literal? h
  simp only [CaseStyle.inputLines, hliteral]
  refine .bind hpart.ofCompiled fun value =>
    .bind (language.determined_declare _ _ _).ofCompiled fun declaration => ?_
  split
  · exact .bind (language.determined_sizeConstant _ _).ofCompiled fun _ => .pure _
  · exact .pure _

theorem determined_allInputLines (caseNo index : Nat) {inputs : List Parameter}
    {literals : List Literal}
    (h : List.Forall₂ (fun input literal => literal.HasType input.type) inputs literals) :
    Determined signature fun ctx => language.target.style.allInputLines language.target.backend ctx
      caseNo index inputs literals := by
  induction h generalizing index with
  | nil => exact .pure []
  | cons hinput _ ih =>
    exact .bind (language.determined_caseInputLines caseNo index hinput) fun _ =>
      .bind (ih (index + 1)) fun _ => .pure _

/-- **After decoding, the program is determined**, so every step of writing it succeeds. -/
theorem determined_caseProgram (body : String) (test : TestCase) (caseNo : Nat)
    {literals : List Literal}
    (h : List.Forall₂ (fun input literal => literal.HasType input.type) signature.inputs
      literals) :
    Determined signature fun ctx =>
      language.target.style.program language.target.backend ctx body test caseNo literals := by
  refine .bind (language.determined_stub _).ofCompiled fun _ => .bind ?_ fun _ =>
    .bind language.determined_callLine.ofCompiled fun _ =>
    .bind language.determined_renderedResult.ofCompiled fun _ =>
    .bind (language.determined_declare _ _ _).ofCompiled fun _ => .read _ fun _ => rfl
  exact .of_eq (language.determined_allInputLines caseNo 0 h) (by rintro ctx rfl; rfl)

end Language

/-! ## Materializers -/

namespace Materializer

/-- The language is covered by a registry that leaves no gap, and its backend and style are
there. -/
structure Covers (materializer : Materializer) (language : Language) : Prop where
  registry : ∃ rows languages lenient,
    Registry.ofRows rows languages lenient = .ok materializer.registry ∧ language ∈ languages
  backend : language ∈ materializer.backends
  style : language ∈ materializer.styles

theorem standard_eq (lenient : Bool) : Materializer.standard lenient =
    .ok ⟨⟨Registry.standardRows, Language.all, lenient⟩, Language.all, Language.all⟩ := by
  rw [Materializer.standard, Registry.standard_eq]
  rfl

theorem binds_of_standard {lenient : Bool} {materializer : Materializer}
    (h : Materializer.standard lenient = .ok materializer) (language : Language) :
    materializer.registry.Binds language language.target.bindings := by
  rw [standard_eq] at h
  cases h
  exact Registry.standard_binds lenient language

theorem covers_standard (lenient : Bool) (language : Language) :
    Covers ⟨⟨Registry.standardRows, Language.all, lenient⟩, Language.all, Language.all⟩ language :=
  ⟨⟨_, _, _, Registry.standard_eq lenient, language.mem_all⟩, language.mem_all, language.mem_all⟩

variable {materializer : Materializer} {language : Language}

section Covered

variable (hcovers : materializer.Covers language) (signature : Signature) (body : String)
include hcovers

theorem materialize_of_decoded {test : TestCase} (caseNo : Nat) {literals : List Literal}
    (h : Literal.ofCase signature test = .ok literals) :
    ∃ code, materializer.materialize signature language body test caseNo = .ok code := by
  obtain ⟨rows, languages, lenient, hregistry, hlanguage⟩ := hcovers.registry
  obtain ⟨table, hbinds⟩ := Registry.exists_binds hregistry hlanguage
  have htotal : Answers.Total <|
      Context.answers ⟨signature, materializer.registry, language, .materialized⟩ :=
    fun kind => ⟨table kind, hbinds kind⟩
  obtain ⟨steps, hsteps⟩ :=
    (language.determined_caseProgram body test caseNo (Literal.hasType_of_ofCase h)).exists_ok
      htotal
  simp only [materialize, Backends.find, style, hcovers.backend, hcovers.style, if_true, h,
    Judged.ofCompiled_ok, Compiled.ok_bind, Except.mapError, hsteps]
  exact ⟨_, rfl⟩

theorem materialize_of_misfit {test : TestCase} (caseNo : Nat) {e : CaseError}
    (h : Literal.ofCase signature test = .error e) :
    materializer.materialize signature language body test caseNo =
      .error (.invalidTestCase caseNo e) := by
  simp only [materialize, Backends.find, style, hcovers.backend, hcovers.style, if_true, h,
    Judged.ofCompiled_ok, Compiled.ok_bind, Except.mapError]
  rfl

/-- A program comes out exactly when the test case fits. -/
theorem exists_materialize_iff {test : TestCase} {caseNo : Nat} :
    (∃ code, materializer.materialize signature language body test caseNo = .ok code) ↔
      test.Fits signature := by
  rw [← Literal.exists_ofCase_iff]
  cases h : Literal.ofCase signature test with
  | ok literals => simpa using materialize_of_decoded hcovers signature body caseNo h
  | error e => simp [materialize_of_misfit hcovers signature body caseNo h]

/-- Otherwise the error says why it does not. -/
theorem materialize_eq_error {test : TestCase} {caseNo : Nat} {e : JudgeError} :
    materializer.materialize signature language body test caseNo = .error e ↔
      ∃ cause, test.Misfit signature cause ∧ e = .invalidTestCase caseNo cause := by
  simp only [← Literal.ofCase_eq_error]
  cases h : Literal.ofCase signature test with
  | ok literals =>
    obtain ⟨code, hcode⟩ := materialize_of_decoded hcovers signature body caseNo h
    simp [hcode]
  | error cause => simp [materialize_of_misfit hcovers signature body caseNo h, eq_comm]

end Covered

/-! ### All test cases -/

/-- A program is the one of a test case with its number. -/
def ProgramOf (materializer : Materializer) (signature : Signature) (language : Language)
    (body : String) (numbered : TestCase × Nat) (program : CaseProgram) : Prop :=
  ∃ code, materializer.materialize signature language body numbered.1 numbered.2 = .ok code ∧
    program = ⟨numbered.2, numbered.1.id, language, code⟩

section Numbered

variable {signature : Signature} {body : String}

theorem materializeFrom_eq_ok {caseNo : Nat} {tests : List TestCase}
    {programs : List CaseProgram} :
    materializer.materializeFrom signature language body caseNo tests = .ok programs ↔
      List.Forall₂ (materializer.ProgramOf signature language body) (tests.zipIdx caseNo)
        programs := by
  induction tests generalizing caseNo programs with
  | nil => simp [materializeFrom, eq_comm]
  | cons test tests ih =>
    rw [materializeFrom, Compiled.bind_eq_ok, List.zipIdx_cons]
    constructor
    · rintro ⟨code, hcode, h⟩
      obtain ⟨rest, hrest, h⟩ := Compiled.bind_eq_ok.1 h
      cases h
      exact .cons ⟨code, hcode, rfl⟩ (ih.1 hrest)
    · intro h
      cases h with
      | cons hprogram hrest =>
        obtain ⟨code, hcode, rfl⟩ := hprogram
        exact ⟨code, hcode, Compiled.bind_eq_ok.2 ⟨_, ih.2 hrest, rfl⟩⟩

/-- The first test case that gives no program gives the error. -/
theorem materializeFrom_eq_error {caseNo : Nat} {tests : List TestCase} {e : JudgeError} :
    materializer.materializeFrom signature language body caseNo tests = .error e ↔
      ∃ before test after, tests = before ++ test :: after ∧
        (∀ numbered ∈ before.zipIdx caseNo, ∃ code,
          materializer.materialize signature language body numbered.1 numbered.2 = .ok code) ∧
        materializer.materialize signature language body test (caseNo + before.length) =
          .error e := by
  induction tests generalizing caseNo with
  | nil => simp [materializeFrom]
  | cons test tests ih =>
    rw [materializeFrom]
    cases hcode : materializer.materialize signature language body test caseNo with
    | error e' =>
      constructor
      · intro h
        cases h
        exact ⟨[], test, tests, rfl, by simp, hcode⟩
      · rintro ⟨before, test', after, hsplit, hearlier, hfails⟩
        cases before with
        | nil =>
          cases hsplit
          cases hcode.symm.trans hfails
          rfl
        | cons first before =>
          cases hsplit
          obtain ⟨code, hfirst⟩ := hearlier (test, caseNo) List.mem_cons_self
          rw [hcode] at hfirst
          cases hfirst
    | ok code =>
      rw [Compiled.ok_bind, Compiled.bind_pure_eq_error, ih]
      constructor
      · rintro ⟨before, test', after, rfl, hearlier, hfails⟩
        refine ⟨test :: before, test', after, rfl, ?_, ?_⟩
        · rw [List.zipIdx_cons]
          exact List.forall_mem_cons.2 ⟨⟨code, hcode⟩, hearlier⟩
        · -- the number of a case goes by its place, so one more case is ahead of it
          rw [List.length_cons, ← hfails, Nat.add_right_comm, Nat.add_assoc]
      · rintro ⟨before, test', after, hsplit, hearlier, hfails⟩
        cases before with
        | nil =>
          cases hsplit
          cases hcode.symm.trans hfails
        | cons first before =>
          cases hsplit
          rw [List.zipIdx_cons] at hearlier
          refine ⟨before, test', after, rfl, (List.forall_mem_cons.1 hearlier).2, ?_⟩
          rw [← hfails, List.length_cons, Nat.add_right_comm, Nat.add_assoc]

end Numbered

/-- **Which test cases become programs.** With a language that is covered, a test case becomes a
program exactly when it fits the signature, and otherwise the error names the case and says why it
does not fit. Many test cases become one program each, in order and numbered from one, or else the
first that does not fit gives the error. -/
theorem materialize_classified (hcovers : materializer.Covers language) (signature : Signature)
    (body : String) :
    (∀ test caseNo,
      (∃ code, materializer.materialize signature language body test caseNo = .ok code) ↔
        test.Fits signature) ∧
    (∀ test caseNo e, materializer.materialize signature language body test caseNo = .error e ↔
      ∃ cause, test.Misfit signature cause ∧ e = .invalidTestCase caseNo cause) ∧
    (∀ tests, (∃ programs, materializer.materializeAll signature language body tests = .ok programs)
      ↔ ∀ test ∈ tests, test.Fits signature) ∧
    (∀ tests programs,
      materializer.materializeAll signature language body tests = .ok programs ↔
        List.Forall₂ (materializer.ProgramOf signature language body) (tests.zipIdx 1) programs) ∧
    ∀ tests e, materializer.materializeAll signature language body tests = .error e ↔
      ∃ before test after cause, tests = before ++ test :: after ∧
        (∀ earlier ∈ before, earlier.Fits signature) ∧ test.Misfit signature cause ∧
        e = .invalidTestCase (before.length + 1) cause := by
  have hfits : ∀ test caseNo,
      (∃ code, materializer.materialize signature language body test caseNo = .ok code) ↔
        test.Fits signature := fun _ _ => exists_materialize_iff hcovers signature body
  refine ⟨hfits, fun _ _ _ => materialize_eq_error hcovers signature body, fun tests => ?_,
    fun tests programs => materializeFrom_eq_ok, fun tests e => ?_⟩
  · have hprogram : ∀ numbered, (∃ program,
        materializer.ProgramOf signature language body numbered program) ↔
          numbered.1.Fits signature := by
      intro numbered
      rw [← hfits numbered.1 numbered.2]
      exact ⟨fun ⟨_, code, hcode, _⟩ => ⟨code, hcode⟩, fun ⟨code, hcode⟩ => ⟨_, code, hcode, rfl⟩⟩
    simp only [materializeAll, materializeFrom_eq_ok, exists_forall₂_iff, hprogram]
    exact forall_mem_zipIdx (fun test : TestCase => test.Fits signature) tests 1
  · simp only [materializeAll, materializeFrom_eq_error, hfits, materialize_eq_error hcovers,
      Nat.add_comm 1]
    have hearlier : ∀ before : List TestCase,
        (∀ numbered ∈ before.zipIdx 1, numbered.1.Fits signature) ↔
          ∀ earlier ∈ before, earlier.Fits signature := fun before =>
      forall_mem_zipIdx (fun test : TestCase => test.Fits signature) before 1
    simp only [hearlier]
    constructor
    · rintro ⟨before, test, after, hsplit, hbefore, cause, hcause, he⟩
      exact ⟨before, test, after, cause, hsplit, hbefore, hcause, he⟩
    · rintro ⟨before, test, after, cause, hsplit, hbefore, hcause, he⟩
      exact ⟨before, test, after, hsplit, hbefore, cause, hcause, he⟩

/-- Of two test cases for a number and a list of numbers, the second gives a word for the
number. -/
theorem materialize_classified_second_case :
    Covers ⟨⟨Registry.standardRows, Language.all, false⟩, Language.all, Language.all⟩ .python ∧
    materializeAll ⟨⟨Registry.standardRows, Language.all, false⟩, Language.all, Language.all⟩
      ⟨[⟨"a", .scalar .integer, none⟩, ⟨"b", .composite .array .integer, none⟩], .scalar .integer⟩
      .python "return a"
      [⟨"1", [.number (.int 1), .array [.number (.int 2)]], .null, false⟩,
        ⟨"2", [.string "x", .array []], .null, false⟩] =
      .error (.invalidTestCase 2 (.undecodable "a" (.expected .integer (.string "x")))) := by
  have hcovers := covers_standard false .python
  have hfirst : TestCase.Fits ⟨"1", [.number (.int 1), .array [.number (.int 2)]], .null, false⟩
      ⟨[⟨"a", .scalar .integer, none⟩, ⟨"b", .composite .array .integer, none⟩],
        .scalar .integer⟩ := by
    refine ⟨rfl, ?_⟩
    simp only [List.zip_cons_cons, List.zip_nil_right, List.forall_mem_cons]
    exact ⟨⟨_, rfl⟩, ⟨_, rfl⟩, by simp⟩
  exact ⟨hcovers, ((materialize_classified hcovers _ _).2.2.2.2 _ _).2
    ⟨[_], _, [], _, rfl, List.forall_mem_singleton.2 hfirst,
      @TestCase.Misfit.undecodable _ _ [] _ _ _ _ rfl rfl (by simp) rfl, rfl⟩⟩

end Materializer

end StructuredCall
