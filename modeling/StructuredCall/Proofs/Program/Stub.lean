import StructuredCall.Proofs.Program.Clash

/-!
# The stub in every program

A candidate is shown the stub in a starter, and writes code for it that is judged in another
program. The stub is the same in both: the same lines stand there, one behind another, in the
starter, in the harness and in the program of each test case.

What a writer does with a step depends on what is written already only when it is an empty line
that may be left out. There is no such step in a stub, so its lines depend on the depth alone
(`Writer.lines_run`).

Main result: `Signature.stub_in_every_program`.
-/

namespace StructuredCall

/-! ## Writing at a depth -/

namespace Writer

/-- The lines of the text that steps write at a depth. -/
def written (indentUnit : String) (depth : Nat) (steps : List Step) : List (List Char) :=
  (({ indentUnit, depth } : Writer).run steps).lines.flatMap fun line =>
    Text.pieces '\n' line.toList

theorem run_append (writer : Writer) (steps more : List Step) :
    writer.run (steps ++ more) = (writer.run steps).run more :=
  List.foldl_append

theorem depth_run (writer : Writer) (steps : List Step) :
    (writer.run steps).depth = Step.depthAfter writer.depth steps := by
  induction steps generalizing writer with
  | nil => rfl
  | cons step steps ih =>
    show ((writer.step step).run steps).depth = _
    rw [ih, Step.depth_step, ← Step.depthAfter_append, List.singleton_append]

theorem lines_prefix_run (writer : Writer) (steps : List Step) :
    writer.lines <+: (writer.run steps).lines := by
  induction steps generalizing writer with
  | nil => exact List.prefix_rfl
  | cons step steps ih =>
    refine List.IsPrefix.trans ?_ (ih (writer.step step))
    cases step with
    | line text => exact List.prefix_append _ _
    | block text =>
      rw [step, foldl_line]
      exact List.prefix_append _ _
    | blank =>
      rw [step, blank]
      split
      · exact List.prefix_rfl
      · exact List.prefix_append _ _
    | indent | dedent => exact List.prefix_rfl

/-- A step other than an empty line writes the same whatever stands before it. -/
theorem lines_step (writer : Writer) {step : Step} (h : step ≠ .blank) :
    (writer.step step).lines = writer.lines ++
      (({ indentUnit := writer.indentUnit, depth := writer.depth } : Writer).step step).lines := by
  cases step with
  | blank => exact absurd rfl h
  | line text => rfl
  | block text => simp [Writer.step, foldl_line]
  | indent | dedent => exact (List.append_nil _).symm

/-- So do steps among which there is no empty line. -/
theorem lines_run (writer : Writer) {steps : List Step} (h : .blank ∉ steps) :
    (writer.run steps).lines = writer.lines ++
      (({ indentUnit := writer.indentUnit, depth := writer.depth } : Writer).run steps).lines := by
  induction steps generalizing writer with
  | nil => exact (List.append_nil _).symm
  | cons step steps ih =>
    rw [List.mem_cons, not_or] at h
    let fresh : Writer := { indentUnit := writer.indentUnit, depth := writer.depth }
    have hwriter := ih (writer.step step) h.2
    have hfresh := ih (fresh.step step) h.2
    rw [indentUnit_step, Step.depth_step] at hwriter hfresh
    show ((writer.step step).run steps).lines = writer.lines ++ ((fresh.step step).run steps).lines
    rw [hwriter, hfresh, lines_step writer (Ne.symm h.1), List.append_assoc]

theorem written_append (indentUnit : String) (depth : Nat) (steps : List Step) {more : List Step}
    (h : .blank ∉ more) : written indentUnit depth (steps ++ more) =
      written indentUnit depth steps ++
        written indentUnit (Step.depthAfter depth steps) more := by
  rw [written, run_append, lines_run _ h, List.flatMap_append, indentUnit_run, depth_run]
  rfl

/-- The first steps of a program write the first lines of its text. -/
theorem written_prefix_layout (indentUnit : String) (steps behind : List Step) :
    written indentUnit 0 steps <+:
      Text.pieces '\n' (layout indentUnit (steps ++ behind)).toList := by
  obtain ⟨more, hmore⟩ := lines_prefix_run (({ indentUnit } : Writer).run steps) behind
  rw [layout, pieces_text, run_append, ← hmore, List.flatMap_append, List.append_assoc]
  exact List.prefix_append _ _

/-- The lines of steps stand one behind another in the text of a program with these steps. -/
theorem written_infix_layout (indentUnit : String) {depth : Nat} {ahead steps : List Step}
    (behind : List Step) (hdepth : Step.depthAfter 0 ahead = depth) (h : .blank ∉ steps) :
    written indentUnit depth steps <:+:
      Text.pieces '\n' (layout indentUnit (ahead ++ steps ++ behind)).toList := by
  let start := ({ indentUnit } : Writer).run ahead
  obtain ⟨more, hmore⟩ := lines_prefix_run (start.run steps) behind
  have hstart : start.indentUnit = indentUnit ∧ start.depth = depth :=
    ⟨indentUnit_run _ ahead, (depth_run _ ahead).trans hdepth⟩
  rw [lines_run start h, hstart.1, hstart.2] at hmore
  rw [layout, pieces_text, run_append, run_append, ← hmore, List.flatMap_append,
    List.flatMap_append]
  exact (List.infix_append _ _ _).trans (List.prefix_append _ _).isInfix

end Writer

namespace Language

theorem oneLine_indented (language : Language) (depth : Nat) {text : String}
    (h : Text.OneLine text) :
    Text.OneLine (Writer.indented language.target.backend.indentUnit depth text) := by
  unfold Writer.indented
  split
  · decide
  · next hne =>
    have hplain : Ruling.Plain fun (_ : Unit) text => text ≠ "" ∧ Text.OneLine text :=
      fun _ _ h => h
    exact hplain.oneLine (s := ()) language.oneLine_indentUnit
      ⟨depth, text, ⟨by simpa using hne, h⟩, rfl⟩

theorem written_lines (language : Language) (depth : Nat) {texts : List String}
    (h : ∀ text ∈ texts, Text.OneLine text) :
    Writer.written language.target.backend.indentUnit depth (texts.map .line) =
      texts.map fun text =>
        (Writer.indented language.target.backend.indentUnit depth text).toList := by
  have hrun : ({ indentUnit := language.target.backend.indentUnit, depth } : Writer).run
      (texts.map .line) = texts.foldl Writer.line
        { indentUnit := language.target.backend.indentUnit, depth } := List.foldl_map
  rw [Writer.written, hrun, Writer.foldl_line, List.nil_append, List.flatMap_map,
    List.map_eq_flatMap]
  exact List.flatMap_congr fun text htext =>
    Text.pieces_of_not_mem (language.oneLine_indented depth (h text htext))

end Language

/-! ## The parts of a stub -/

/-- What a stub is made of, up to what stands inside. -/
structure Stub where
  doc : List Step
  opening : String
  /-- The value that an empty stub returns. -/
  value : String

namespace Language

variable (language : Language)

/-- The lines of steps at the level of functions, or deeper. -/
def unitLines (deeper : Nat) (steps : List Step) : List (List Char) :=
  Writer.written language.target.backend.indentUnit (language.unitDepth + deeper) steps

/-- The lines of a candidate's code inside the stub. -/
def bodyLines (body : String) : List (List Char) :=
  language.unitLines 1 [.block body]

/-- The lines that end a block. -/
def closingLines : List (List Char) :=
  language.unitLines 0 (language.target.backend.blockEnd.map Step.line).toList

end Language

namespace Stub

variable {language : Language} {ctx : Context} {stub : Stub}

/-- A stub is the one of a context. -/
structure IsOf (stub : Stub) (language : Language) (ctx : Context) : Prop where
  doc : language.target.backend.stubDoc ctx = .ok stub.doc
  opening : language.target.backend.signatureLine ctx = .ok stub.opening
  value : ctx.defaultValue = .ok stub.value

/-- The documentation and the signature. -/
def openingLines (stub : Stub) (language : Language) : List (List Char) :=
  language.unitLines 0 (stub.doc ++ [.line stub.opening])

/-- The remark, and the statement that returns the value. -/
def placeholderLines (stub : Stub) (language : Language) : List (List Char) :=
  language.unitLines 1 [.line (language.target.backend.comment stubRemark),
    .line (language.target.backend.returnStatement stub.value)]

/-- What stands inside: a candidate's code, or the remark and the value. -/
def innerLines (stub : Stub) (language : Language) : Option String → List (List Char)
  | some body => language.bodyLines body
  | none => stub.placeholderLines language

/-- The lines of the stub, with a body or without. -/
def lines (stub : Stub) (language : Language) (body : Option String) : List (List Char) :=
  stub.openingLines language ++ stub.innerLines language body ++ language.closingLines

theorem exists_docLines {doc : List Step} (h : language.target.backend.stubDoc ctx = .ok doc) :
    ∃ texts : List String, doc = texts.map .line := by
  cases language with
  | javaScript =>
    obtain ⟨parameters, -, h⟩ := Compiled.bind_eq_ok.1 h
    obtain ⟨returns, -, h⟩ := Compiled.bind_eq_ok.1 h
    cases h
    exact ⟨"/**" :: (parameters ++ [" * @returns \x7b" ++ returns ++ "\x7d", " */"]), by simp⟩
  | r =>
    obtain ⟨parameters, -, h⟩ := Compiled.bind_eq_ok.1 h
    obtain ⟨returns, -, h⟩ := Compiled.bind_eq_ok.1 h
    cases h
    exact ⟨parameters ++ ["#' @return " ++ returns], by simp⟩
  | _ =>
    cases h
    exact ⟨[], rfl⟩

/-- Nothing in a stub depends on what stands above it, and its lines come in three parts. -/
theorem unitLines_steps {head inner : List Step} (hhead : .blank ∉ head) (hinner : .blank ∉ inner)
    (hheadDepth : ∀ depth, Step.depthAfter depth head = depth)
    (hinnerDepth : ∀ depth, Step.depthAfter depth inner = depth) :
    let steps := head ++ [.indent] ++ inner ++ [.dedent] ++
      (language.target.backend.blockEnd.map Step.line).toList
    .blank ∉ steps ∧ language.unitLines 0 steps =
      language.unitLines 0 head ++ language.unitLines 1 inner ++ language.closingLines := by
  have hend : Step.blank ∉ (language.target.backend.blockEnd.map Step.line).toList := by simp
  have hindent (unit : String) (depth : Nat) : Writer.written unit depth [.indent] = [] := rfl
  have hdedent (unit : String) (depth : Nat) : Writer.written unit depth [.dedent] = [] := rfl
  constructor
  · simp [hhead, hinner]
  · simp only [Language.closingLines, Language.unitLines, Writer.written_append _ _ _ hend,
      Writer.written_append _ _ _ hinner,
      Writer.written_append _ _ _ (by decide : Step.blank ∉ [Step.indent]),
      Writer.written_append _ _ _ (by decide : Step.blank ∉ [Step.dedent]), hindent, hdedent,
      Step.depthAfter_append, hheadDepth, hinnerDepth, Step.depthAfter, List.append_nil,
      Nat.add_zero, Nat.add_sub_cancel]

theorem stub_eq_ok (h : stub.IsOf language ctx) {body : Option String} {inner : List Step}
    (hinner : language.target.backend.stubBody ctx body = .ok inner) :
    language.target.backend.stub ctx body = .ok (stub.doc ++ [.line stub.opening] ++ [.indent] ++
      inner ++ [.dedent] ++ (language.target.backend.blockEnd.map Step.line).toList) := by
  simp only [Backend.stub, h.doc, h.opening, hinner, Compiled.ok_bind]
  simp [pure, Except.pure]

/-- The lines of the stub in a program, for any steps around it. -/
theorem exists_steps (h : stub.IsOf language ctx) (body : Option String) :
    ∃ steps, language.target.backend.stub ctx body = .ok steps ∧ .blank ∉ steps ∧
      language.unitLines 0 steps = stub.lines language body := by
  obtain ⟨texts, htexts⟩ := exists_docLines h.doc
  have hhead : .blank ∉ stub.doc ++ [.line stub.opening] := by simp [htexts]
  have hheadDepth : ∀ depth, Step.depthAfter depth (stub.doc ++ [.line stub.opening]) = depth := by
    simp [htexts, Step.depthAfter_append, Step.depthAfter_lines, Step.depthAfter]
  cases body with
  | none =>
    have hinner : language.target.backend.stubBody ctx none =
        .ok [.line (language.target.backend.comment stubRemark),
          .line (language.target.backend.returnStatement stub.value)] := by
      simp only [Backend.stubBody, h.value, Compiled.ok_bind]
      rfl
    exact ⟨_, stub_eq_ok h hinner,
      unitLines_steps hhead (by simp) hheadDepth fun _ => rfl⟩
  | some body =>
    exact ⟨_, stub_eq_ok h rfl, unitLines_steps hhead (by simp) hheadDepth fun _ => rfl⟩

theorem exists_stub (language : Language) (signature : Signature) :
    ∃ stub : Stub, ∀ ctx : Context, ctx.signature = signature →
      ctx.Bound language.target.bindings → stub.IsOf language ctx := by
  let table := language.target.bindings
  obtain ⟨doc, hdoc⟩ : Settled table signature _ := language.determined_stubDoc.settled
  obtain ⟨opening, hopening⟩ : Settled table signature _ :=
    language.determined_signatureLine.settled
  obtain ⟨value, hvalue⟩ : Settled table signature _ := Determined.defaultValue.settled
  exact ⟨⟨doc, opening, value⟩, fun ctx hsignature hctx =>
    ⟨hdoc ctx hsignature hctx, hopening ctx hsignature hctx, hvalue ctx hsignature hctx⟩⟩

/-! ## Around a stub -/

/-- Ahead of the stub, programs reach the depth of functions. -/
theorem depth_ahead (language : Language) :
    let backend := language.target.backend
    Step.depthAfter 0 (backend.imports .starter ++ [.blank] ++ backend.openUnit) =
      language.unitDepth ∧
    Step.depthAfter 0 (backend.imports .harness ++ [.blank] ++ backend.helpers ++ [.blank] ++
      backend.openUnit) = language.unitDepth ∧
    Step.depthAfter 0 (language.target.style.prelude backend ++ [.blank] ++ backend.openUnit) =
      language.unitDepth := by
  obtain ⟨hharness, hcase, -⟩ := language.defines_ahead
  refine ⟨?_, hharness.depth, hcase.depth⟩
  cases language <;> rfl

theorem infix_layout (language : Language) {ahead steps : List Step} (behind : List Step)
    (hdepth : Step.depthAfter 0 ahead = language.unitDepth) (h : .blank ∉ steps) :
    language.unitLines 0 steps <:+: Text.pieces '\n'
      (layout language.target.backend.indentUnit (ahead ++ steps ++ behind)).toList :=
  Writer.written_infix_layout _ behind hdepth h

/-! ## In programs -/

section

variable {registry : Registry} {signature : Signature}

theorem infix_generated {backends : Backends} (hbackend : language ∈ backends)
    (h : ∀ purpose, stub.IsOf language ⟨signature, registry, language, purpose⟩) {stubOnly : Bool}
    {code : String}
    (hcode : Generator.generate ⟨registry, backends⟩ signature stubOnly language = .ok code) :
    stub.lines language none <:+: Text.pieces '\n' code.toList := by
  obtain ⟨hstarter, hharness, -⟩ := depth_ahead language
  rw [Generator.generate_eq hbackend] at hcode
  obtain ⟨program, hprogram, rfl⟩ := Compiled.map_eq_ok.1 hcode
  cases stubOnly with
  | true =>
    obtain ⟨steps, hsteps, hsolid, hlines⟩ := exists_steps (h .starter) none
    obtain ⟨steps', hsteps', hprogram⟩ := Compiled.bind_eq_ok.1 hprogram
    obtain rfl : steps = steps' := Except.ok.inj (hsteps.symm.trans hsteps')
    cases hprogram
    rw [← hlines]
    exact infix_layout language _ hstarter hsolid
  | false =>
    obtain ⟨steps, hsteps, hsolid, hlines⟩ := exists_steps (h .harness) none
    obtain ⟨steps', hsteps', hprogram⟩ := Compiled.bind_eq_ok.1 hprogram
    obtain ⟨harness, -, hprogram⟩ := Compiled.bind_eq_ok.1 hprogram
    obtain rfl : steps = steps' := Except.ok.inj (hsteps.symm.trans hsteps')
    cases hprogram
    rw [← hlines]
    -- no empty line is asked for inside the stub, so what stands around it does not matter
    have hinfix := infix_layout language
      ([.blank] ++ harness ++ language.target.backend.closeUnit) hharness hsolid
    simpa only [List.append_assoc] using hinfix

/-- Where the stub stands in the program of a test case. -/
theorem exists_stub_of_case {body : String} {test : TestCase} {caseNo : Nat}
    {literals : List Literal} {program : List Step}
    (h : language.target.style.program language.target.backend ctx body test caseNo literals =
      .ok program) :
    ∃ steps, language.target.backend.stub ctx
        (if Text.isBlankText body then none else some body) = .ok steps ∧
      language.target.style.prelude language.target.backend ++ [.blank] ++
        language.target.backend.openUnit ++ steps ++ ([.blank] ++ language.target.style.support ++
          [.blank] ++ language.target.backend.openMain) <+: program := by
  obtain ⟨steps, declared, call, rendered, output, hsteps, -, -, -, -, rfl⟩ :=
    CaseStyle.program_eq_ok h
  refine ⟨steps, hsteps, ?_⟩
  simp only [List.append_assoc, List.prefix_append_right_inj]
  exact List.prefix_append _ _

/-- The program of a test case has the stub with the body in it; a blank body leaves it empty. -/
theorem infix_materialized {materializer : Materializer}
    (h : stub.IsOf language ⟨signature, materializer.registry, language, .materialized⟩)
    {body : String} {test : TestCase} {caseNo : Nat} {code : String}
    (hcode : materializer.materialize signature language body test caseNo = .ok code) :
    stub.lines language (if Text.isBlankText body then none else some body) <:+:
      Text.pieces '\n' code.toList := by
  obtain ⟨-, -, hcase⟩ := depth_ahead language
  obtain ⟨literals, program, -, hprogram, rfl⟩ := Materializer.materialize_eq_ok hcode
  obtain ⟨steps, hsteps, hsolid, hlines⟩ :=
    exists_steps h (if Text.isBlankText body then none else some body)
  obtain ⟨steps', hsteps', behind, rfl⟩ := exists_stub_of_case hprogram
  obtain rfl : steps = steps' := Except.ok.inj (hsteps.symm.trans hsteps')
  rw [← hlines, List.append_assoc]
  exact infix_layout language _ hcase hsolid

end

end Stub

/-! ## All signatures -/

namespace Signature

/-- **The stub that is shown is the stub that is judged.** For every signature, with a source or
without, there is one stub in each language. Its lines are the same for all purposes. They stand one
behind another in the starter, in the harness and, for a blank body, in the program of each test
case that fits. For another body, the same documentation, signature and end of the block stand
there around the lines of the body. -/
theorem stub_in_every_program (signature : Signature) (language : Language) :
    ∃ stub : Stub,
      (∀ lenient registry purpose, Registry.standard lenient = .ok registry →
        stub.IsOf language ⟨signature, registry, language, purpose⟩ ∧
        ∃ steps, language.target.backend.stub ⟨signature, registry, language, purpose⟩ none =
          .ok steps ∧ language.unitLines 0 steps = stub.lines language none) ∧
      (∀ lenient generator stubOnly, Generator.standard lenient = .ok generator →
        ∃ code, generator.generate signature stubOnly language = .ok code ∧
          stub.lines language none <:+: Text.pieces '\n' code.toList) ∧
      ∀ lenient materializer body test caseNo, Materializer.standard lenient = .ok materializer →
        test.Fits signature →
        ∃ code, materializer.materialize signature language body test caseNo = .ok code ∧
          stub.lines language (if Text.isBlankText body then none else some body) <:+:
            Text.pieces '\n' code.toList := by
  obtain ⟨stub, hstub⟩ := Stub.exists_stub language signature
  have hcontext : ∀ lenient registry purpose, Registry.standard lenient = .ok registry →
      stub.IsOf language ⟨signature, registry, language, purpose⟩ :=
    fun lenient registry purpose hregistry =>
      hstub _ rfl (Registry.binds_of_standard hregistry language)
  refine ⟨stub, ?_, ?_, ?_⟩
  · intro lenient registry purpose hregistry
    have hof := hcontext lenient registry purpose hregistry
    obtain ⟨steps, hsteps, -, hlines⟩ := Stub.exists_steps hof none
    exact ⟨hof, steps, hsteps, hlines⟩
  · intro lenient generator stubOnly hgenerator
    obtain ⟨registry, hregistry, hgenerator⟩ := Compiled.bind_eq_ok.1 hgenerator
    cases hgenerator
    obtain ⟨code, hcode⟩ := Generator.exists_generate language.mem_all
      (fun kind => ⟨_, Registry.binds_of_standard hregistry language kind⟩) signature stubOnly
    exact ⟨code, hcode, Stub.infix_generated language.mem_all
      (fun purpose => hcontext lenient registry purpose hregistry) hcode⟩
  · intro lenient materializer body test caseNo hmaterializer hfits
    rw [Materializer.standard_eq] at hmaterializer
    cases hmaterializer
    obtain ⟨literals, hliterals⟩ := Literal.exists_ofCase_iff.2 hfits
    obtain ⟨code, hcode⟩ := Materializer.materialize_of_decoded
      (Materializer.covers_standard lenient language) signature body caseNo hliterals
    exact ⟨code, hcode, Stub.infix_materialized
      (hcontext lenient _ .materialized (Registry.standard_eq lenient)) hcode⟩

/-- The stub of Java, with a body and without. -/
theorem stub_in_every_program_java :
    let registry : Registry := ⟨Registry.standardRows, Language.all, false⟩
    let materializer : Materializer := ⟨registry, Language.all, Language.all⟩
    let signature : Signature := ⟨[⟨"n", .scalar .integer, none⟩], .scalar .integer⟩
    let test : TestCase := ⟨"a", [.number (.int 1)], .number (.int 2), true⟩
    let block (inner : List String) : List (List Char) :=
      (["    public static int execute(int n) \x7b"] ++ inner ++ ["    \x7d"]).map String.toList
    Signature.ofSource "integer -> n\ninteger -> return" = .ok signature ∧
    (∃ code, Generator.generate ⟨registry, Language.all⟩ signature true .java = .ok code ∧
      block ["        // Write your code here", "        return 0;"] <:+:
        Text.pieces '\n' code.toList) ∧
    ∃ code, materializer.materialize signature .java "return n + 1;" test 1 = .ok code ∧
      block ["        return n + 1;"] <:+: Text.pieces '\n' code.toList := by
  intro registry materializer signature test block
  have hfits : test.Fits signature := ⟨rfl, List.forall_mem_singleton.2 ⟨_, rfl⟩⟩
  obtain ⟨⟨doc, opening, value⟩, hstub, hgenerated, hmaterialized⟩ :=
    stub_in_every_program signature .java
  obtain ⟨⟨hdoc, hopening, hvalue⟩, -⟩ := hstub false registry .starter (Registry.standard_eq false)
  obtain rfl : [] = doc := Except.ok.inj hdoc
  have hopening' : Language.java.target.backend.signatureLine
      ⟨signature, registry, .java, .starter⟩ =
        .ok "public static int execute(int n) \x7b" := by decide +kernel
  have hvalue' : Context.defaultValue ⟨signature, registry, .java, .starter⟩ = .ok "0" := by
    decide +kernel
  obtain rfl := Except.ok.inj (hopening'.symm.trans hopening)
  obtain rfl := Except.ok.inj (hvalue'.symm.trans hvalue)
  obtain ⟨code, hcode, hinfix⟩ := hgenerated false ⟨registry, Language.all⟩ true rfl
  obtain ⟨code', hcode', hinfix'⟩ :=
    hmaterialized false materializer "return n + 1;" test 1 (Materializer.standard_eq false) hfits
  refine ⟨by decide +kernel, ⟨code, hcode, ?_⟩, code', hcode', ?_⟩
  · have hlines : Stub.lines ⟨[], "public static int execute(int n) \x7b", "0"⟩ .java none =
        block ["        // Write your code here", "        return 0;"] := by decide +kernel
    exact hlines ▸ hinfix
  · have hlines : Stub.lines ⟨[], "public static int execute(int n) \x7b", "0"⟩ .java
        (if Text.isBlankText "return n + 1;" then none else some "return n + 1;") =
          block ["        return n + 1;"] := by decide +kernel
    exact hlines ▸ hinfix'

end Signature

end StructuredCall
