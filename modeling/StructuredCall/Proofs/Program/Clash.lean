import StructuredCall.Proofs.Program.Generation
import StructuredCall.Proofs.Program.Locals

/-!
# No clash of names

The lines of a generated program are read for the names they bind. Those of the unit and those
around the inputs are always the same (`Language.scaffolds`); they are different and reserved, so an
input can have none of them, and neither can the constant for its size.

Main result: `Signature.names_never_clash`.
-/

namespace StructuredCall

open Binder

theorem Context.mem_parameters {ctx : Context} {write : String → String → String}
    {texts : List String} (h : ctx.parameters write = .ok texts) :
    ∀ text ∈ texts, ∃ name type, text = write name type := by
  unfold Context.parameters at h
  generalize ctx.signature.inputs = inputs at h
  induction inputs generalizing texts with
  | nil =>
    cases h
    simp
  | cons input inputs ih =>
    rw [List.mapM_cons] at h
    obtain ⟨text, htext, h⟩ := Compiled.bind_eq_ok.1 h
    obtain ⟨rest, hrest, h⟩ := Compiled.bind_eq_ok.1 h
    obtain ⟨type, -, htext⟩ := Compiled.bind_eq_ok.1 htext
    cases h
    cases htext
    exact List.forall_mem_cons.2 ⟨⟨_, _, rfl⟩, ih hrest⟩

namespace Language

variable {language : Language} {ctx : Context}

/-! ## Before the entry point -/

theorem isType_public (hlanguage : language ∈ [java, cSharp]) (type : DataType) :
    IsType ("public static " ++ language.target.bindings.native type) := by
  have htype : IsType (language.target.bindings.native type) := isType_native (by
    simp only [List.mem_cons, List.not_mem_nil, or_false] at hlanguage ⊢
    tauto) type
  refine ⟨?_, 'p', "ublic static ".toList ++ (language.target.bindings.native type).toList,
    by simp, by decide⟩
  rw [String.toList_append, List.all_append, htype.unended]
  decide

theorem announced_stub {keywords : List String} {keyword : String}
    (honly : ∀ rest, keywords.filter (fun k => k.toList.isPrefixOf (keyword.toList ++ rest)) =
      [keyword]) (parameters arrow type opening : String) :
    announced keywords (keyword ++ entryPoint ++ "(" ++ parameters ++ arrow ++ type ++
      opening).toList = [entryPoint] := by
  have htext : (keyword ++ entryPoint ++ "(" ++ parameters ++ arrow ++ type ++ opening).toList =
      keyword.toList ++ (entryPoint.toList ++
        '(' :: (parameters.toList ++ arrow.toList ++ type.toList ++ opening.toList)) := by
    simp
  rw [htext]
  exact announced_name (by decide) (by decide) (honly _)

/-- **The stub is defined by its opening line.** -/
theorem definitions_signatureLine (hctx : ctx.Bound language.target.bindings) {opening : String}
    (h : language.target.backend.signatureLine ctx = .ok opening) :
    language.definitions opening.toList = [entryPoint] := by
  have hname : Name.isIdentifier entryPoint = true := by decide
  have htype : language ∈ [java, cpp, cSharp] →
      IsType (language.target.bindings.native ctx.signature.returns) :=
    fun h => isType_native h _
  have hpublic : language ∈ [java, cSharp] →
      IsType ("public static " ++ language.target.bindings.native ctx.signature.returns) :=
    fun h => isType_public h _
  have hreturns : ctx.returnType = .ok (language.target.bindings.native ctx.signature.returns) :=
    hctx.native _
  cases language with
  | javaScript =>
    cases h
    have htext : ("function " ++ entryPoint ++ "(" ++ ", ".intercalate ctx.signature.names ++
        ") \x7b").toList = "function ".toList ++ (entryPoint.toList ++
          '(' :: ((", ".intercalate ctx.signature.names).toList ++ [')', ' ', '\x7b'])) := by
      simp
    simp only [definitions, htext]
    exact announced_name hname (by decide) (by simp)
  | r =>
    cases h
    have htext : (entryPoint ++ " <- function(" ++ ", ".intercalate ctx.signature.names ++
        ") \x7b").toList = entryPoint.toList ++ ' ' :: '<' :: (['-', ' '] ++ ("function(".toList ++
          ((", ".intercalate ctx.signature.names).toList ++ [')', ' ', '\x7b']))) := by
      simp
    simp only [definitions, htext]
    exact assigned_name hname (by decide) _ _
  | python =>
    obtain ⟨parameters, -, h⟩ := Compiled.bind_eq_ok.1 h
    obtain ⟨type, -, h⟩ := Compiled.bind_eq_ok.1 h
    cases h
    -- up to the parenthesis the line could be a list of names, but no equals sign is behind it
    have hassigned : assigned ['=', ' '] ("def " ++ entryPoint ++ "(" ++ parameters ++ ") -> " ++
        type ++ ":").toList = [] := by
      have htext : ("def " ++ entryPoint ++ "(" ++ parameters ++ ") -> " ++ type ++ ":").toList =
          "def execute".toList ++
            '(' :: (parameters.toList ++ ") -> ".toList ++ type.toList ++ [':']) := by
        simp [entryPoint]
      rw [htext]
      exact assigned_eq_nil (by decide) (by decide) (by decide) _ _
    have hfrom : "from ".toList.isPrefixOf ("def " ++ entryPoint ++ "(" ++ parameters ++ ") -> " ++
        type ++ ":").toList = false := by
      simp [List.isPrefixOf_cons_cons]
    simp only [definitions, hassigned, hfrom, Bool.false_eq_true, if_false, List.append_nil]
    exact announced_stub (by simp) _ _ _ _
  | php | typeScript =>
    obtain ⟨parameters, -, h⟩ := Compiled.bind_eq_ok.1 h
    obtain ⟨type, -, h⟩ := Compiled.bind_eq_ok.1 h
    cases h
    exact announced_stub (by simp) parameters "): " type " \x7b"
  | swift =>
    obtain ⟨parameters, -, h⟩ := Compiled.bind_eq_ok.1 h
    obtain ⟨type, -, h⟩ := Compiled.bind_eq_ok.1 h
    cases h
    exact announced_stub (by simp) parameters ") -> " type " \x7b"
  | go =>
    obtain ⟨parameters, -, h⟩ := Compiled.bind_eq_ok.1 h
    obtain ⟨type, -, h⟩ := Compiled.bind_eq_ok.1 h
    cases h
    exact announced_stub (by simp) parameters ") " type " \x7b"
  | java | cSharp =>
    obtain ⟨parameters, -, h⟩ := Compiled.bind_eq_ok.1 h
    obtain ⟨type, htype, h⟩ := Compiled.bind_eq_ok.1 h
    rw [hreturns] at htype
    cases htype
    cases h
    exact typed_name hname (hpublic (by decide)) [] (by decide) '(' (by decide) rfl
      (parameters.toList ++ ") \x7b".toList) (by simp)
  | cpp =>
    obtain ⟨parameters, -, h⟩ := Compiled.bind_eq_ok.1 h
    obtain ⟨type, hread, h⟩ := Compiled.bind_eq_ok.1 h
    rw [hreturns] at hread
    cases hread
    cases h
    exact typed_name hname (htype (by decide)) [] (by decide) '(' (by decide) rfl
      (parameters.toList ++ ") \x7b".toList) (by simp)

/-- Above the stub there are comments at most. -/
theorem defines_stubDoc {doc : List Step} (h : language.target.backend.stubDoc ctx = .ok doc) :
    language.Defines language.unitDepth language.unitDepth doc [] := by
  cases language with
  | javaScript =>
    obtain ⟨parameters, hparameters, h⟩ := Compiled.bind_eq_ok.1 h
    obtain ⟨returns, -, h⟩ := Compiled.bind_eq_ok.1 h
    cases h
    let texts := "/**" :: (parameters ++ [" * @returns \x7b" ++ returns ++ "\x7d", " */"])
    have hplain : ∀ text ∈ texts, javaScript.definitions text.toList = [] := by
      simp only [texts, List.forall_mem_cons, List.forall_mem_append]
      refine ⟨by decide, ?_, ?_, by decide, by simp⟩
      · intro text htext
        obtain ⟨name, type, rfl⟩ := Context.mem_parameters hparameters text htext
        simp [definitions, announced]
      · simp [definitions, announced]
    have hdefines : javaScript.Defines 0 0 (texts.map .line) [] :=
      Defines.of_plain rfl hplain
    simpa [texts, unitDepth] using hdefines
  | r =>
    obtain ⟨parameters, hparameters, h⟩ := Compiled.bind_eq_ok.1 h
    obtain ⟨returns, -, h⟩ := Compiled.bind_eq_ok.1 h
    cases h
    let texts := parameters ++ ["#' @return " ++ returns]
    have hplain : ∀ text ∈ texts, r.definitions text.toList = [] := by
      simp only [texts, List.forall_mem_append, List.forall_mem_singleton]
      constructor
      · intro text htext
        obtain ⟨name, type, rfl⟩ := Context.mem_parameters hparameters text htext
        simp [definitions, assigned, Name.isHead]
      · simp [definitions, assigned, Name.isHead]
    have hdefines : r.Defines 0 0 (texts.map .line) [] :=
      Defines.of_plain rfl hplain
    simpa [texts, unitDepth] using hdefines
  | _ =>
    cases h
    exact ⟨rfl, rfl, by simp [Step.placed]⟩

theorem opensEntry_signatureLine (hctx : ctx.Bound language.target.bindings) {opening : String}
    (h : language.target.backend.signatureLine ctx = .ok opening) :
    language.opensEntry opening.toList = false := by
  have hdefines := definitions_signatureLine hctx h
  cases language with
  | python =>
    obtain ⟨parameters, -, h⟩ := Compiled.bind_eq_ok.1 h
    obtain ⟨type, -, h⟩ := Compiled.bind_eq_ok.1 h
    cases h
    simp [opensEntry, entryName?]
  | _ =>
    simp only [opensEntry, entryName?, hdefines]
    decide

/-- **Reading the stub**: it defines its function, and nothing in it opens the entry point. -/
theorem defines_stub (hctx : ctx.Bound language.target.bindings) {body : Option String}
    {stub : List Step} (h : language.target.backend.stub ctx body = .ok stub) :
    language.Defines language.unitDepth language.unitDepth stub [entryPoint] := by
  obtain ⟨doc, opening, inner, hdoc, hopening, hinner, rfl⟩ := Backend.stub_eq_ok h
  have hfirst : language.Defines language.unitDepth (language.unitDepth + 1)
      [.line opening, .indent] [entryPoint] := by
    refine ⟨rfl, ?_, ?_⟩
    · simp [Step.placed, definedNames, definitions_signatureLine hctx hopening]
    · simp [Step.placed, opensAt, opensEntry_signatureLine hctx hopening]
  have hbody : language.Defines (language.unitDepth + 1) (language.unitDepth + 1) inner [] := by
    cases body with
    | some body =>
      cases hinner
      exact ⟨rfl, rfl, by simp [Step.placed]⟩
    | none =>
      obtain ⟨value, -, hinner⟩ := Compiled.bind_eq_ok.1 hinner
      cases hinner
      let texts := [language.target.backend.comment stubRemark,
        language.target.backend.returnStatement value]
      show language.Defines _ _ (texts.map .line) []
      exact Defines.of_deep (Nat.succ_ne_self _)
  have hlast : language.Defines (language.unitDepth + 1) language.unitDepth
      (.dedent :: (language.target.backend.blockEnd.map Step.line).toList) [] := by
    cases language <;> exact ⟨rfl, by decide, by decide⟩
  simpa using ((defines_stubDoc hdoc).append hfirst).append (hbody.append hlast)

/-! ## What is always the same -/

/-- The names of what a program imports under a name. -/
def importNames : Language → Purpose → List String
  | python, .starter => ["Dict", "List", "Set"]
  | python, .harness => ["sys", "Dict", "List", "Set"]
  | python, .materialized => ["contextlib", "io", "json", "perf_counter", "Dict", "List", "Set"]
  | javaScript, .harness | typeScript, .harness => ["fs"]
  | _, _ => []

/-- The helper functions of every program. -/
def helperNames : Language → List String
  | cpp =>
    ["split", "mapTokens", "mapEntries", "toSet", "toMap", "toText", "toText", "toText", "toText",
      "joinValues", "joinEntries"]
  | r => ["splitTokens", "toMap"]
  | go =>
    ["split", "mapTokens", "toSet", "toMap", "parseInt", "parseInt64", "parseFloat32",
      "parseFloat64", "parseRune", "joinValues", "joinSet", "joinMap"]
  | _ => []

/-- The helper functions of test-case programs ahead of the stub. -/
def preludeNames (language : Language) : List String :=
  language.helperNames ++ if language = cpp ∨ language = r then ["jsonString"] else []

/-- The helper functions of test-case programs behind the stub. -/
def supportNames (language : Language) : List String :=
  if language = java then ["jsonString"] else []

/-- Ahead of the stub, in a harness and in a program for a test case, and behind it. -/
theorem defines_ahead (language : Language) :
    language.Defines 0 language.unitDepth
      (language.target.backend.imports .harness ++ [.blank] ++ language.target.backend.helpers ++
        [.blank] ++ language.target.backend.openUnit)
      (language.importNames .harness ++ language.helperNames) ∧
    language.Defines 0 language.unitDepth
      (language.target.style.prelude language.target.backend ++ [.blank] ++
        language.target.backend.openUnit)
      (language.importNames .materialized ++ language.preludeNames) ∧
    language.Defines language.unitDepth language.unitDepth
      ([.blank] ++ language.target.style.support ++ [.blank]) language.supportNames := by
  cases language
  all_goals
    refine ⟨?_, ?_, ?_⟩
    all_goals
      exact .of_placed (Step.placed_of_spelled Step.map_spell _) rfl (by decide)

/-! ## The entry point -/

/-- The parameters of the entry point. -/
def entryParameters : Language → List String
  | java | cSharp => ["args"]
  | _ => []

/-- What is bound to read the input of a harness. -/
def readNames : Language → List String
  | python | r => ["input_data"]
  | javaScript | typeScript | php | swift => ["inputData"]
  | java => ["reader", "inputData"]
  | cpp | cSharp => ["inputData", "line"]
  | go => ["scanner", "inputData"]

theorem binds_readInput (language : Language) :
    language.Binds (language.unitDepth + 1) (language.unitDepth + 1)
      language.target.backend.readInput language.readNames := by
  cases language
  all_goals
    exact .of_placed (Step.placed_of_spelled Step.map_spell _) rfl (by decide) (by decide)

theorem openMain_eq (language : Language) : ∃ opening : String,
    language.target.backend.openMain = [.line opening, .indent] ∧
      language.definitions opening.toList = language.entryName?.toList ∧
      language.opensEntry opening.toList = true ∧
      parameters opening.toList = language.entryParameters := by
  cases language <;> exact ⟨_, rfl, by decide⟩

theorem closing_eq (language : Language) :
    let closing := language.target.backend.closeMain ++ language.target.backend.closeUnit
    language.definedNames (Step.placed (language.unitDepth + 1) closing) = [] ∧
      language.localNames (Step.placed (language.unitDepth + 1) closing) = [] := by
  cases language <;> decide

theorem placed_program {ahead inner : List Step} {names locals : List String}
    (hahead : language.Defines 0 language.unitDepth ahead names)
    (hinner : language.Binds (language.unitDepth + 1) (language.unitDepth + 1) inner locals)
    {opening : String} (hopening : language.target.backend.openMain = [.line opening, .indent]) :
    Step.placed 0 (ahead ++ language.target.backend.openMain ++ inner ++
        (language.target.backend.closeMain ++ language.target.backend.closeUnit)) =
      Step.placed 0 ahead ++ (language.unitDepth, opening.toList) ::
        (Step.placed (language.unitDepth + 1) inner ++ Step.placed (language.unitDepth + 1)
          (language.target.backend.closeMain ++ language.target.backend.closeUnit)) := by
  simp only [hopening, List.append_assoc, Step.placed_append, hahead.depth, List.cons_append,
    List.nil_append, Step.placed, hinner.depth]

/-- Nothing ahead opens the entry point, so the first line that does is the one behind it. -/
theorem entryLines_program {ahead inner : List Step} {names locals : List String}
    (hahead : language.Defines 0 language.unitDepth ahead names)
    (hinner : language.Binds (language.unitDepth + 1) (language.unitDepth + 1) inner locals)
    {opening : String} (hopening : language.target.backend.openMain = [.line opening, .indent])
    (hopens : language.opensEntry opening.toList = true) :
    language.entryLines (ahead ++ language.target.backend.openMain ++ inner ++
        (language.target.backend.closeMain ++ language.target.backend.closeUnit)) =
      (language.unitDepth, opening.toList) :: (Step.placed (language.unitDepth + 1) inner ++
        Step.placed (language.unitDepth + 1)
          (language.target.backend.closeMain ++ language.target.backend.closeUnit)) := by
  rw [entryLines, placed_program hahead hinner hopening, List.dropWhile_append_of_pos,
    List.dropWhile_cons_of_neg]
  · simp [opensAt, hopens]
  · simpa using fun depth cs => hahead.closed (depth, cs)

/-- **Reading a program**: the unit defines what is ahead of the entry point and the entry point,
and the scope of the entry point has its parameters and what is bound inside. -/
theorem read_program {ahead inner : List Step} {names locals : List String}
    (hahead : language.Defines 0 language.unitDepth ahead names)
    (hinner : language.Binds (language.unitDepth + 1) (language.unitDepth + 1) inner locals) :
    let steps := ahead ++ language.target.backend.openMain ++ inner ++
      (language.target.backend.closeMain ++ language.target.backend.closeUnit)
    language.unitNames steps = names ++ language.entryName?.toList ∧
      language.scopeNames steps =
        (if language = python then names else []) ++ language.entryParameters ++ locals := by
  intro steps
  obtain ⟨opening, hopening, hdefines, hopens, hparameters⟩ := language.openMain_eq
  let closing := language.target.backend.closeMain ++ language.target.backend.closeUnit
  obtain ⟨hcloses, hends⟩ : language.definedNames (Step.placed (language.unitDepth + 1) closing) =
      [] ∧ language.localNames (Step.placed (language.unitDepth + 1) closing) = [] :=
    language.closing_eq
  -- nothing ahead opens the entry point, so its lines start at the opening
  have hentry : language.entryLines steps = (language.unitDepth, opening.toList) ::
      (Step.placed (language.unitDepth + 1) inner ++
        Step.placed (language.unitDepth + 1) closing) :=
    entryLines_program hahead hinner hopening hopens
  have hunit : language.unitNames steps = names ++ language.entryName?.toList := by
    rw [unitNames, placed_program hahead hinner hopening, definedNames_append, hahead.names,
      definedNames_cons, if_pos rfl, hdefines, definedNames_append, hinner.definedNames, hcloses,
      List.append_nil, List.append_nil]
  refine ⟨hunit, ?_⟩
  -- the unit of Python is its own entry point
  have hpython : (if language = python then language.unitNames steps else []) =
      if language = python then names else [] := by
    split
    · next h =>
      subst h
      exact hunit.trans (List.append_nil _)
    · rfl
  simp only [scopeNames, hentry, hpython, hparameters, localNames_append, hinner.names, hends,
    List.append_nil]

/-! ## No clash -/

/-- No clash of names in a program: the names in the scope of the entry point are different. Those
that are declared for the data and those that the program has of its own are among them, and no name
that the inputs claim is one that the unit defines. -/
structure NoClash (language : Language) (steps : List Step)
    (claimed declared own defined : List String) : Prop where
  distinct : (language.scopeNames steps).Nodup
  bound : language.visible declared ⊆ language.scopeNames steps
  own_bound : own ⊆ language.scopeNames steps
  defines : defined ⊆ language.unitNames steps
  apart : ∀ name ∈ claimed, name ∉ language.unitNames steps

/-- The names that a program has in the scope of its entry point without any input: names of the
unit where that is the same scope, parameters, and what is bound before and after the inputs. -/
def ownScope (language : Language) (unit before after : List String) : List String :=
  (if language = python then unit else []) ++ language.entryParameters ++ before ++ after

/-- The names that a program has of its own are different, and reserved with the scaffolding or as
words of Python. -/
structure Scaffold (language : Language) (unit before after : List String) : Prop where
  distinct : (language.ownScope unit before after).Nodup
  reserved : ∀ name ∈ language.ownScope unit before after ++ (unit ++ language.entryName?.toList),
    name ∈ Name.scaffoldingWords ++ Name.pythonWords

instance (language : Language) (unit before after : List String) :
    Decidable (language.Scaffold unit before after) :=
  decidable_of_iff ((language.ownScope unit before after).Nodup ∧
      ∀ name ∈ language.ownScope unit before after ++ (unit ++ language.entryName?.toList),
        name ∈ Name.scaffoldingWords ++ Name.pythonWords)
    ⟨fun ⟨hdistinct, hreserved⟩ => ⟨hdistinct, hreserved⟩,
      fun ⟨hdistinct, hreserved⟩ => ⟨hdistinct, hreserved⟩⟩

theorem scaffolds : ∀ language ∈ Language.all,
    language.Scaffold (language.importNames .harness ++ language.helperNames ++ [entryPoint])
      language.readNames [resultVariable] ∧
    language.Scaffold
      (language.importNames .materialized ++ language.preludeNames ++ [entryPoint] ++
        language.supportNames) [] (language.callNames ++ [outputVariable, "record"]) := by
  decide +kernel

/-- **Names that an input can have do not clash** with those that a program has of its own. -/
theorem noClash {ahead inner : List Step}
    {unit before after names declared claimed : List String}
    (hahead : language.Defines 0 language.unitDepth ahead unit)
    (hinner : language.Binds (language.unitDepth + 1) (language.unitDepth + 1) inner
      (before ++ language.visible names ++ after))
    (hscaffold : language.Scaffold unit before after)
    (hnames : names.Perm declared) (hdeclared : declared.Sublist claimed)
    (hdistinct : claimed.Nodup) (hadmissible : ∀ name ∈ claimed, Name.Admissible name) :
    language.NoClash (ahead ++ language.target.backend.openMain ++ inner ++
        (language.target.backend.closeMain ++ language.target.backend.closeUnit))
      claimed declared (before ++ after) (unit ++ language.entryName?.toList) := by
  obtain ⟨hunit, hscope⟩ := read_program hahead hinner
  -- all names of the program are reserved, and no name of an input is
  have hfree : ∀ name ∈ claimed, name ∉ language.ownScope unit before after ++
      (unit ++ language.entryName?.toList) := by
    intro name hname hown
    refine (hadmissible name hname).unreserved ?_
    rcases List.mem_append.1 (hscaffold.reserved name hown) with hmem | hmem <;>
      simp [Name.reservedWords, hmem]
  have hvisible : (language.visible names).Perm (language.visible declared) := hnames.filter _
  have hperm : (language.scopeNames (ahead ++ language.target.backend.openMain ++ inner ++
      (language.target.backend.closeMain ++ language.target.backend.closeUnit))).Perm
        (language.ownScope unit before after ++ language.visible declared) := by
    rw [hscope, ownScope]
    simp only [List.append_assoc]
    exact .append_left _ (.append_left _ (.append_left _
      (List.perm_append_comm.trans (.append_left _ hvisible))))
  constructor
  · rw [hperm.nodup_iff, List.nodup_append]
    refine ⟨hscaffold.distinct, (hdistinct.sublist hdeclared).filter _, ?_⟩
    rintro own hown _ hname rfl
    exact hfree own (hdeclared.subset (List.mem_of_mem_filter hname)) (List.mem_append_left _ hown)
  · exact fun name hname => hperm.mem_iff.2 (List.mem_append_right _ hname)
  · refine fun name hname => hperm.mem_iff.2 (List.mem_append_left _ ?_)
    rw [ownScope, List.append_assoc]
    exact List.mem_append_right _ hname
  · exact hunit ▸ List.Subset.refl _
  · rw [hunit]
    exact fun name hname hmem => hfree name hname (List.mem_append_right _ hmem)

/-- The steps of a program with a harness: what is ahead of the entry point, the lines that decode
the inputs, the call, and the expression that is printed. -/
structure HarnessSteps (language : Language) (ctx : Context) (steps : List Step) where
  ahead : List Step
  inputs : List Step
  call : String
  rendered : String
  steps_eq : steps = ahead ++ language.target.backend.openMain ++
    (language.target.backend.readInput ++ inputs ++
      [.line call, .line (language.target.backend.print rendered)]) ++
    (language.target.backend.closeMain ++ language.target.backend.closeUnit)
  inputLines : language.target.backend.inputLines ctx 0 ctx.signature.inputs = .ok inputs
  callLine : language.target.backend.callLine ctx = .ok call
  renderedResult : language.target.backend.renderedResult ctx = .ok rendered
  defines : language.Defines 0 language.unitDepth ahead
    (language.importNames .harness ++ language.helperNames ++ [entryPoint])
  binds : language.Binds (language.unitDepth + 1) (language.unitDepth + 1)
    (language.target.backend.readInput ++ inputs ++
      [.line call, .line (language.target.backend.print rendered)])
    (language.readNames ++ language.visible ctx.signature.names ++ [resultVariable])

theorem exists_harnessSteps (hctx : ctx.Bound language.target.bindings)
    (hpurpose : ctx.purpose = .harness)
    (hadmissible : ∀ input ∈ ctx.signature.inputs, Name.Admissible input.name) {steps : List Step}
    (h : language.target.backend.program ctx = .ok steps) :
    Nonempty (language.HarnessSteps ctx steps) := by
  obtain ⟨stub, inputs, call, rendered, hstub, hinputs, hcall, hrendered, rfl⟩ :=
    Backend.program_eq_ok h
  have hlast := (Binds.inside (locals_declareResult hctx hcall)).append
    (Binds.inside (locals_print hctx hrendered))
  have hfirst := language.binds_readInput.append (binds_inputLines hctx hadmissible hinputs)
  have hblank : language.Defines language.unitDepth language.unitDepth [.blank] [] :=
    ⟨rfl, rfl, by simp [Step.placed]⟩
  have hahead := (language.defines_ahead.1.append (defines_stub hctx hstub)).append hblank
  exact ⟨{
    ahead := language.target.backend.imports .harness ++ [.blank] ++
      language.target.backend.helpers ++ [.blank] ++ language.target.backend.openUnit ++ stub ++
        [.blank]
    inputs := inputs
    call := call
    rendered := rendered
    steps_eq := by simp only [hpurpose, List.append_assoc]
    inputLines := hinputs
    callLine := hcall
    renderedResult := hrendered
    defines := by simpa using hahead
    binds := by simpa [Signature.names] using hfirst.append hlast }⟩

/-- **A harness has no clash.** -/
theorem noClash_harness (hctx : ctx.Bound language.target.bindings)
    (hpurpose : ctx.purpose = .harness)
    (hadmissible : ∀ input ∈ ctx.signature.inputs, Name.Admissible input.name)
    (hdistinct : (ctx.signature.inputs.flatMap Parameter.claims).Nodup) {steps : List Step}
    (h : language.target.backend.program ctx = .ok steps) :
    language.NoClash steps (ctx.signature.inputs.flatMap Parameter.claims) ctx.signature.names
      (language.readNames ++ [resultVariable])
      (language.importNames .harness ++ language.helperNames ++ [entryPoint] ++
        language.entryName?.toList) := by
  obtain ⟨parts⟩ := exists_harnessSteps hctx hpurpose hadmissible h
  rw [parts.steps_eq]
  exact noClash parts.defines parts.binds (scaffolds language language.mem_all).1 (.refl _)
    (Parameter.names_sublist_claims _) hdistinct (Name.admissible_claims hadmissible)

/-- The parts of a program for a test case: what is ahead of the entry point, the lines that declare
the inputs, the call, and what is behind it. -/
structure CaseParts (language : Language) (ctx : Context) (test : TestCase) (caseNo : Nat)
    (steps : List Step) where
  ahead : List Step
  lines : List String
  call : String
  last : List Step
  steps_eq : steps = ahead ++ language.target.backend.openMain ++
    (lines.map .line ++ language.target.style.measuredCall call ++ last) ++
    (language.target.backend.closeMain ++ language.target.backend.closeUnit)
  callLine : language.target.backend.callLine ctx = .ok call
  slots : List.Forall₂ (Slot.HoldsPlain language ctx test caseNo)
    (Slot.ofInputs ctx.signature.inputs) lines
  defines : language.Defines 0 language.unitDepth ahead (language.importNames .materialized ++
    language.preludeNames ++ [entryPoint] ++ language.supportNames)
  binds : language.Binds (language.unitDepth + 1) (language.unitDepth + 1)
    (lines.map .line ++ language.target.style.measuredCall call ++ last)
    (language.visible ((Slot.ofInputs ctx.signature.inputs).flatMap Slot.names) ++
      language.callNames ++ [outputVariable, "record"])

/-- A program has such parts, and behind the call it stores the result's text and prints the
record. -/
theorem exists_caseParts_last (hctx : ctx.Bound language.target.bindings)
    (hadmissible : ∀ input ∈ ctx.signature.inputs, Name.Admissible input.name) {body : String}
    {test : TestCase} {caseNo : Nat} {literals : List Literal} {steps : List Step}
    (hdecoded : Literal.ofCase ctx.signature test = .ok literals)
    (h : language.target.style.program language.target.backend ctx body test caseNo literals =
      .ok steps) :
    ∃ (parts : language.CaseParts ctx test caseNo steps) (rendered output : String),
      language.target.backend.renderedResult ctx = .ok rendered ∧
      language.target.backend.declare ctx outputVariable (.scalar .string) rendered = .ok output ∧
      parts.last = [.line output] ++ language.target.style.record
        (language.target.style.outcomeRecord language.target.backend ctx.signature.returns test
          caseNo) := by
  obtain ⟨stub, declared, call, rendered, output, hstub, hdeclared, hcall, hrendered, houtput,
    rfl⟩ := CaseStyle.program_eq_ok h
  have hslots : List.Forall₂ (Slot.HoldsPlain language ctx test caseNo)
      (Slot.ofInputs ctx.signature.inputs) (CaseStyle.hoisted declared) := by
    obtain ⟨hlength, hvalues⟩ := Literal.ofCase_eq_ok.1 hdecoded
    exact hoisted_slots (allInputLines_slots hctx hlength hadmissible (fun _ h => h) hvalues
      hdeclared)
  have hinputs := binds_slots hctx (fun slot hslot => by
    obtain ⟨input, hmem, hslot⟩ := Slot.exists_of_mem_ofInputs hslot
    exact ⟨input, hslot, hadmissible input hmem⟩) hslots
  -- the output is declared like an input that is named after it
  have hresult : language.locals output.toList = [outputVariable] := by
    rw [locals_declare hctx (by decide) (by decide) _ houtput, visible_of_ne _ (by decide)]
  have hlast := (Binds.inside hresult).append (language.binds_record
    (language.target.style.outcomeRecord language.target.backend ctx.signature.returns test caseNo))
  obtain ⟨-, hprelude, hsupport⟩ := language.defines_ahead
  refine ⟨{
    ahead := language.target.style.prelude language.target.backend ++ [.blank] ++
      language.target.backend.openUnit ++ stub ++ ([.blank] ++ language.target.style.support ++
        [.blank])
    lines := CaseStyle.hoisted declared
    call := call
    last := [.line output] ++ language.target.style.record (language.target.style.outcomeRecord
      language.target.backend ctx.signature.returns test caseNo)
    steps_eq := by simp only [List.append_assoc]
    callLine := hcall
    slots := hslots
    defines := (hprelude.append (defines_stub hctx hstub)).append hsupport
    binds := (hinputs.append (binds_measuredCall hctx hcall)).append hlast },
    rendered, output, hrendered, houtput, rfl⟩

theorem exists_caseParts (hctx : ctx.Bound language.target.bindings)
    (hadmissible : ∀ input ∈ ctx.signature.inputs, Name.Admissible input.name) {body : String}
    {test : TestCase} {caseNo : Nat} {literals : List Literal} {steps : List Step}
    (hdecoded : Literal.ofCase ctx.signature test = .ok literals)
    (h : language.target.style.program language.target.backend ctx body test caseNo literals =
      .ok steps) : Nonempty (language.CaseParts ctx test caseNo steps) := by
  obtain ⟨parts, -⟩ := exists_caseParts_last hctx hadmissible hdecoded h
  exact ⟨parts⟩

/-- **A program for a test case has no clash.** The inputs stand in another order in it, with the
constants for their sizes. -/
theorem noClash_case (hctx : ctx.Bound language.target.bindings)
    (hadmissible : ∀ input ∈ ctx.signature.inputs, Name.Admissible input.name)
    (hdistinct : (ctx.signature.inputs.flatMap Parameter.claims).Nodup) {body : String}
    {test : TestCase} {caseNo : Nat} {literals : List Literal} {steps : List Step}
    (hdecoded : Literal.ofCase ctx.signature test = .ok literals)
    (h : language.target.style.program language.target.backend ctx body test caseNo literals =
      .ok steps) :
    language.NoClash steps (ctx.signature.inputs.flatMap Parameter.claims)
      (ctx.signature.inputs.flatMap Parameter.claims)
      (language.callNames ++ [outputVariable, "record"])
      (language.importNames .materialized ++ language.preludeNames ++ [entryPoint] ++
        language.supportNames ++ language.entryName?.toList) := by
  obtain ⟨parts⟩ := exists_caseParts hctx hadmissible hdecoded h
  have hclash := noClash parts.defines (by simpa using parts.binds)
    (scaffolds language language.mem_all).2 (Slot.names_ofInputs_perm _) (.refl _) hdistinct
    (Name.admissible_claims hadmissible)
  rw [parts.steps_eq]
  simpa using hclash

end Language

/-! ## Generators and materializers -/

namespace Signature

theorem claims_nodup_of_ofSource {source : String} {signature : Signature}
    (h : Signature.ofSource source = .ok signature) :
    (signature.inputs.flatMap Parameter.claims).Nodup := by
  obtain ⟨clauses, -, hcompletes⟩ := ofSource_iff_completes.1 h
  have hinputs : Clause.inputs clauses = signature.inputs := hcompletes.inputs
  exact hinputs ▸ hcompletes.distinct

/-- **Names never clash.** For a signature that has a source, in each language: in the harness that
the standard generator writes, and in each program that the standard materializer writes, the names
in the scope of the entry point are different — those of the inputs, with test data also those of
the size constants, and those that the program has of its own — and no name of an input or a size
constant is a name that the unit defines, such as the stub, the entry point or a helper. -/
theorem names_never_clash {source : String} {signature : Signature}
    (h : Signature.ofSource source = .ok signature) (language : Language) (lenient : Bool) :
    (∀ generator, Generator.standard lenient = .ok generator → ∃ steps,
      language.target.backend.program ⟨signature, generator.registry, language, .harness⟩ =
        .ok steps ∧
      generator.generate signature false language =
        .ok (layout language.target.backend.indentUnit steps) ∧
      language.NoClash steps (signature.inputs.flatMap Parameter.claims) signature.names
        (language.readNames ++ [resultVariable])
        (language.importNames .harness ++ language.helperNames ++ [entryPoint] ++
          language.entryName?.toList)) ∧
    ∀ materializer, Materializer.standard lenient = .ok materializer →
      ∀ body test caseNo code,
      materializer.materialize signature language body test caseNo = .ok code →
      ∃ literals steps, Literal.ofCase signature test = .ok literals ∧
        language.target.style.program language.target.backend
          ⟨signature, materializer.registry, language, .materialized⟩ body test caseNo literals =
            .ok steps ∧
        code = layout language.target.backend.indentUnit steps ∧
        language.NoClash steps (signature.inputs.flatMap Parameter.claims)
          (signature.inputs.flatMap Parameter.claims)
          (language.callNames ++ [outputVariable, "record"])
          (language.importNames .materialized ++ language.preludeNames ++ [entryPoint] ++
            language.supportNames ++ language.entryName?.toList) := by
  have hadmissible := admissible_of_ofSource h
  have hclaims := claims_nodup_of_ofSource h
  constructor
  · intro generator hgenerator
    obtain ⟨steps, hsteps, hgenerate⟩ := Generator.exists_harness hgenerator signature language
    have hctx : Context.Bound ⟨signature, generator.registry, language, .harness⟩
        language.target.bindings := Generator.binds_of_standard hgenerator language
    exact ⟨steps, hsteps, hgenerate,
      Language.noClash_harness hctx rfl hadmissible hclaims hsteps⟩
  · intro materializer hmaterializer body test caseNo code hcode
    obtain ⟨literals, steps, hdecoded, hsteps, hlayout⟩ := Materializer.materialize_eq_ok hcode
    have hctx : Context.Bound ⟨signature, materializer.registry, language, .materialized⟩
        language.target.bindings := Materializer.binds_of_standard hmaterializer language
    exact ⟨literals, steps, hdecoded, hsteps, hlayout,
      Language.noClash_case hctx hadmissible hclaims hdecoded hsteps⟩

/-- An input that Go ignores, and one with a size. -/
theorem names_never_clash_go :
    let registry : Registry := ⟨Registry.standardRows, Language.all, false⟩
    let signature : Signature :=
      ⟨[⟨"_", .scalar .integer, none⟩, ⟨"xs", .composite .array .integer, some 2⟩],
        .scalar .integer⟩
    let test : TestCase :=
      ⟨"a", [.number (.int 1), .array [.number (.int 2)]], .number (.int 3), true⟩
    Signature.ofSource "integer -> _\narray -> integer xs 2\ninteger -> return" = .ok signature ∧
    (∃ steps, Generator.generate ⟨registry, Language.all⟩ signature false .go =
        .ok (layout Language.go.target.backend.indentUnit steps) ∧
      Language.go.NoClash steps ["_", "xs", "xsSize"] ["_", "xs"]
        ["scanner", "inputData", "result"] (Language.go.helperNames ++ ["execute", "main"])) ∧
    ∃ code steps,
      Materializer.materialize ⟨registry, Language.all, Language.all⟩ signature .go "" test 1 =
        .ok code ∧
      code = layout Language.go.target.backend.indentUnit steps ∧
      Language.go.NoClash steps ["_", "xs", "xsSize"] ["_", "xs", "xsSize"]
        (Language.go.callNames ++ ["output", "record"])
        (Language.go.helperNames ++ ["execute", "main"]) := by
  intro registry signature test
  have hsource : Signature.ofSource "integer -> _\narray -> integer xs 2\ninteger -> return" =
      .ok signature := by
    decide +kernel
  have hfits : test.Fits signature :=
    ⟨rfl, List.forall_mem_cons.2 ⟨⟨_, rfl⟩, List.forall_mem_singleton.2 ⟨_, rfl⟩⟩⟩
  obtain ⟨code, hcode⟩ : ∃ code,
      Materializer.materialize ⟨registry, Language.all, Language.all⟩ signature .go "" test 1 =
        .ok code :=
    (Materializer.exists_materialize_iff (Materializer.covers_standard false .go) signature "").2
      hfits
  obtain ⟨hharness, hcase⟩ := names_never_clash hsource .go false
  obtain ⟨steps, -, hgenerate, hclash⟩ := hharness ⟨registry, Language.all⟩ rfl
  obtain ⟨-, steps', -, -, hlayout, hclash'⟩ :=
    hcase _ (Materializer.standard_eq false) "" test 1 code hcode
  exact ⟨hsource, ⟨steps, hgenerate, hclash⟩, code, steps', hcode, hlayout, hclash'⟩

end Signature

end StructuredCall
