import Mathlib.Algebra.BigOperators.Group.List.Basic
import StructuredCall.Proofs.Program.Stub
import StructuredCall.Proofs.Program.Tokens

/-!
# Inputs in a harness

A harness decodes the lines of the standard input in the order of the inputs, and declares each
input on a line of its own, one behind another. The token of a line stands once in the whole text,
on the line of its input: all other lines have no token (`Language.HarnessParts`), and on those of
the inputs the tokens are counted together (`Language.sum_occurrences`).

Main result: `Signature.parameters_decoding_and_call_agree`.
-/

namespace StructuredCall

open Text

namespace Language

variable {language : Language} {ctx : Context}

/-! ## Counting tokens -/

theorem occurrences_token_silent {cs : List Char} (h : Silent language.tokenStem cs)
    (index : Nat) : occurrences (language.target.backend.token index).toList cs = 0 :=
  Nat.le_zero.1 (h.absent ▸ occurrences_le (language.tokenStem_prefix index) cs)

theorem token_ne_nil (language : Language) (index : Nat) :
    (language.target.backend.token index).toList ≠ [] := by
  obtain ⟨middle, first, last, -, htoken⟩ := language.token_eq
  simp [htoken]

/-- A line that carries a token has it once, and no other token. -/
theorem occurrences_token_carried {line : String} {other : Nat}
    (h : Carries language.tokenStem (language.target.backend.token other) line) (index : Nat) :
    occurrences (language.target.backend.token index).toList line.toList =
      if index = other then 1 else 0 := by
  obtain ⟨-, honce, hclosed⟩ := language.token_plain other
  have hstem : occurrences language.tokenStem line.toList = 1 := (h.occurrences hclosed).trans honce
  have hother := one_le_occurrences (language.token_ne_nil other) h.isInfix
  split
  · next heq =>
    subst heq
    exact Nat.le_antisymm (hstem ▸ occurrences_le (language.tokenStem_prefix index) _) hother
  · next hne =>
    -- with another token on the line, the stem would be there twice
    have hboth := occurrences_add_le (language.tokenStem_prefix index)
      (language.tokenStem_prefix other) (language.token_apart hne) line.toList
    omega

/-! ## The lines of the inputs -/

/-- A text declares an input with the value of a line of the standard input. -/
def DeclaresInput (language : Language) (ctx : Context) (index : Nat) (input : Parameter)
    (text : String) : Prop :=
  ∃ value, language.target.backend.decode ctx input.type (language.target.backend.token index) =
      .ok value ∧
    language.target.backend.declare ctx input.name input.type value = .ok text

/-- The same, and the text carries the expression of that line. -/
def InputLine (language : Language) (ctx : Context) (placed : Parameter × Nat) (text : String) :
    Prop :=
  language.DeclaresInput ctx placed.2 placed.1 text ∧
    Carries language.tokenStem (language.target.backend.token placed.2) text

theorem exists_inputLine (hctx : ctx.Bound language.target.bindings) {input : Parameter}
    (hname : Name.isIdentifier input.name) (index : Nat) : ∃ text,
      language.target.backend.inputLine ctx index input = .ok (.line text) ∧
      language.InputLine ctx (input, index) text := by
  obtain ⟨value, hvalue, hcarries⟩ :=
    carries_decode hctx input.type (language.target.backend.token index)
  obtain ⟨before, behind, hbefore, hbehind, hdeclare⟩ := exists_declaration hctx hname input.type
  exact ⟨_, Compiled.bind_eq_ok.2 ⟨value, hvalue, Compiled.bind_eq_ok.2 ⟨_, hdeclare value, rfl⟩⟩,
    ⟨value, hvalue, hdeclare value⟩, (hcarries.ahead hbefore).behind hbehind⟩

/-- **Each input has its line**, in order. -/
theorem exists_inputLines (hctx : ctx.Bound language.target.bindings) {inputs : List Parameter}
    (hnames : ∀ input ∈ inputs, Name.isIdentifier input.name) (index : Nat) :
    ∃ texts : List String,
      language.target.backend.inputLines ctx index inputs = .ok (texts.map .line) ∧
      List.Forall₂ (language.InputLine ctx) (inputs.zipIdx index) texts := by
  induction inputs generalizing index with
  | nil => exact ⟨[], rfl, .nil⟩
  | cons input inputs ih =>
    obtain ⟨hname, hnames⟩ := List.forall_mem_cons.1 hnames
    obtain ⟨text, htext, hline⟩ := exists_inputLine hctx hname index
    obtain ⟨texts, htexts, hlines⟩ := ih hnames (index + 1)
    exact ⟨text :: texts, Compiled.bind_eq_ok.2 ⟨_, htext, Compiled.bind_eq_ok.2
      ⟨_, htexts, rfl⟩⟩, List.zipIdx_cons ▸ .cons hline hlines⟩

theorem sum_occurrences {inputs : List Parameter} {start : Nat} {texts : List String}
    (h : List.Forall₂ (language.InputLine ctx) (inputs.zipIdx start) texts) (depth index : Nat) :
    ((texts.map fun text =>
        (Writer.indented language.target.backend.indentUnit depth text).toList).map
          (occurrences (language.target.backend.token index).toList)).sum =
      if start ≤ index ∧ index < start + inputs.length then 1 else 0 := by
  induction inputs generalizing start texts with
  | nil =>
    cases h
    simp
  | cons input inputs ih =>
    rw [List.zipIdx_cons] at h
    cases h with
    | cons hline hlines =>
      have hfirst := occurrences_token_carried (language.carries_indented hline.2 depth) index
      rw [List.map_cons, List.map_cons, List.sum_cons, ih hlines, hfirst, List.length_cons]
      split <;> split <;> split <;> omega

/-! ## Programs -/

/-- Where lines stand between steps that have no token. -/
theorem exists_layout_lines {front back : List Step} (hfront : language.Tokenless front)
    (hback : language.Tokenless back)
    (hdepth : Step.depthAfter 0 front = language.unitDepth + 1) (texts : List String) :
    let unit := language.target.backend.indentUnit
    ∃ before behind : List String, (∀ line ∈ before, Silent language.tokenStem line.toList) ∧
      (∀ line ∈ behind, Silent language.tokenStem line.toList) ∧
      (({ indentUnit := unit } : Writer).run (front ++ texts.map .line ++ back)).lines =
        before ++ texts.map (Writer.indented unit (language.unitDepth + 1)) ++ behind := by
  intro unit
  have hlines {steps : List Step} (h : language.Tokenless steps) (writer : Writer)
      (hunit : writer.indentUnit = unit) : ∃ more, (writer.run steps).lines = writer.lines ++ more ∧
        ∀ line ∈ more, Silent language.tokenStem line.toList := by
    refine Writer.exists_lines_run Edge.nil.toSilent (fun step hstep => ?_) writer hunit
    exact (h step hstep).imp fun text htext => language.silent_indented htext
  let start : Writer := { indentUnit := unit }
  let middle := (start.run front).run (texts.map .line)
  -- empty lines depend on what is written above them, so the lines around are not given exactly
  obtain ⟨before, hbefore, hsilent⟩ := hlines hfront start rfl
  obtain ⟨behind, hbehind, hsilent'⟩ := hlines hback middle
    ((Writer.indentUnit_run _ _).trans (Writer.indentUnit_run start front))
  have hmiddle : middle.lines = before ++
      texts.map (Writer.indented unit (language.unitDepth + 1)) := by
    have hstep : middle = texts.foldl Writer.line (start.run front) := List.foldl_map
    rw [hstep, Writer.foldl_line, Writer.depth_run, Writer.indentUnit_run, hbefore]
    exact congrArg (fun depth => before ++ texts.map (Writer.indented unit depth)) hdepth
  refine ⟨before, behind, hsilent, hsilent', ?_⟩
  rw [Writer.run_append, Writer.run_append]
  exact hmiddle ▸ hbehind

/-- The parts of a harness: the lines of the inputs, and around them steps without tokens. -/
structure HarnessParts (language : Language) (ctx : Context) (steps : List Step) where
  ahead : List Step
  texts : List String
  last : List Step
  /-- What the unit defines ahead of the entry point. -/
  defined : List String
  /-- What the entry point binds. -/
  bound : List String
  steps_eq : steps = ahead ++ language.target.backend.openMain ++
    (language.target.backend.readInput ++ texts.map .line ++ last) ++
    (language.target.backend.closeMain ++ language.target.backend.closeUnit)
  tokenless : language.Tokenless ahead ∧ language.Tokenless last
  inputs : List.Forall₂ (language.InputLine ctx) (ctx.signature.inputs.zipIdx 0) texts
  defines : language.Defines 0 language.unitDepth ahead defined
  binds : language.Binds (language.unitDepth + 1) (language.unitDepth + 1)
    (language.target.backend.readInput ++ texts.map .line ++ last) bound

theorem exists_harnessParts (hctx : ctx.Bound language.target.bindings)
    (hpurpose : ctx.purpose = .harness)
    (hadmissible : ∀ input ∈ ctx.signature.inputs, Name.Admissible input.name) {steps : List Step}
    (h : language.target.backend.program ctx = .ok steps) :
    Nonempty (language.HarnessParts ctx steps) := by
  have hnames : ∀ input ∈ ctx.signature.inputs, Name.isIdentifier input.name :=
    fun input hinput => (hadmissible input hinput).isIdentifier
  obtain ⟨texts, htexts, hlines⟩ := exists_inputLines hctx hnames 0
  obtain ⟨stub, inputs, call, rendered, hstub, hinputs, hcall, hrendered, rfl⟩ :=
    Backend.program_eq_ok h
  obtain rfl := Except.ok.inj (htexts.symm.trans hinputs)
  -- what is imported depends on the purpose
  rw [hpurpose]
  have hempty : language.Tokenless [.blank] := by
    simp [Tokenless, Step.Writes]
  have hblank : language.Defines language.unitDepth language.unitDepth [.blank] [] :=
    ⟨rfl, rfl, by simp [Step.placed]⟩
  have hlast := (Binds.inside (locals_declareResult hctx hcall)).append
    (Binds.inside (locals_print hctx hrendered))
  exact ⟨{
    ahead := language.target.backend.imports .harness ++ [.blank] ++
      language.target.backend.helpers ++ [.blank] ++ language.target.backend.openUnit ++ stub ++
        [.blank]
    texts := texts
    last := [.line call, .line (language.target.backend.print rendered)]
    defined := _
    bound := _
    steps_eq := by simp only [List.append_assoc]
    tokenless := by
      refine ⟨(language.tokenless_scaffold.1.append (tokenless_stub hctx hnames hstub)).append
        hempty, ?_⟩
      simpa [Tokenless, Step.Writes] using
        ⟨silent_callLine hctx hnames hcall, silent_print hctx hrendered⟩
    inputs := hlines
    defines := (language.defines_ahead.1.append (defines_stub hctx hstub)).append hblank
    binds := (language.binds_readInput.append (binds_inputLines hctx hadmissible htexts)).append
      hlast }⟩

/-! ## Where the tokens are -/

/-- The lines in the scope of the entry point that bind a name. -/
def bindingLines (language : Language) (steps : List Step) (name : String) : List (List Char) :=
  ((language.entryLines steps).filter fun line =>
    decide (name ∈ language.locals line.2) && language.inScope line.1).map (·.2)

/-- An input is declared on one line of a harness, with the expression for its line of the standard
input, which is nowhere else. A name that the language ignores is bound by no line. -/
structure InputAt (language : Language) (ctx : Context) (steps : List Step) (index : Nat)
    (input : Parameter) (position : Nat) (text : String) : Prop where
  declares : language.DeclaresInput ctx index input text
  /-- The line stands at the position, and nowhere else. -/
  written : let unit := language.target.backend.indentUnit
    let lines := Text.pieces '\n' (layout unit steps).toList
    let line := (Writer.indented unit (language.unitDepth + 1) text).toList
    lines[position]? = some line ∧ lines.count line = 1
  /-- No other line binds the name. -/
  alone : language.isBlank input.name = false →
    language.bindingLines steps input.name = [text.toList]
  carries : occurrences (language.target.backend.token index).toList text.toList = 1
  once : occurrences (language.target.backend.token index).toList
    (layout language.target.backend.indentUnit steps).toList = 1

/-- Where the counts add up to one, what is counted at all is there once. -/
theorem count_eq_one_of_sum {f : List Char → Nat} {lines : List (List Char)}
    (h : (lines.map f).sum = 1) {line : List Char} (hmem : line ∈ lines) (hline : f line ≠ 0) :
    lines.count line = 1 := by
  have hsum (lines : List (List Char)) : lines.count line * f line ≤ (lines.map f).sum := by
    induction lines with
    | nil => simp
    | cons first lines ih =>
      rw [List.map_cons, List.sum_cons, List.count_cons]
      split
      · next heq =>
        obtain rfl := eq_of_beq heq
        rw [Nat.add_mul]
        omega
      · rw [Nat.add_zero]
        omega
  have hpositive : 0 < lines.count line := List.count_pos_iff.2 hmem
  have hle : lines.count line ≤ lines.count line * f line :=
    Nat.le_mul_of_pos_right _ (Nat.pos_of_ne_zero hline)
  have := hsum lines
  omega

/-- Where different things have different names, a name belongs to one thing. -/
theorem filter_of_nodup_flatMap {α : Type} {f : α → List String} {xs : List α}
    (h : (xs.flatMap f).Nodup) {x : α} (hx : x ∈ xs) {name : String} (hname : name ∈ f x) :
    xs.filter (fun y => decide (name ∈ f y)) = [x] := by
  induction xs with
  | nil => cases hx
  | cons y ys ih =>
    rw [List.flatMap_cons, List.nodup_append] at h
    obtain ⟨-, hys, hapart⟩ := h
    rcases List.mem_cons.1 hx with rfl | hx
    · have hnone : ys.filter (fun y => decide (name ∈ f y)) = [] := by
        rw [List.filter_eq_nil_iff]
        intro z hz hmem
        exact hapart name hname name (List.mem_flatMap.2 ⟨z, hz, by simpa using hmem⟩) rfl
      rw [List.filter_cons_of_pos (by simpa using hname), hnone]
    · have hnot : name ∉ f y := fun hmem =>
        hapart name hmem name (List.mem_flatMap.2 ⟨x, hx, hname⟩) rfl
      rw [List.filter_cons_of_neg (by simpa using hnot), ih hys hx]

namespace HarnessParts

variable {steps : List Step}

/-- The lines of the inputs stand one behind another, and no other line has a token. -/
theorem exists_lines (parts : language.HarnessParts ctx steps) :
    let unit := language.target.backend.indentUnit
    ∃ before behind : List String, (∀ line ∈ before, Silent language.tokenStem line.toList) ∧
      (∀ line ∈ behind, Silent language.tokenStem line.toList) ∧
      (({ indentUnit := unit } : Writer).run steps).lines =
        before ++ parts.texts.map (Writer.indented unit (language.unitDepth + 1)) ++ behind := by
  intro unit
  obtain ⟨opening, hopening, -⟩ := language.openMain_eq
  obtain ⟨-, hopen, hclose⟩ := language.tokenless_scaffold
  have hdepth : Step.depthAfter 0 (parts.ahead ++ (language.target.backend.openMain ++
      language.target.backend.readInput)) = language.unitDepth + 1 := by
    rw [Step.depthAfter_append, Step.depthAfter_append, parts.defines.depth, hopening]
    exact language.binds_readInput.depth
  obtain ⟨before, behind, hbefore, hbehind, hlines⟩ := exists_layout_lines
    (parts.tokenless.1.append hopen) (parts.tokenless.2.append hclose) hdepth parts.texts
  refine ⟨before, behind, hbefore, hbehind, ?_⟩
  rw [← hlines]
  refine congrArg (fun steps => (Writer.run _ steps).lines) (parts.steps_eq.trans ?_)
  simp only [List.append_assoc]

theorem exists_text (parts : language.HarnessParts ctx steps) {index : Nat} {input : Parameter}
    (h : ctx.signature.inputs[index]? = some input) : ∃ text,
      parts.texts[index]? = some text ∧ language.InputLine ctx (input, index) text := by
  obtain ⟨hindex, hinput⟩ := List.getElem?_eq_some_iff.1 h
  have hlength : index < parts.texts.length := by
    rw [← parts.inputs.length_eq, List.length_zipIdx]
    exact hindex
  refine ⟨parts.texts[index], List.getElem?_eq_getElem hlength, ?_⟩
  have hline := parts.inputs.get (by simpa using hindex) hlength
  simpa [hinput] using hline

theorem exists_pieces (parts : language.HarnessParts ctx steps) :
    ∃ before behind : List (List Char),
      (∀ line ∈ before, Silent language.tokenStem line) ∧
      (∀ line ∈ behind, Silent language.tokenStem line) ∧
      Text.pieces '\n' (layout language.target.backend.indentUnit steps).toList = before ++
        parts.texts.map (fun text => (Writer.indented language.target.backend.indentUnit
          (language.unitDepth + 1) text).toList) ++ behind := by
  obtain ⟨before, behind, hbefore, hbehind, hlines⟩ := parts.exists_lines
  have htexts : ∀ text ∈ parts.texts, Text.OneLine
      (Writer.indented language.target.backend.indentUnit (language.unitDepth + 1) text) := by
    intro text htext
    obtain ⟨index, hindex, rfl⟩ := List.getElem_of_mem htext
    have hline := parts.inputs.get (parts.inputs.length_eq ▸ hindex) hindex
    exact (language.carries_indented hline.2 _).oneLine (language.token_plain _).1
  refine ⟨before.map String.toList, behind.map String.toList ++ [[]],
    List.forall_mem_map.2 hbefore, List.forall_mem_append.2 ⟨List.forall_mem_map.2 hbehind,
      List.forall_mem_singleton.2 Edge.nil.toSilent⟩, ?_⟩
  rw [layout, Writer.pieces_text_of_oneLine, hlines]
  · simp
  · rw [hlines]
    simp only [List.forall_mem_append, List.forall_mem_map]
    exact ⟨⟨fun line hline => (hbefore line hline).oneLine, htexts⟩,
      fun line hline => (hbehind line hline).oneLine⟩

/-- In the whole text, each token is there once. -/
theorem occurrences_layout (parts : language.HarnessParts ctx steps) {index : Nat}
    (hindex : index < ctx.signature.inputs.length) :
    occurrences (language.target.backend.token index).toList
      (layout language.target.backend.indentUnit steps).toList = 1 := by
  obtain ⟨before, behind, hbefore, hbehind, hpieces⟩ := parts.exists_pieces
  have hsilent {lines : List (List Char)}
      (h : ∀ line ∈ lines, Silent language.tokenStem line) :
      (lines.map (occurrences (language.target.backend.token index).toList)).sum = 0 := by
    refine List.sum_eq_zero (List.forall_mem_map.2 fun line hline => ?_)
    exact occurrences_token_silent (h line hline) index
  rw [occurrences_pieces (language.token_ne_nil index) (language.token_plain index).1, hpieces,
    List.map_append, List.map_append, List.sum_append, List.sum_append, hsilent hbefore,
    hsilent hbehind, sum_occurrences parts.inputs, if_pos]
  omega

theorem exists_entryLines (parts : language.HarnessParts ctx steps) :
    ∃ opening rest, language.entryLines steps = (language.unitDepth, opening) :: rest ∧
      ∀ text ∈ parts.texts, (language.unitDepth + 1, text.toList) ∈ rest := by
  obtain ⟨opening, hopening, -, hopens, -⟩ := language.openMain_eq
  have hlines := entryLines_program parts.defines parts.binds hopening hopens
  rw [← parts.steps_eq] at hlines
  refine ⟨_, _, hlines, fun text htext => ?_⟩
  rw [Step.placed_append, Step.placed_append, language.binds_readInput.depth, Step.placed_lines]
  exact List.mem_append_left _ (List.mem_append_left _
    (List.mem_append_right _ (List.mem_map_of_mem htext)))

theorem bindingLines_eq (parts : language.HarnessParts ctx steps)
    (hdistinct : (language.scopeNames steps).Nodup) {text : String} (htext : text ∈ parts.texts)
    {name : String} (hname : language.locals text.toList = [name]) :
    language.bindingLines steps name = [text.toList] := by
  obtain ⟨opening, rest, hlines, hmem⟩ := parts.exists_entryLines
  obtain ⟨houtside, hinside⟩ : language.inScope language.unitDepth = false ∧
      language.inScope (language.unitDepth + 1) = true := by
    cases language <;> decide
  have hlocals : (language.localNames rest).Nodup := by
    rw [scopeNames, hlines] at hdistinct
    exact (List.nodup_append.1 hdistinct).2.1
  have honly := filter_of_nodup_flatMap hlocals
    (List.mem_filter.2 ⟨hmem text htext, hinside⟩) (hname ▸ List.mem_singleton_self name)
  rw [List.filter_filter] at honly
  rw [bindingLines, hlines, List.filter_cons_of_neg (by simp [houtside])]
  rw [honly, List.map_singleton]

/-- **Each input is where its token is**, on the lines behind one another. -/
theorem exists_inputAt (parts : language.HarnessParts ctx steps)
    (hctx : ctx.Bound language.target.bindings)
    (hadmissible : ∀ input ∈ ctx.signature.inputs, Name.Admissible input.name)
    (hdistinct : (language.scopeNames steps).Nodup) : ∃ start, ∀ index input,
      ctx.signature.inputs[index]? = some input →
      ∃ text, language.InputAt ctx steps index input (start + index) text := by
  obtain ⟨before, behind, -, -, hpieces⟩ := parts.exists_pieces
  refine ⟨before.length, fun index input hinput => ?_⟩
  obtain ⟨text, htext, hdeclares, hcarries⟩ := parts.exists_text hinput
  have hname : Name.Admissible input.name := hadmissible input (List.mem_of_getElem? hinput)
  obtain ⟨hindex, -⟩ := List.getElem?_eq_some_iff.1 hinput
  have hposition : (Text.pieces '\n'
      (layout language.target.backend.indentUnit steps).toList)[before.length + index]? =
        some (Writer.indented language.target.backend.indentUnit (language.unitDepth + 1)
          text).toList := by
    rw [hpieces, List.append_assoc, List.getElem?_append_right (Nat.le_add_right _ _),
      Nat.add_sub_cancel_left, List.getElem?_append_left, List.getElem?_map, htext]
    · rfl
    · rw [List.length_map]
      exact (List.getElem?_eq_some_iff.1 htext).1
  have honce := parts.occurrences_layout hindex
  refine ⟨text, hdeclares, ⟨hposition, ?_⟩, fun hblank => ?_, ?_, honce⟩
  · -- the token is once in the text, and this line has it
    rw [occurrences_pieces (language.token_ne_nil index) (language.token_plain index).1] at honce
    refine count_eq_one_of_sum honce (List.mem_of_getElem? hposition) ?_
    rw [occurrences_token_carried (language.carries_indented hcarries _), if_pos rfl]
    exact Nat.one_ne_zero
  · obtain ⟨value, -, hdeclare⟩ := hdeclares
    refine parts.bindingLines_eq hdistinct (List.mem_of_getElem? htext) ?_
    rw [locals_declareInput hctx hname input.type hdeclare, visible,
      List.filter_cons_of_pos (by simp [hblank]), List.filter_nil]
  · rw [occurrences_token_carried hcarries, if_pos rfl]

end HarnessParts

end Language

/-! ## All signatures -/

namespace Signature

/-- **Parameters, decoding and call agree.** For a signature that has a source, in each language:
the parameters of the stub declare the names of the inputs, the call passes these names, and in the
harness there is for each input one line that declares it. These lines stand one behind another, and
the expression for a line of the standard input occurs once in the whole harness, on the line of its
input. -/
theorem parameters_decoding_and_call_agree {source : String} {signature : Signature}
    (h : Signature.ofSource source = .ok signature) (language : Language) {lenient : Bool}
    {generator : Generator} (hgenerator : Generator.standard lenient = .ok generator) :
    let backend := language.target.backend
    let ctx (purpose : Purpose) : Context := ⟨signature, generator.registry, language, purpose⟩
    (∀ purpose, ∃ opening, backend.signatureLine (ctx purpose) = .ok opening ∧
      (Text.arguments? opening).map (·.map language.parameterName) = some signature.names) ∧
    Text.arguments? (backend.call signature) = some (signature.names.map backend.reference) ∧
    ∃ steps start, backend.program (ctx .harness) = .ok steps ∧
      generator.generate signature false language = .ok (layout backend.indentUnit steps) ∧
      ∀ index input, signature.inputs[index]? = some input →
        ∃ text, language.InputAt (ctx .harness) steps index input (start + index) text := by
  intro backend ctx
  have hadmissible := admissible_of_ofSource h
  have hnames : ∀ input ∈ signature.inputs, Name.isIdentifier input.name :=
    fun input hinput => (hadmissible input hinput).isIdentifier
  have hctx (purpose : Purpose) : (ctx purpose).Bound language.target.bindings :=
    Generator.binds_of_standard hgenerator language
  obtain ⟨steps, hsteps, hgenerate⟩ := Generator.exists_harness hgenerator signature language
  obtain ⟨parts⟩ := Language.exists_harnessParts (hctx .harness) rfl hadmissible hsteps
  have hclash := Language.noClash_harness (hctx .harness) rfl hadmissible
    (claims_nodup_of_ofSource h) hsteps
  obtain ⟨start, hinputs⟩ := parts.exists_inputAt (hctx .harness) hadmissible hclash.distinct
  exact ⟨fun purpose => Language.arguments?_signatureLine (hctx purpose) hnames,
    Language.arguments?_call language hnames, steps, start, hsteps, hgenerate, hinputs⟩

/-- A parameter of C++ with a comma in its type, and another one. -/
theorem parameters_decoding_and_call_agree_cpp :
    let registry : Registry := ⟨Registry.standardRows, Language.all, false⟩
    let counts : Parameter := ⟨"counts", .composite .map .integer, some 2⟩
    let n : Parameter := ⟨"n", .scalar .integer, none⟩
    let signature : Signature := ⟨[counts, n], .scalar .integer⟩
    let ctx : Context := ⟨signature, registry, .cpp, .harness⟩
    let opening := "int execute(std::unordered_map<std::string, int> counts, int n) \x7b"
    Signature.ofSource "map -> integer counts 2\ninteger -> n\ninteger -> return" = .ok signature ∧
    (Text.arguments? opening).map (·.map Language.cpp.parameterName) = some ["counts", "n"] ∧
    Text.arguments? "execute(counts, n)" = some ["counts", "n"] ∧
    ∃ steps start text text',
      Generator.generate ⟨registry, Language.all⟩ signature false .cpp =
        .ok (layout "    " steps) ∧
      Language.cpp.InputAt ctx steps 0 counts start text ∧
      Language.cpp.InputAt ctx steps 1 n (start + 1) text' := by
  intro registry counts n signature ctx opening
  have hsource : Signature.ofSource "map -> integer counts 2\ninteger -> n\ninteger -> return" =
      .ok signature := by
    decide +kernel
  have hopening : Language.cpp.target.backend.signatureLine ctx = .ok opening := by
    decide +kernel
  have hstandard : Generator.standard false = .ok ⟨registry, Language.all⟩ := rfl
  obtain ⟨hparameters, hcall, steps, start, -, hgenerate, hinputs⟩ :=
    parameters_decoding_and_call_agree hsource .cpp hstandard
  obtain ⟨opening', hopening', hread⟩ := hparameters .harness
  obtain rfl := Except.ok.inj (hopening.symm.trans hopening')
  obtain ⟨text, htext⟩ := hinputs 0 counts rfl
  obtain ⟨text', htext'⟩ := hinputs 1 n rfl
  exact ⟨hsource, hread, hcall, steps, start, text, text', hgenerate, htext, htext'⟩

end Signature

end StructuredCall
