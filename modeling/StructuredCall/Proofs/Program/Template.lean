import StructuredCall.Proofs.Program.Completeness
import StructuredCall.Proofs.Program.Lines

/-!
# What test data changes in a program

The programs for two test cases of one signature, language and body are the same line by line,
apart from the lines that hold data: the declarations of inputs, the constants for their sizes, and
the entries of the record that are about the test case. Which lines those are does not depend on
the test cases.

**Slots.** A `Slot` says what a line that holds data is for, and `Slot.Holds` when a text is such a
line for a test case. The outline of a program (`Language.exists_outline`) is fixed apart from its
slots, because everything else is settled by the signature and the bindings (`Settled`), and what
writing makes of an outline is the matter of `layout_fills`.

Main result: `Materializer.programs_share_template`.
-/

namespace StructuredCall

/-- What a line that holds data is for. -/
inductive Slot
  /-- The declaration of an input. -/
  | input (input : Parameter)
  /-- The constant for the number of an input's elements. -/
  | size (input : Parameter)
  /-- The entry of the record with a key. -/
  | entry (key : String)

namespace Slot

/-- The keys of the entries that are about the test case. -/
def dataKeys : List String :=
  ["caseNo", "caseId", "expected", "isSample", "passed"]

/-- The text of a slot in the program of a test case. -/
inductive Holds (language : Language) (ctx : Context) (test : TestCase) (caseNo : Nat) :
    Slot → String → Prop
  | input {input : Parameter} {value : Json} {literal : Literal} {expr text : String}
    (given : (input, value) ∈ ctx.signature.inputs.zip test.input)
    (decoded : Literal.decode input.type value = .ok literal)
    (written : language.target.style.literal? ctx input.type literal = some (.ok expr))
    (declared : language.target.backend.declare ctx input.name input.type expr = .ok text) :
    Holds language ctx test caseNo (.input input) text
  | size {input : Parameter} {value : Json} {literal : Literal} {text : String}
    (given : (input, value) ∈ ctx.signature.inputs.zip test.input)
    (decoded : Literal.decode input.type value = .ok literal)
    (composite : input.isComposite = true)
    (declared : language.target.style.sizeConstant language.target.backend ctx
      (Name.sizeName input.name) literal.size = .ok text) :
    Holds language ctx test caseNo (.size input) text
  | entry {entry : RecordEntry} {before between behind : String}
    (given : entry ∈ language.target.style.outcomeRecord language.target.backend
      ctx.signature.returns test caseNo)
    (data : entry.key ∈ dataKeys)
    (recorded : .line (before ++ entry.key ++ between ++ entry.value.expr ++ behind) ∈
      language.target.style.record (language.target.style.outcomeRecord language.target.backend
        ctx.signature.returns test caseNo)) :
    Holds language ctx test caseNo (.entry entry.key)
      (before ++ entry.key ++ between ++ entry.value.expr ++ behind)

/-- The same, and the text is not empty and on one line. -/
def HoldsPlain (language : Language) (ctx : Context) (test : TestCase) (caseNo : Nat) (slot : Slot)
    (text : String) : Prop :=
  slot.Holds language ctx test caseNo text ∧ text ≠ "" ∧ Text.OneLine text

theorem plain_holdsPlain (language : Language) (ctx : Context) (test : TestCase) (caseNo : Nat) :
    Ruling.Plain (HoldsPlain language ctx test caseNo) :=
  fun _ _ h => h.2

def ofInput (input : Parameter) : List Slot :=
  if input.isComposite then [.input input, .size input] else [.input input]

/-- The slots of all inputs, in the order of their declarations. -/
def ofInputs (inputs : List Parameter) : List Slot :=
  (inputs.filter (·.isComposite)).flatMap ofInput ++
    (inputs.filter (!·.isComposite)).flatMap ofInput

end Slot

/-! ## Inputs -/

namespace Language

variable {language : Language} {ctx : Context} (hctx : ctx.Bound language.target.bindings)
  {test : TestCase} {caseNo : Nat}
include hctx

theorem inputLines_slots {index : Nat} {input : Parameter} {value : Json} {literal : Literal}
    {lines : List String} (hname : Name.Admissible input.name)
    (hgiven : (input, value) ∈ ctx.signature.inputs.zip test.input)
    (hdecoded : Literal.decode input.type value = .ok literal)
    (h : language.target.style.inputLines language.target.backend ctx caseNo index input literal =
      .ok lines) :
    List.Forall₂ (Slot.HoldsPlain language ctx test caseNo) (Slot.ofInput input) lines := by
  have htype := Literal.hasType_of_decode hdecoded
  have hwritten := language.literal?_eq hctx htype
  have hexpr := (language.spelling_encloses.literalText htype).oneLine
  simp only [CaseStyle.inputLines, hwritten, Judged.ofCompiled_ok, Compiled.ok_bind] at h
  obtain ⟨declaration, hdeclared, h⟩ := Compiled.bind_eq_ok.1 h
  rw [Judged.ofCompiled_eq_ok] at hdeclared
  have hinput : Slot.HoldsPlain language ctx test caseNo (.input input) declaration :=
    ⟨.input hgiven hdecoded hwritten hdeclared,
      plain_declare hctx hname.oneLine input.type hexpr hdeclared⟩
  -- a composite has a second slot, for its size
  unfold Slot.ofInput
  split at h
  · next hcomposite =>
    obtain ⟨size, hsize, h⟩ := Compiled.bind_eq_ok.1 h
    rw [Judged.ofCompiled_eq_ok] at hsize
    cases h
    have hsizeName : Text.OneLine (Name.sizeName input.name) :=
      Text.oneLine_append.2 ⟨hname.oneLine, by decide⟩
    rw [if_pos hcomposite]
    exact .cons hinput (.cons ⟨.size hgiven hdecoded hcomposite hsize,
      plain_sizeConstant hctx hsizeName hsize⟩ .nil)
  · next hscalar =>
    cases h
    rw [if_neg hscalar]
    exact .cons hinput .nil

/-- An input with its lines. -/
def Declares (language : Language) (ctx : Context) (test : TestCase) (caseNo : Nat)
    (input : Parameter) (declared : Parameter × List String) : Prop :=
  declared.1 = input ∧
    List.Forall₂ (Slot.HoldsPlain language ctx test caseNo) (Slot.ofInput input) declared.2

theorem allInputLines_slots {index : Nat} {inputs : List Parameter} {values : List Json}
    {literals : List Literal} {declared : List (Parameter × List String)}
    (hlength : values.length = inputs.length)
    (hnames : ∀ input ∈ inputs, Name.Admissible input.name)
    (hgiven : ∀ pair ∈ inputs.zip values, pair ∈ ctx.signature.inputs.zip test.input)
    (hdecoded : Literal.Decode (inputs.zip values) literals)
    (h : language.target.style.allInputLines language.target.backend ctx caseNo index inputs
      literals = .ok declared) :
    List.Forall₂ (Declares language ctx test caseNo) inputs declared := by
  induction inputs generalizing index values literals declared with
  | nil =>
    cases h
    exact .nil
  | cons input inputs ih =>
    cases values with
    | nil => cases hlength
    | cons value values =>
      rw [List.zip_cons_cons] at hgiven hdecoded
      cases hdecoded with
      | @cons _ literal _ literals hvalue hvalues =>
        obtain ⟨lines, hlines, h⟩ := Compiled.bind_eq_ok.1 h
        obtain ⟨rest, hrest, h⟩ := Compiled.bind_eq_ok.1 h
        cases h
        obtain ⟨hname, hnames⟩ := List.forall_mem_cons.1 hnames
        obtain ⟨hfirst, hgiven⟩ := List.forall_mem_cons.1 hgiven
        exact .cons ⟨rfl, inputLines_slots hctx hname hfirst hvalue hlines⟩
          (ih (Nat.succ.inj hlength) hnames hgiven hvalues hrest)

omit hctx in
/-- Hoisting goes by the inputs, not by their lines. -/
theorem hoisted_slots {inputs : List Parameter} {declared : List (Parameter × List String)}
    (h : List.Forall₂ (Declares language ctx test caseNo) inputs declared) :
    List.Forall₂ (Slot.HoldsPlain language ctx test caseNo) (Slot.ofInputs inputs)
      (CaseStyle.hoisted declared) := by
  refine List.rel_append (List.rel_flatMap (List.rel_filter ?_ h) ?_)
    (List.rel_flatMap (List.rel_filter ?_ h) ?_)
  · rintro input declared ⟨rfl, -⟩
    exact Iff.rfl
  · exact fun _ _ hdeclared => hdeclared.2
  · rintro input declared ⟨rfl, -⟩
    exact Iff.rfl
  · exact fun _ _ hdeclared => hdeclared.2

omit hctx

/-! ## The record -/

theorem entry_slot (index : Nat) {entry : RecordEntry}
    (hentry : (language.target.style.outcomeRecord language.target.backend ctx.signature.returns
      test caseNo)[index]? = some entry)
    (hdata : entry.key ∈ Slot.dataKeys) (hexpr : Text.OneLine entry.value.expr) :
    Slotted.Fills (HoldsStep (Slot.HoldsPlain language ctx test caseNo))
      (.slot (.entry entry.key)) (.line ((language.entryMarks index entry.value).line entry)) := by
  have hkeys : ∀ key ∈ Slot.dataKeys, Text.OneLine key := by decide
  exact .slot ⟨_, ⟨.entry (List.mem_of_getElem? hentry) hdata
    (language.entryLine_mem_record hentry),
    language.plain_entryLine index (hkeys _ hdata) hexpr⟩, rfl⟩

/-- The entries of a record; those that are not about the test case are fixed. -/
def entryOutline (language : Language) : List (Slotted Slot Step) :=
  let fixed (index : Nat) (key : String) (value : RecordValue) : Slotted Slot Step :=
    .fixed (.line ((language.entryMarks index value).line ⟨key, value⟩))
  let reference := language.target.backend.reference
  [.slot (.entry "caseNo"), .slot (.entry "caseId"), .slot (.entry "expected"),
    .slot (.entry "isSample"), fixed 4 "memory" (.number "0"),
    fixed 5 "time" (.number (reference elapsedVariable)), .slot (.entry "passed"),
    fixed 7 "console" (.text (language.target.style.console (reference capturedVariable))),
    fixed 8 "output" (.text (reference outputVariable))]

theorem entries_slots :
    List.Forall₂ (Slotted.Fills (HoldsStep (Slot.HoldsPlain language ctx test caseNo)))
      language.entryOutline
      ((language.target.style.outcomeRecord language.target.backend ctx.signature.returns test
        caseNo).mapIdx fun index entry =>
          .line ((language.entryMarks index entry.value).line entry)) := by
  have hexpected := language.oneLine_stringLiteral (Expected.text ctx.signature.returns test.output)
  have houtput := language.oneLine_reference (show Text.OneLine outputVariable by decide)
  exact
    .cons (entry_slot 0 rfl (by simp [Slot.dataKeys]) (oneLine_natText _)) <|
    .cons (entry_slot 1 rfl (by simp [Slot.dataKeys]) (language.oneLine_stringLiteral _)) <|
    .cons (entry_slot 2 rfl (by simp [Slot.dataKeys]) hexpected) <|
    .cons (entry_slot 3 rfl (by simp [Slot.dataKeys]) (language.oneLine_boolLiteral _)) <|
    .cons (.fixed _) <| .cons (.fixed _) <|
    .cons (entry_slot 6 rfl (by simp [Slot.dataKeys])
      (language.oneLine_equality houtput hexpected)) <|
    .cons (.fixed _) <| .cons (.fixed _) .nil

theorem exists_recordOutline (language : Language) : ∃ outline : List (Slotted Slot Step),
    ∀ ctx test caseNo,
      List.Forall₂ (Slotted.Fills (HoldsStep (Slot.HoldsPlain language ctx test caseNo))) outline
        (language.target.style.record (language.target.style.outcomeRecord language.target.backend
          ctx.signature.returns test caseNo)) := by
  obtain ⟨front, back, hrecord⟩ := language.record_eq
  refine ⟨front.map .fixed ++ language.entryOutline ++ back.map .fixed, fun ctx test caseNo => ?_⟩
  rw [hrecord]
  exact List.rel_append (List.rel_append (Slotted.fills_fixed _ front) entries_slots)
    (Slotted.fills_fixed _ back)

/-! ## Programs -/

theorem slots_lines {slots : List Slot} {lines : List String}
    (h : List.Forall₂ (Slot.HoldsPlain language ctx test caseNo) slots lines) :
    List.Forall₂ (Slotted.Fills (HoldsStep (Slot.HoldsPlain language ctx test caseNo)))
      (slots.map .slot) (lines.map .line) := by
  rw [List.forall₂_map_left_iff, List.forall₂_map_right_iff]
  exact h.imp fun _ text htext => .slot ⟨text, htext, rfl⟩

/-- **A program has an outline**, which depends on the signature, the language and the body. -/
theorem exists_outline (language : Language) {signature : Signature}
    (hnames : ∀ input ∈ signature.inputs, Name.Admissible input.name) (body : String) :
    ∃ outline : List (Slotted Slot Step), ∀ ctx test caseNo literals steps,
      ctx.signature = signature → ctx.Bound language.target.bindings →
      Literal.ofCase signature test = .ok literals →
      language.target.style.program language.target.backend ctx body test caseNo literals =
        .ok steps →
      List.Forall₂ (Slotted.Fills (HoldsStep (Slot.HoldsPlain language ctx test caseNo))) outline
        steps := by
  -- what does not depend on the test case is the same in all contexts, so it can be chosen first
  obtain ⟨stub, hstub⟩ : Settled language.target.bindings signature
      (language.target.backend.stub · (if Text.isBlankText body then none else some body)) :=
    (language.determined_stub _).settled
  obtain ⟨call, hcall⟩ : Settled language.target.bindings signature
      language.target.backend.callLine := language.determined_callLine.settled
  obtain ⟨rendered, hrendered⟩ : Settled language.target.bindings signature
      language.target.backend.renderedResult :=
    language.determined_renderedResult.settled
  obtain ⟨output, houtput⟩ : Settled language.target.bindings signature fun ctx =>
      language.target.backend.declare ctx outputVariable (.scalar .string) rendered :=
    (language.determined_declare _ _ _).settled
  obtain ⟨record, hrecord⟩ := language.exists_recordOutline
  let style := language.target.style
  let backend := language.target.backend
  let opening := style.prelude backend ++ [.blank] ++ backend.openUnit ++ stub ++ [.blank] ++
    style.support ++ [.blank] ++ backend.openMain
  refine ⟨opening.map .fixed ++ (Slot.ofInputs signature.inputs).map .slot ++
    (style.measuredCall call).map .fixed ++ [.fixed (.line output)] ++ record ++
    backend.closeMain.map .fixed ++ backend.closeUnit.map .fixed, ?_⟩
  rintro ctx test caseNo literals steps rfl hctx hdecoded hsteps
  simp only [CaseStyle.program, hstub ctx rfl hctx, hcall ctx rfl hctx, hrendered ctx rfl hctx,
    houtput ctx rfl hctx, Judged.ofCompiled_ok, Compiled.ok_bind] at hsteps
  obtain ⟨declared, hdeclared, hsteps⟩ := Compiled.bind_eq_ok.1 hsteps
  cases hsteps
  have hinputs : List.Forall₂ (Slot.HoldsPlain language ctx test caseNo)
      (Slot.ofInputs ctx.signature.inputs) (CaseStyle.hoisted declared) := by
    obtain ⟨hlength, hvalues⟩ := Literal.ofCase_eq_ok.1 hdecoded
    exact hoisted_slots (allInputLines_slots hctx hlength hnames (fun _ h => h) hvalues hdeclared)
  have hfixed := Slotted.fills_fixed (HoldsStep (Slot.HoldsPlain language ctx test caseNo))
  exact List.rel_append (List.rel_append (List.rel_append (List.rel_append (List.rel_append
    (List.rel_append (hfixed opening) (slots_lines hinputs)) (hfixed _)) (hfixed [.line output]))
    (hrecord ctx test caseNo)) (hfixed _)) (hfixed _)

theorem oneLine_indentUnit (language : Language) :
    Text.OneLine language.target.backend.indentUnit := by
  cases language <;> decide

end Language

/-! ## Materializers -/

namespace Materializer

theorem backend_of_find {backends : Backends} {language : Language} {backend : Backend}
    (h : backends.find language = .ok backend) : backend = language.target.backend := by
  unfold Backends.find at h
  split at h <;> cases h
  rfl

theorem style_of_find {materializer : Materializer} {language : Language} {style : CaseStyle}
    (h : materializer.style language = .ok style) : style = language.target.style := by
  unfold Materializer.style at h
  split at h <;> cases h
  rfl

theorem materialize_eq_ok {materializer : Materializer} {signature : Signature}
    {language : Language} {body : String} {test : TestCase} {caseNo : Nat} {code : String}
    (h : materializer.materialize signature language body test caseNo = .ok code) :
    ∃ literals steps, Literal.ofCase signature test = .ok literals ∧
      language.target.style.program language.target.backend
        ⟨signature, materializer.registry, language, .materialized⟩ body test caseNo literals =
          .ok steps ∧
      code = layout language.target.backend.indentUnit steps := by
  obtain ⟨backend, hbackend, h⟩ := Compiled.bind_eq_ok.1 h
  obtain ⟨style, hstyle, h⟩ := Compiled.bind_eq_ok.1 h
  obtain ⟨literals, hliterals, h⟩ := Compiled.bind_eq_ok.1 h
  obtain ⟨steps, hsteps, h⟩ := Compiled.bind_eq_ok.1 h
  cases h
  obtain rfl := backend_of_find (Judged.ofCompiled_eq_ok.1 hbackend)
  obtain rfl := style_of_find (Judged.ofCompiled_eq_ok.1 hstyle)
  cases hcase : Literal.ofCase signature test with
  | error e =>
    rw [hcase] at hliterals
    cases hliterals
  | ok decoded =>
    rw [hcase] at hliterals
    cases hliterals
    exact ⟨literals, steps, rfl, hsteps, rfl⟩

/-- **Test data fills the slots of a fixed template.** For a signature that has a source, a
language and a body, there are slots such that the programs of any two test cases have equally many
lines, are the same on each line without a slot, and have on each line with a slot what the slot is
for. -/
theorem programs_share_template {signature : Signature}
    (hsource : ∃ source, Signature.ofSource source = .ok signature) (language : Language)
    (body : String) : ∃ slots : Nat → Option Slot, ∀ lenient materializer,
    Materializer.standard lenient = .ok materializer → ∀ test₁ caseNo₁ code₁ test₂ caseNo₂ code₂,
    materializer.materialize signature language body test₁ caseNo₁ = .ok code₁ →
    materializer.materialize signature language body test₂ caseNo₂ = .ok code₂ →
    let ctx : Context := ⟨signature, materializer.registry, language, .materialized⟩
    let indentUnit := language.target.backend.indentUnit
    let lines₁ := Text.pieces '\n' code₁.toList
    let lines₂ := Text.pieces '\n' code₂.toList
    lines₁.length = lines₂.length ∧
    ∀ index, match slots index with
      | none => lines₁[index]? = lines₂[index]?
      | some slot =>
        (∃ line, lines₁[index]? = some line ∧
          HoldsPiece (Slot.Holds language ctx test₁ caseNo₁) indentUnit slot line) ∧
        ∃ line, lines₂[index]? = some line ∧
          HoldsPiece (Slot.Holds language ctx test₂ caseNo₂) indentUnit slot line := by
  obtain ⟨source, hsource⟩ := hsource
  obtain ⟨outline, houtline⟩ :=
    language.exists_outline (Signature.admissible_of_ofSource hsource) body
  obtain ⟨template, htemplate⟩ := layout_fills language.oneLine_indentUnit outline
  refine ⟨fun index => template[index]?.bind Slotted.slot?, ?_⟩
  intro lenient materializer hmaterializer test₁ caseNo₁ code₁ test₂ caseNo₂ code₂ h₁ h₂
  have hbinds := binds_of_standard hmaterializer language
  -- one program at a time: its lines fill the template
  have hfills : ∀ test caseNo code,
      materializer.materialize signature language body test caseNo = .ok code →
      List.Forall₂ (Slotted.Fills (HoldsPiece (Slot.HoldsPlain language
        ⟨signature, materializer.registry, language, .materialized⟩ test caseNo)
        language.target.backend.indentUnit)) template (Text.pieces '\n' code.toList) := by
    intro test caseNo code h
    obtain ⟨literals, steps, hdecoded, hsteps, rfl⟩ := materialize_eq_ok h
    exact htemplate _ (Slot.plain_holdsPlain _ _ _ _) steps
      (houtline _ test caseNo literals steps rfl hbinds hdecoded hsteps)
  have hlines₁ := hfills test₁ caseNo₁ code₁ h₁
  have hlines₂ := hfills test₂ caseNo₂ code₂ h₂
  refine ⟨hlines₁.length_eq.symm.trans hlines₂.length_eq, fun index => ?_⟩
  dsimp only
  split
  · next hnone => exact Slotted.eq_of_no_slot hlines₁ hlines₂ hnone
  · next slot hslot =>
    obtain ⟨line₁, hline₁, hholds₁⟩ := Slotted.exists_of_slot hlines₁ hslot
    obtain ⟨line₂, hline₂, hholds₂⟩ := Slotted.exists_of_slot hlines₂ hslot
    exact ⟨⟨line₁, hline₁, hholds₁.imp fun _ _ h => h.1⟩,
      ⟨line₂, hline₂, hholds₂.imp fun _ _ h => h.1⟩⟩

/-- Two test cases for a number, one of which has a line feed in its identifier. -/
theorem programs_share_template_python :
    let materializer : Materializer :=
      ⟨⟨Registry.standardRows, Language.all, false⟩, Language.all, Language.all⟩
    let signature : Signature := ⟨[⟨"n", .scalar .integer, none⟩], .scalar .integer⟩
    let test₁ : TestCase := ⟨"a", [.number (.int 1)], .number (.int 1), true⟩
    let test₂ : TestCase := ⟨"b\n", [.number (.int (-20))], .string "x", false⟩
    ∃ slots : Nat → Option Slot, ∃ code₁ code₂,
      materializer.materialize signature .python "return n" test₁ 1 = .ok code₁ ∧
      materializer.materialize signature .python "return n" test₂ 2 = .ok code₂ ∧
      (Text.pieces '\n' code₁.toList).length = (Text.pieces '\n' code₂.toList).length ∧
      ∀ index, slots index = none →
        (Text.pieces '\n' code₁.toList)[index]? = (Text.pieces '\n' code₂.toList)[index]? := by
  intro materializer signature test₁ test₂
  have hsource : Signature.ofSource "integer -> n\ninteger -> return" = .ok signature := by
    decide +kernel
  have hfits₁ : test₁.Fits signature := ⟨rfl, List.forall_mem_singleton.2 ⟨_, rfl⟩⟩
  have hfits₂ : test₂.Fits signature := ⟨rfl, List.forall_mem_singleton.2 ⟨_, rfl⟩⟩
  have hcovers := covers_standard false .python
  obtain ⟨code₁, h₁⟩ := (exists_materialize_iff hcovers signature "return n").2 hfits₁
  obtain ⟨code₂, h₂⟩ := (exists_materialize_iff hcovers signature "return n").2 hfits₂
  obtain ⟨slots, hslots⟩ := programs_share_template ⟨_, hsource⟩ .python "return n"
  obtain ⟨hlength, hlines⟩ :=
    hslots false materializer (standard_eq false) _ 1 code₁ _ 2 code₂ h₁ h₂
  refine ⟨slots, code₁, code₂, h₁, h₂, hlength, fun index hnone => ?_⟩
  have hline := hlines index
  rw [hnone] at hline
  exact hline

end Materializer

end StructuredCall
