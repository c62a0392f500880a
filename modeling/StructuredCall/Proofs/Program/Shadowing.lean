import StructuredCall.Proofs.Program.Callees
import StructuredCall.Proofs.Program.Delimiters
import StructuredCall.Proofs.Program.Inputs

/-!
# Shadowed globals

An input is declared in the function that is the entry point, and there it shadows a global of its
name. Most globals that programs in JavaScript and TypeScript call are reserved, and no input can
have such a name. `Signature.Exposed` has the others, each with the types that bring it into a
program.

**Reading.** `Language.mainText` is the text of the entry point's function. What it calls
(`Signature.callees`) is put together from what its parts call: the lines around the inputs are
fixed, what stands around the token of an input depends on its type alone (`Kind.parseFrame`), and
the data of a test case calls nothing but the constructor of sets.

Main result: `Signature.shadowed_iff_exposed`.
-/

namespace StructuredCall

/-! ## The text of the entry point -/

/-- The lines of steps as one text, without their indentation. -/
def Step.code (steps : List Step) : List Char :=
  steps.flatMap fun
    | .line text => text.toList ++ ['\n']
    | _ => []

namespace Step

theorem code_append (steps more : List Step) : code (steps ++ more) = code steps ++ code more :=
  List.flatMap_append

theorem flatMap_placed (depth : Nat) (steps : List Step) :
    (placed depth steps).flatMap (fun line => line.2 ++ ['\n']) = code steps := by
  induction steps generalizing depth with
  | nil => rfl
  | cons step steps ih => cases step <;> simp [placed, code, ih]

theorem callsApart_line {text : String} {names : List String} (h : Calls text.toList names) :
    CallsApart (code [.line text]) names := by
  have htext : code [.line text] = text.toList ++ ['\n'] := by simp [code]
  rw [htext]
  exact h.ended (by decide)

theorem callsApart_silent {steps : List Step} (h : ∀ step ∈ steps, CallsApart (code [step]) []) :
    CallsApart (code steps) [] := by
  induction steps with
  | nil => exact .nil
  | cons step steps ih =>
    obtain ⟨hstep, hsteps⟩ := List.forall_mem_cons.1 h
    rw [← List.singleton_append, code_append]
    exact hstep.append (ih hsteps)

end Step

/-! ## What the parts of a program call -/

/-- What making a value of a kind calls. -/
def Kind.parseCallees : Kind → List String
  | .scalar .integer => ["parseInt"]
  | .scalar .float | .scalar .double => ["parseFloat"]
  | .scalar .long => ["BigInt"]
  | .scalar .boolean | .scalar .character | .scalar .string | .container .array => []
  | .container .map => ["Object"]
  | .container .set => ["Set"]

/-- What splitting the token of a composite calls. -/
def Container.splitCallees : Container → List String
  | .map => ["entry"]
  | .array | .set => []

/-- What writing a scalar as text calls. -/
def Scalar.formatCallees : Scalar → List String
  | .character | .string => []
  | _ => ["String"]

namespace DataType

/-- What decoding a value calls. -/
def decodeCallees : DataType → List String
  | .scalar s => (Kind.scalar s).parseCallees
  | .composite c e =>
    (Kind.container c).parseCallees ++ (c.splitCallees ++ (Kind.scalar e).parseCallees)

/-- What writing a value as text calls. -/
def renderCallees : DataType → List String
  | .scalar s => s.formatCallees
  | .composite .map e => "Object" :: e.formatCallees
  | .composite _ e => "Array" :: e.formatCallees

end DataType

/-- What the line of a slot calls. -/
def Slot.callees : Slot → List String
  | .input parameter => parameter.type.literalCallees
  | .size _ | .entry _ => []

/-- What the entry point of a program calls. -/
def Signature.callees (signature : Signature) : Purpose → List String
  | .starter => []
  | .harness => ["main", "fs"] ++ signature.inputs.flatMap (·.type.decodeCallees) ++
      [entryPoint, "console"] ++ signature.returns.renderCallees
  | .materialized => ["main"] ++ (Slot.ofInputs signature.inputs).flatMap Slot.callees ++
      (["console", "console", "buffer", "parts", "performance"] ++ [entryPoint] ++
        ["performance", "console", "buffer"]) ++ signature.returns.renderCallees ++
      ["console", "JSON"]

/-- What stands around the source of a value of a kind. -/
def Kind.parseFrame : Kind → Frame
  | .scalar .integer => ⟨"parseInt(", ", 10)"⟩
  | .scalar .float | .scalar .double => ⟨"parseFloat(", ")"⟩
  | .scalar .long => ⟨"BigInt(", ")"⟩
  | .scalar .boolean => ⟨"(", " === \"true\")"⟩
  | .scalar .character => ⟨"", "[0]"⟩
  | .scalar .string | .container .array => {}
  | .container .map => ⟨"Object.fromEntries(", ")"⟩
  | .container .set => ⟨"new Set(", ")"⟩

namespace Language

/-- The text of the entry point's function, up to the line that closes it. -/
def mainText (language : Language) (steps : List Step) : List Char :=
  match language.entryLines steps with
  | [] => []
  | opening :: lines => (opening :: lines.takeWhile (language.unitDepth < ·.1)).flatMap fun line =>
      line.2 ++ ['\n']

section Script

variable {language : Language} {ctx : Context} (hlanguage : language ∈ [javaScript, typeScript])
include hlanguage

/-- The text of the entry point is that of the steps inside. -/
theorem mainText_program {ahead inner : List Step} {names locals : List String}
    (hahead : language.Defines 0 language.unitDepth ahead names)
    (hinner : language.Binds (language.unitDepth + 1) (language.unitDepth + 1) inner locals) :
    language.mainText (ahead ++ language.target.backend.openMain ++ inner ++
        (language.target.backend.closeMain ++ language.target.backend.closeUnit)) =
      Step.code language.target.backend.openMain ++ Step.code inner := by
  obtain ⟨opening, hopening, -, hopens, -⟩ := language.openMain_eq
  have hclosing : (Step.placed (language.unitDepth + 1) (language.target.backend.closeMain ++
      language.target.backend.closeUnit)).takeWhile (language.unitDepth < ·.1) = [] := by
    rcases List.mem_pair.1 hlanguage with rfl | rfl <;> decide
  rw [mainText, entryLines_program hahead hinner hopening hopens]
  dsimp only
  rw [List.takeWhile_append_of_pos (by simpa using fun depth cs => hinner.deep (depth, cs)),
    hclosing, List.append_nil, List.flatMap_cons, Step.flatMap_placed, hopening]
  simp [Step.code]

theorem parse_eq (hctx : ctx.Bound language.target.bindings) (kind : Kind) (source : String) :
    ctx.parse kind source = .ok (kind.parseFrame.around source) := by
  have hcut : kind.parseFrame.Cut (language.target.bindings kind).parse := by
    rcases List.mem_pair.1 hlanguage with rfl | rfl <;> rcases kind with s | c
    · cases s <;> decide
    · cases c <;> decide
    · cases s <;> decide
    · cases c <;> decide
  rw [hctx.parse kind source, hcut.fill_eq source]

omit hlanguage in
theorem callsApart_parseFrame (kind : Kind) :
    CallsApart kind.parseFrame.before.toList kind.parseCallees ∧
      CallsApart kind.parseFrame.behind.toList [] := by
  rcases kind with s | c
  · cases s <;> exact ⟨.literal (by decide), .literal (by decide)⟩
  · cases c <;> exact ⟨.literal (by decide), .literal (by decide)⟩

omit hlanguage in
theorem calls_parseFrame (s : Scalar) :
    Calls ((Kind.scalar s).parseFrame.around "value").toList (Kind.scalar s).parseCallees ∧
      Calls ((Kind.scalar s).parseFrame.around "token").toList (Kind.scalar s).parseCallees := by
  cases s <;> decide

variable (hctx : ctx.Bound language.target.bindings)
include hctx

/-- What is done with the elements of a composite. -/
theorem callsApart_sequence {pairMark : String} (hmark : Calls pairMark.toList []) (c : Container)
    (e : Scalar) {token text : String} (htoken : CallsApart token.toList [])
    (h : Target.JavaScript.sequence pairMark ctx c e token = .ok text) :
    CallsApart text.toList (c.splitCallees ++ (Kind.scalar e).parseCallees) := by
  obtain ⟨hvalue, hitem⟩ := calls_parseFrame e
  have hbracket : EndsWord "]".toList := EndsWord.literal (by decide)
  have hparen : EndsWord ")".toList := EndsWord.literal (by decide)
  cases c with
  | map =>
    obtain ⟨value, hparse, h⟩ := Compiled.bind_eq_ok.1 h
    rw [parse_eq hlanguage hctx] at hparse
    cases hparse
    cases h
    have hfilter : CallsApart ".split(\",\").filter((entry) => entry !== \"\")".toList [] :=
      .literal (by decide)
    have hmap : CallsApart
        ".map((entry) => entry.split(\":\")).map(([key, value]) => [key, ".toList ["entry"] :=
      .literal (by decide)
    have hpair := (((htoken.append hfilter).append hmap).append_calls hvalue).ended hbracket
    have hentries := (hpair.append_calls hmark).ended hparen
    simpa [Container.splitCallees] using hentries
  | array | set =>
    obtain ⟨item, hparse, h⟩ := Compiled.bind_eq_ok.1 h
    rw [parse_eq hlanguage hctx] at hparse
    cases hparse
    cases h
    have hmap : CallsApart
        ".split(\",\").filter((token) => token !== \"\").map((token) => ".toList [] :=
      .literal (by decide)
    have hitems := ((htoken.append hmap).append_calls hitem).ended hparen
    simpa [Container.splitCallees] using hitems

/-- **Decoding the token of an input** calls what its type says. -/
theorem callsApart_decode (type : DataType) {token value : String}
    (htoken : CallsApart token.toList [])
    (h : language.target.backend.decode ctx type token = .ok value) :
    CallsApart value.toList type.decodeCallees := by
  have hframe (kind : Kind) {source value : String} {names : List String}
      (hsource : CallsApart source.toList names) (h : ctx.parse kind source = .ok value) :
      CallsApart value.toList (kind.parseCallees ++ names) := by
    rw [parse_eq hlanguage hctx] at h
    cases h
    obtain ⟨hbefore, hbehind⟩ := callsApart_parseFrame kind
    simpa [Frame.around] using hbefore.append (hsource.append hbehind)
  cases type with
  | scalar s => simpa [DataType.decodeCallees] using hframe (.scalar s) htoken h
  | composite c e =>
    obtain ⟨elements, hsequence, h⟩ := Compiled.bind_eq_ok.1 h
    refine hframe (.container c) ?_ h
    rcases List.mem_pair.1 hlanguage with rfl | rfl
    · exact callsApart_sequence hlanguage hctx (by decide) c e htoken hsequence
    · exact callsApart_sequence hlanguage hctx (by decide) c e htoken hsequence

/-! ## What printing calls -/

omit hctx in
theorem calls_formatted (s : Scalar) :
    let binding := language.target.bindings (.scalar s)
    Calls (binding.formatted "value").toList s.formatCallees ∧
      Calls (binding.formatted "item").toList s.formatCallees ∧
      Calls (binding.formatted resultVariable).toList s.formatCallees := by
  rcases List.mem_pair.1 hlanguage with rfl | rfl <;> cases s <;> decide

/-- **Writing the result as text** calls what its type says. -/
theorem calls_renderedResult {rendered : String}
    (h : language.target.backend.renderedResult ctx = .ok rendered) :
    Calls rendered.toList ctx.signature.returns.renderCallees := by
  cases hreturns : ctx.signature.returns with
  | scalar s =>
    simp only [Backend.renderedResult, hreturns, Backend.render, hctx.format] at h
    cases h
    have hresult := (calls_formatted hlanguage s).2.2
    rcases List.mem_pair.1 hlanguage with rfl | rfl <;> exact hresult
  | composite c e =>
    obtain ⟨hvalue, hitem, -⟩ := calls_formatted hlanguage e
    have hname : Calls resultVariable.toList [] := Calls.of_name (by decide)
    have hjoin : EndsWord ").join(\",\")".toList := EndsWord.literal (by decide)
    have hmap : EndsWord ").map(([key, value]) => key + \":\" + ".toList :=
      EndsWord.literal (by decide)
    have harrow : EndsWord ", (item) => ".toList := EndsWord.literal (by decide)
    have hobject : CallsApart "Object.entries(".toList ["Object"] := .literal (by decide)
    have harray : CallsApart "Array.from(".toList ["Array"] := .literal (by decide)
    have hentries := (hobject.append ((hname.ended hmap).append (hvalue.ended hjoin))).calls
    have hitems := (harray.append ((hname.ended harrow).append (hitem.ended hjoin))).calls
    have hreference : language.target.backend.reference resultVariable = resultVariable := by
      rcases List.mem_pair.1 hlanguage with rfl | rfl <;> rfl
    have hdelimiter : (language.target.bindings (.container c)).delimiter = "," := by
      rcases List.mem_pair.1 hlanguage with rfl | rfl <;> cases c <;> rfl
    simp only [Backend.renderedResult, hreturns, Backend.render, language.joined_eq hctx,
      hreference, hdelimiter] at h
    cases h
    rcases List.mem_pair.1 hlanguage with rfl | rfl <;> cases c with
    | map => simpa [joinFrame, Frame.around, DataType.renderCallees] using hentries
    | array | set => simpa [joinFrame, Frame.around, DataType.renderCallees] using hitems

omit hctx in
theorem callsApart_print {expr : String} {names : List String} (h : Calls expr.toList names) :
    CallsApart (Step.code [.line (language.target.backend.print expr)]) ("console" :: names) := by
  have hconsole : CallsApart "console.log(".toList ["console"] := .literal (by decide)
  have hclosing : EndsWord ");".toList := EndsWord.literal (by decide)
  have hline := (hconsole.append_calls h).ended hclosing
  refine Step.callsApart_line ?_
  rcases List.mem_pair.1 hlanguage with rfl | rfl <;>
    simpa [target, Target.JavaScript.target, Target.JavaScript.backend, Target.TypeScript.target,
      Target.TypeScript.backend] using hline.calls

/-! ## What the lines call -/

/-- What stands between a name and its value. -/
theorem exists_link (type : DataType) : ∃ link : String, EndsWord link.toList ∧ ∀ name value,
    language.target.backend.declare ctx name type value =
      .ok ("const " ++ name ++ link ++ value ++ ";") := by
  rcases List.mem_pair.1 hlanguage with rfl | rfl
  · exact ⟨" = ", EndsWord.literal (by decide), fun name value => rfl⟩
  · refine ⟨": " ++ typeScript.target.bindings.native type ++ " = ", ?_, fun name value => ?_⟩
    · rcases type with s | ⟨c, e⟩
      · cases s <;> decide
      · cases c <;> cases e <;> decide
    · refine Compiled.bind_eq_ok.2 ⟨_, hctx.native type, congrArg Except.ok ?_⟩
      simp only [String.append_assoc]

/-- **A declaration** calls what its value calls. -/
theorem callsApart_declare {name : String} (hname : Name.isIdentifier name) (type : DataType)
    {value text : String} {names : List String} (hvalue : Calls value.toList names)
    (h : language.target.backend.declare ctx name type value = .ok text) :
    CallsApart (Step.code [.line text]) names := by
  obtain ⟨link, hlink, hdeclare⟩ := exists_link hlanguage hctx type
  rw [hdeclare] at h
  cases h
  have hconst : CallsApart "const ".toList [] := .literal (by decide)
  have hhead := hconst.append ((Calls.of_name hname).ended hlink)
  have hsemicolon : EndsWord ";".toList := EndsWord.literal (by decide)
  have htext := (hhead.append_calls hvalue).ended hsemicolon
  exact Step.callsApart_line (by simpa using htext.calls)

omit hctx in
theorem callsApart_token (index : Nat) :
    CallsApart (language.target.backend.token index).toList [] := by
  have hdata : CallsApart "inputData[".toList [] := .literal (by decide)
  have hbracket : EndsWord "]".toList := EndsWord.literal (by decide)
  have htoken := hdata.append ((calls_natText index).ended hbracket)
  rcases List.mem_pair.1 hlanguage with rfl | rfl <;>
    simpa [target, Target.JavaScript.target, Target.JavaScript.backend, Target.TypeScript.target,
      Target.TypeScript.backend] using htoken

/-- **The lines that decode the inputs** call what the types say. -/
theorem callsApart_inputLines {index : Nat} {inputs : List Parameter}
    (hnames : ∀ input ∈ inputs, Name.Admissible input.name) {steps : List Step}
    (h : language.target.backend.inputLines ctx index inputs = .ok steps) :
    CallsApart (Step.code steps) (inputs.flatMap (·.type.decodeCallees)) := by
  induction inputs generalizing index steps with
  | nil =>
    cases h
    exact .nil
  | cons input inputs ih =>
    obtain ⟨hname, hnames⟩ := List.forall_mem_cons.1 hnames
    obtain ⟨step, hstep, h⟩ := Compiled.bind_eq_ok.1 h
    obtain ⟨rest, hrest, h⟩ := Compiled.bind_eq_ok.1 h
    obtain ⟨value, hvalue, hstep⟩ := Compiled.bind_eq_ok.1 hstep
    obtain ⟨text, htext, hstep⟩ := Compiled.bind_eq_ok.1 hstep
    cases h
    cases hstep
    have hdecoded := callsApart_decode hlanguage hctx input.type
      (callsApart_token hlanguage index) hvalue
    have hline := callsApart_declare hlanguage hctx hname.isIdentifier input.type
      hdecoded.calls htext
    rw [← List.singleton_append, Step.code_append, List.flatMap_cons]
    exact hline.append (ih hnames hrest)

theorem callsApart_callLine (hnames : ∀ input ∈ ctx.signature.inputs, Name.Admissible input.name)
    {call : String} (h : language.target.backend.callLine ctx = .ok call) :
    CallsApart (Step.code [.line call]) [entryPoint] := by
  have harguments : Calls (", ".intercalate ctx.signature.names).toList [] := by
    rw [String.toList_intercalate]
    refine Calls.intercalate fun part hpart => ?_
    simp only [Signature.names, List.map_map, List.mem_map] at hpart
    obtain ⟨input, hinput, rfl⟩ := hpart
    exact Calls.of_name (hnames input hinput).isIdentifier
  have hexecute : CallsApart "execute(".toList [entryPoint] := .literal (by decide)
  have hparen : EndsWord ")".toList := EndsWord.literal (by decide)
  have hcall := hexecute.append (harguments.ended hparen)
  have hvalue : Calls (language.target.backend.call ctx.signature).toList [entryPoint] := by
    have hnames : ctx.signature.names.map language.target.backend.reference =
        ctx.signature.names := by
      rcases List.mem_pair.1 hlanguage with rfl | rfl <;> exact List.map_id _
    rw [Backend.call, hnames]
    simpa [entryPoint] using hcall.calls
  exact callsApart_declare hlanguage hctx (by decide) _ hvalue h

omit hctx in
/-- The lines that read the input, and the one that opens the entry point. -/
theorem callsApart_opening :
    CallsApart (Step.code language.target.backend.openMain) ["main"] ∧
      CallsApart (Step.code language.target.backend.readInput) ["fs"] := by
  rcases List.mem_pair.1 hlanguage with rfl | rfl <;> decide

/-! ## What a program for a test case calls -/

omit hctx in
theorem callsApart_measuredCall {call : String} {names : List String}
    (h : CallsApart (Step.code [.line call]) names) :
    CallsApart (Step.code (language.target.style.measuredCall call))
      (["console", "console", "buffer", "parts", "performance"] ++ names ++
        ["performance", "console", "buffer"]) := by
  let steps := language.target.style.measuredCall ""
  have hsteps : language.target.style.measuredCall call =
      steps.take 8 ++ [.line call] ++ steps.drop 9 := by
    rcases List.mem_pair.1 hlanguage with rfl | rfl <;> rfl
  have hfront : CallsApart (Step.code (steps.take 8))
      ["console", "console", "buffer", "parts", "performance"] := by
    rcases List.mem_pair.1 hlanguage with rfl | rfl <;> decide +kernel
  have hback : CallsApart (Step.code (steps.drop 9)) ["performance", "console", "buffer"] := by
    rcases List.mem_pair.1 hlanguage with rfl | rfl <;> decide +kernel
  rw [hsteps, Step.code_append, Step.code_append]
  exact (hfront.append h).append hback

omit hctx in
theorem calls_outcome (returns : DataType) (test : TestCase) (caseNo : Nat) :
    ∀ entry ∈ language.target.style.outcomeRecord language.target.backend returns test caseNo,
      Name.isIdentifier entry.key ∧ Calls entry.value.expr.toList [] := by
  have hstring (s : String) : CallsApart (language.target.style.stringLiteral s).toList [] := by
    rw [stringLiteral_eq]
    exact language.spelling_string_sound.callsApart s
  have hbool (b : Bool) : Calls (language.target.style.boolLiteral b).toList [] := by
    rcases List.mem_pair.1 hlanguage with rfl | rfl <;> cases b <;> exact Calls.of_name (by decide)
  have hreference {name : String} (h : Name.isIdentifier name) :
      Calls (language.target.backend.reference name).toList [] := by
    rcases List.mem_pair.1 hlanguage with rfl | rfl <;> exact Calls.of_name h
  have hequality (expected : String) : Calls (language.target.style.equality
      (language.target.backend.reference outputVariable)
      (language.target.style.stringLiteral expected)).toList [] := by
    have hequals : EndsWord " === ".toList := EndsWord.literal (by decide)
    have h := (((hreference (show Name.isIdentifier outputVariable by decide)).ended hequals).append
      (hstring expected)).calls
    rcases List.mem_pair.1 hlanguage with rfl | rfl <;>
      simpa only [target, Target.JavaScript.target, Target.JavaScript.style,
        Target.TypeScript.target, Target.TypeScript.style, String.toList_append, List.append_nil]
        using h
  have hconsole : Calls (language.target.style.console
      (language.target.backend.reference capturedVariable)).toList [] := by
    rcases List.mem_pair.1 hlanguage with rfl | rfl <;> exact Calls.of_name (by decide)
  simp only [CaseStyle.outcomeRecord, List.forall_mem_cons, RecordValue.expr]
  exact ⟨⟨by decide, calls_natText _⟩, ⟨by decide, (hstring _).calls⟩,
    ⟨by decide, (hstring _).calls⟩, ⟨by decide, hbool _⟩,
    ⟨by decide, Calls.literal (by decide)⟩, ⟨by decide, hreference (by decide)⟩,
    ⟨by decide, hequality _⟩, ⟨by decide, hconsole⟩, ⟨by decide, hreference (by decide)⟩, by simp⟩

omit hctx in
/-- **The record of an outcome** is printed, and the data in it calls nothing. -/
theorem callsApart_record (returns : DataType) (test : TestCase) (caseNo : Nat) :
    CallsApart (Step.code (language.target.style.record (language.target.style.outcomeRecord
      language.target.backend returns test caseNo))) ["console", "JSON"] := by
  have hentries := calls_outcome hlanguage returns test caseNo
  generalize language.target.style.outcomeRecord language.target.backend returns test caseNo =
    entries at hentries
  have hrecord : language.target.style.record entries = Target.JavaScript.record entries := by
    rcases List.mem_pair.1 hlanguage with rfl | rfl <;> rfl
  have hfront : CallsApart (Step.code [.line "const record = \x7b", .indent]) [] := by
    decide
  have hback : CallsApart (Step.code [.dedent, .line "\x7d;",
      .line "console.log(JSON.stringify(record));"]) ["console", "JSON"] := by
    decide
  rw [hrecord, Target.JavaScript.record, Step.code_append, Step.code_append]
  refine (hfront.append (Step.callsApart_silent fun step hstep => ?_)).append hback
  obtain ⟨entry, hentry, rfl⟩ := List.mem_map.1 hstep
  obtain ⟨hkey, hexpr⟩ := hentries entry hentry
  have hcolon : EndsWord ": ".toList := EndsWord.literal (by decide)
  have hcomma : EndsWord ",".toList := EndsWord.literal (by decide)
  have hline := (((Calls.of_name hkey).ended hcolon).append_calls hexpr).ended hcomma
  exact Step.callsApart_line (by simpa using hline.calls)

theorem callsApart_slot {test : TestCase} {caseNo : Nat} {slot : Slot} {input : Parameter}
    {text : String} (hslot : slot ∈ Slot.ofInput input) (hname : Name.Admissible input.name)
    (h : slot.Holds language ctx test caseNo text) :
    CallsApart (Step.code [.line text]) slot.callees := by
  rcases Slot.mem_ofInput.1 hslot with rfl | ⟨-, rfl⟩
  · cases h with
    | @input _ value literal expr _ given decoded written declared =>
      have htype := Literal.hasType_of_decode decoded
      rw [language.literal?_eq hctx htype] at written
      cases written
      refine callsApart_declare hlanguage hctx hname.isIdentifier _ ?_ declared
      rcases List.mem_pair.1 hlanguage with rfl | rfl <;> exact calls_literalText htype
  · cases h with
    | @size _ value literal _ given decoded composite declared =>
      refine callsApart_declare hlanguage hctx hname.sizeName.isIdentifier (.scalar .integer)
        (calls_intText literal.size) ?_
      rcases List.mem_pair.1 hlanguage with rfl | rfl <;> exact declared

/-- **The lines that declare the inputs of a test case** call the constructor of sets only. -/
theorem callsApart_slots {test : TestCase} {caseNo : Nat} {slots : List Slot} {texts : List String}
    (hslots : ∀ slot ∈ slots, ∃ input, slot ∈ Slot.ofInput input ∧ Name.Admissible input.name)
    (h : List.Forall₂ (Slot.HoldsPlain language ctx test caseNo) slots texts) :
    CallsApart (Step.code (texts.map .line)) (slots.flatMap Slot.callees) := by
  induction h with
  | nil => exact .nil
  | @cons slot text slots texts hholds _ ih =>
    obtain ⟨⟨input, hslot, hname⟩, hslots⟩ := List.forall_mem_cons.1 hslots
    have hline := callsApart_slot hlanguage hctx hslot hname hholds.1
    rw [List.map_cons, ← List.singleton_append, Step.code_append, List.flatMap_cons]
    exact hline.append (ih hslots)

/-! ## Programs -/

/-- **What a harness calls.** -/
theorem callsApart_harness (hpurpose : ctx.purpose = .harness)
    (hadmissible : ∀ input ∈ ctx.signature.inputs, Name.Admissible input.name) {steps : List Step}
    (h : language.target.backend.program ctx = .ok steps) :
    CallsApart (language.mainText steps) (ctx.signature.callees .harness) := by
  obtain ⟨parts⟩ := exists_harnessSteps hctx hpurpose hadmissible h
  obtain ⟨hopening, hread⟩ := callsApart_opening hlanguage
  have hinputs := callsApart_inputLines hlanguage hctx hadmissible parts.inputLines
  have hcall := callsApart_callLine hlanguage hctx hadmissible parts.callLine
  have hprint := callsApart_print hlanguage
    (calls_renderedResult hlanguage hctx parts.renderedResult)
  have hlast : ∀ last : Step, [.line parts.call, last] = [.line parts.call] ++ [last] :=
    fun _ => rfl
  rw [parts.steps_eq, mainText_program hlanguage parts.defines parts.binds, List.append_assoc,
    hlast]
  simp only [Step.code_append]
  simpa [Signature.callees] using
    hopening.append (hread.append (hinputs.append (hcall.append hprint)))

/-- **What a program for a test case calls.** -/
theorem callsApart_case
    (hadmissible : ∀ input ∈ ctx.signature.inputs, Name.Admissible input.name) {body : String}
    {test : TestCase} {caseNo : Nat} {literals : List Literal} {steps : List Step}
    (hdecoded : Literal.ofCase ctx.signature test = .ok literals)
    (h : language.target.style.program language.target.backend ctx body test caseNo literals =
      .ok steps) :
    CallsApart (language.mainText steps) (ctx.signature.callees .materialized) := by
  obtain ⟨parts, rendered, output, hrendered, houtput, hlast⟩ :=
    exists_caseParts_last hctx hadmissible hdecoded h
  obtain ⟨hopening, -⟩ := callsApart_opening hlanguage
  have hinputs := callsApart_slots hlanguage hctx (fun slot hslot => by
    obtain ⟨input, hmem, hslot⟩ := Slot.exists_of_mem_ofInputs hslot
    exact ⟨input, hslot, hadmissible input hmem⟩) parts.slots
  have hcall := callsApart_measuredCall hlanguage
    (callsApart_callLine hlanguage hctx hadmissible parts.callLine)
  have houtput := callsApart_declare hlanguage hctx (by decide) _
    (calls_renderedResult hlanguage hctx hrendered) houtput
  have hrecord := callsApart_record hlanguage ctx.signature.returns test caseNo
  rw [parts.steps_eq, mainText_program hlanguage parts.defines parts.binds, hlast]
  simp only [Step.code_append]
  simpa [Signature.callees] using
    hopening.append ((hinputs.append hcall).append (houtput.append hrecord))

end Script

end Language

/-! ## Exposed globals -/

/-- A type of one scalar, or of several. -/
def DataType.Has (type : DataType) (s : Scalar) : Prop :=
  type = .scalar s ∨ type.element? = some s

/-- The globals that are called in a program and that an input can be named after, with what brings
them into the program. -/
inductive Signature.Exposed (signature : Signature) : Purpose → String → Prop
  | array {purpose : Purpose} {c : Container} {e : Scalar} (listed : c ≠ .map)
    (returns : signature.returns = .composite c e) : Exposed signature purpose "Array"
  | object {purpose : Purpose} {e : Scalar} (returns : signature.returns = .composite .map e) :
    Exposed signature purpose "Object"
  | objectRead {input : Parameter} {e : Scalar} (given : input ∈ signature.inputs)
    (type : input.type = .composite .map e) : Exposed signature .harness "Object"
  | parseFloat {input : Parameter} (given : input ∈ signature.inputs)
    (type : input.type.Has .float ∨ input.type.Has .double) :
    Exposed signature .harness "parseFloat"
  | bigInt {input : Parameter} (given : input ∈ signature.inputs) (type : input.type.Has .long) :
    Exposed signature .harness "BigInt"
  | performance : Exposed signature .materialized "performance"
  | json : Exposed signature .materialized "JSON"

/-- The callees that are reserved. -/
def reservedCallees : List String :=
  ["main", "fs", "parseInt", "Set", "entry", entryPoint, "console", "String", "buffer", "parts"]

namespace Name.Admissible

variable {name : String} (hname : Name.Admissible name)
include hname

theorem not_mem_reservedCallees : name ∉ reservedCallees := fun hmem =>
  hname.unreserved ((by decide +kernel : ∀ word ∈ reservedCallees, word ∈ reservedWords) name hmem)

theorem mem_parseCallees (kind : Kind) : name ∈ kind.parseCallees ↔
    kind = .container .map ∧ name = "Object" ∨
    (kind = .scalar .float ∨ kind = .scalar .double) ∧ name = "parseFloat" ∨
    kind = .scalar .long ∧ name = "BigInt" := by
  have hfree := hname.not_mem_reservedCallees
  simp only [reservedCallees, List.mem_cons, not_or] at hfree
  rcases kind with s | c
  · cases s <;> simp [Kind.parseCallees, hfree]
  · cases c <;> simp [Kind.parseCallees, hfree]

theorem mem_decodeCallees (type : DataType) : name ∈ type.decodeCallees ↔
    (∃ e, type = .composite .map e) ∧ name = "Object" ∨
    (type.Has .float ∨ type.Has .double) ∧ name = "parseFloat" ∨
    type.Has .long ∧ name = "BigInt" := by
  have hfree := hname.not_mem_reservedCallees
  simp only [reservedCallees, List.mem_cons, not_or] at hfree
  rcases type with s | ⟨c, e⟩
  · simp [DataType.decodeCallees, hname.mem_parseCallees, DataType.Has, DataType.element?]
  · have hsplit : name ∉ c.splitCallees := by cases c <;> simp [Container.splitCallees, hfree]
    simp [DataType.decodeCallees, hname.mem_parseCallees, DataType.Has, DataType.element?, hsplit]

theorem mem_renderCallees (type : DataType) : name ∈ type.renderCallees ↔
    (∃ c e, c ≠ .map ∧ type = .composite c e) ∧ name = "Array" ∨
    (∃ e, type = .composite .map e) ∧ name = "Object" := by
  have hfree := hname.not_mem_reservedCallees
  simp only [reservedCallees, List.mem_cons, not_or] at hfree
  have hformat (s : Scalar) : name ∉ s.formatCallees := by
    cases s <;> simp [Scalar.formatCallees, hfree]
  rcases type with s | ⟨c, e⟩
  · simp [DataType.renderCallees, hformat]
  · cases c <;> simp [DataType.renderCallees, hformat]

theorem not_mem_slotCallees (slots : List Slot) : name ∉ slots.flatMap Slot.callees := by
  have hliteral (type : DataType) : name ∉ type.literalCallees := by
    rcases type with s | ⟨c, e⟩
    · exact List.not_mem_nil
    · cases c with
      | array | map => exact List.not_mem_nil
      | set =>
        intro hmem
        have hset : name = "Set" := List.mem_singleton.1 hmem
        exact hname.not_mem_reservedCallees (hset ▸ by decide)
  intro hmem
  obtain ⟨slot, -, hmem⟩ := List.mem_flatMap.1 hmem
  cases slot with
  | input parameter => exact hliteral _ hmem
  | size | entry => cases hmem

/-- **Of the names that inputs can have, those are called that are exposed.** -/
theorem mem_callees_iff (signature : Signature) {purpose : Purpose}
    (hpurpose : purpose ≠ .starter) :
    name ∈ signature.callees purpose ↔ signature.Exposed purpose name := by
  have hfixed {words : List String} (h : words ⊆ reservedCallees) : name ∉ words :=
    fun hmem => hname.not_mem_reservedCallees (h hmem)
  have hrender := hname.mem_renderCallees signature.returns
  cases purpose with
  | starter => exact absurd rfl hpurpose
  | harness =>
    have hends : name ∉ ["main", "fs"] ∧ name ∉ [entryPoint, "console"] :=
      ⟨hfixed (by decide), hfixed (by decide)⟩
    simp only [Signature.callees, List.mem_append, List.mem_flatMap, hends, hrender, false_or,
      or_false, hname.mem_decodeCallees]
    constructor
    · rintro (⟨input, hinput, ⟨⟨e, htype⟩, rfl⟩ | ⟨htype, rfl⟩ | ⟨htype, rfl⟩⟩ |
        ⟨⟨c, e, hc, hreturns⟩, rfl⟩ | ⟨⟨e, hreturns⟩, rfl⟩)
      · exact .objectRead hinput htype
      · exact .parseFloat hinput htype
      · exact .bigInt hinput htype
      · exact .array hc hreturns
      · exact .object hreturns
    · rintro (⟨hc, hreturns⟩ | hreturns | ⟨hinput, htype⟩ | ⟨hinput, htype⟩ | ⟨hinput, htype⟩)
      · exact .inr (.inl ⟨⟨_, _, hc, hreturns⟩, rfl⟩)
      · exact .inr (.inr ⟨⟨_, hreturns⟩, rfl⟩)
      · exact .inl ⟨_, hinput, .inl ⟨⟨_, htype⟩, rfl⟩⟩
      · exact .inl ⟨_, hinput, .inr (.inl ⟨htype, rfl⟩)⟩
      · exact .inl ⟨_, hinput, .inr (.inr ⟨htype, rfl⟩)⟩
  | materialized =>
    -- the data of a test case is written as literals, which call nothing that could be exposed
    have hslots := hname.not_mem_slotCallees (Slot.ofInputs signature.inputs)
    have hfree := hname.not_mem_reservedCallees
    simp only [reservedCallees, List.mem_cons, not_or] at hfree
    have hmem : name ∈ signature.callees .materialized ↔
        name = "performance" ∨ name ∈ signature.returns.renderCallees ∨ name = "JSON" := by
      simp [Signature.callees, hslots, hfree]
    rw [hmem, hrender]
    constructor
    · rintro (rfl | (⟨⟨c, e, hc, hreturns⟩, rfl⟩ | ⟨⟨e, hreturns⟩, rfl⟩) | rfl)
      · exact .performance
      · exact .array hc hreturns
      · exact .object hreturns
      · exact .json
    · rintro (⟨hc, hreturns⟩ | hreturns | _ | _ | _ | _ | _)
      · exact .inr (.inl (.inl ⟨⟨_, _, hc, hreturns⟩, rfl⟩))
      · exact .inr (.inl (.inr ⟨⟨_, hreturns⟩, rfl⟩))
      · exact .inl rfl
      · exact .inr (.inr rfl)

end Name.Admissible

namespace Signature

theorem Exposed.mem {signature : Signature} {purpose : Purpose} {name : String}
    (h : signature.Exposed purpose name) :
    name ∈ ["Array", "Object", "parseFloat", "BigInt", "performance", "JSON"] := by
  cases h <;> decide

/-- No exposed global ends like the name of a size constant. -/
theorem not_exposed_sizeName (signature : Signature) (purpose : Purpose) (name : String) :
    ¬signature.Exposed purpose (Name.sizeName name) := by
  intro h
  have hends : ∀ global ∈ ["Array", "Object", "parseFloat", "BigInt", "performance", "JSON"],
      ¬Name.sizeSuffix.toList <:+ global.toList := by
    decide
  exact hends _ h.mem ⟨name.toList, by simp [Name.sizeName]⟩

end Signature

/-- An input is shadowing something that the entry point calls exactly if it is named after an
exposed global, and no size constant is. -/
structure Language.ShadowsExposed (language : Language) (signature : Signature) (purpose : Purpose)
    (steps : List Step) : Prop where
  input : ∀ input ∈ signature.inputs,
    input.name ∈ StructuredCall.callees (language.mainText steps) ↔
      signature.Exposed purpose input.name
  size : ∀ input ∈ signature.inputs,
    Name.sizeName input.name ∉ StructuredCall.callees (language.mainText steps)

theorem Language.shadowsExposed {language : Language} {signature : Signature} {purpose : Purpose}
    {steps : List Step} (h : CallsApart (language.mainText steps) (signature.callees purpose))
    (hpurpose : purpose ≠ .starter)
    (hadmissible : ∀ input ∈ signature.inputs, Name.Admissible input.name) :
    language.ShadowsExposed signature purpose steps := by
  have hcallees : StructuredCall.callees (language.mainText steps) = signature.callees purpose :=
    h.calls.callees
  constructor
  · intro input hinput
    rw [hcallees]
    exact (hadmissible input hinput).mem_callees_iff signature hpurpose
  · intro input hinput
    rw [hcallees, (hadmissible input hinput).sizeName.mem_callees_iff signature hpurpose]
    exact signature.not_exposed_sizeName purpose input.name

/-! ## Generators and materializers -/

namespace Signature

/-- **Inputs shadow the exposed globals only.** For a signature that has a source, in JavaScript and
in TypeScript: in the harness that the standard generator writes, and in each program that the
standard materializer writes, the entry point calls, or takes a member of, what an input is named
exactly if that is an exposed global: `Array` or `Object` for a composite result, in a harness also
`Object`, `parseFloat` or `BigInt` for an input that is made with it, and with test data
`performance` and `JSON`. The name of a size constant is never called. -/
theorem shadowed_iff_exposed {source : String} {signature : Signature}
    (h : Signature.ofSource source = .ok signature) {language : Language}
    (hlanguage : language ∈ [.javaScript, .typeScript]) (lenient : Bool) :
    (∀ generator, Generator.standard lenient = .ok generator → ∃ steps,
      language.target.backend.program ⟨signature, generator.registry, language, .harness⟩ =
        .ok steps ∧
      generator.generate signature false language =
        .ok (layout language.target.backend.indentUnit steps) ∧
      language.ShadowsExposed signature .harness steps) ∧
    ∀ materializer, Materializer.standard lenient = .ok materializer →
      ∀ body test caseNo code,
      materializer.materialize signature language body test caseNo = .ok code →
      ∃ literals steps, Literal.ofCase signature test = .ok literals ∧
        language.target.style.program language.target.backend
          ⟨signature, materializer.registry, language, .materialized⟩ body test caseNo literals =
            .ok steps ∧
        code = layout language.target.backend.indentUnit steps ∧
        language.ShadowsExposed signature .materialized steps := by
  have hadmissible := admissible_of_ofSource h
  constructor
  · intro generator hgenerator
    obtain ⟨steps, hsteps, hgenerate⟩ := Generator.exists_harness hgenerator signature language
    have hctx : Context.Bound ⟨signature, generator.registry, language, .harness⟩
        language.target.bindings := Generator.binds_of_standard hgenerator language
    have hcalls := Language.callsApart_harness hlanguage hctx rfl hadmissible hsteps
    exact ⟨steps, hsteps, hgenerate, Language.shadowsExposed hcalls (by decide) hadmissible⟩
  · intro materializer hmaterializer body test caseNo code hcode
    obtain ⟨literals, steps, hdecoded, hsteps, hlayout⟩ := Materializer.materialize_eq_ok hcode
    have hctx : Context.Bound ⟨signature, materializer.registry, language, .materialized⟩
        language.target.bindings := Materializer.binds_of_standard hmaterializer language
    have hcalls := Language.callsApart_case hlanguage hctx hadmissible hdecoded hsteps
    exact ⟨literals, steps, hdecoded, hsteps, hlayout,
      Language.shadowsExposed hcalls (by decide) hadmissible⟩

/-- An input that is named after the global that lists the elements of the result. -/
theorem shadowed_iff_exposed_array :
    let registry : Registry := ⟨Registry.standardRows, Language.all, false⟩
    let array : Parameter := ⟨"Array", .composite .array .integer, none⟩
    let n : Parameter := ⟨"n", .scalar .integer, none⟩
    let signature : Signature := ⟨[array, n], .composite .set .integer⟩
    let test : TestCase :=
      ⟨"a", [.array [.number (.int 1)], .number (.int 2)], .array [.number (.int 3)], true⟩
    let called (steps : List Step) (name : String) : Prop :=
      name ∈ StructuredCall.callees (Language.typeScript.mainText steps)
    Signature.ofSource "array -> integer Array\ninteger -> n\nset -> integer return" =
      .ok signature ∧
    Language.typeScript ∈ [Language.javaScript, Language.typeScript] ∧
    (∃ steps, Generator.generate ⟨registry, Language.all⟩ signature false .typeScript =
        .ok (layout "    " steps) ∧
      called steps "Array" ∧ ¬called steps "ArraySize" ∧ ¬called steps "n") ∧
    ∃ code steps,
      Materializer.materialize ⟨registry, Language.all, Language.all⟩ signature .typeScript "" test
        1 = .ok code ∧
      code = layout "    " steps ∧
      called steps "Array" ∧ ¬called steps "ArraySize" ∧ ¬called steps "n" := by
  intro registry array n signature test called
  have hsource : Signature.ofSource "array -> integer Array\ninteger -> n\nset -> integer return" =
      .ok signature := by
    decide +kernel
  have hlanguage : Language.typeScript ∈ [Language.javaScript, Language.typeScript] := by decide
  have hfits : test.Fits signature :=
    ⟨rfl, List.forall_mem_cons.2 ⟨⟨_, rfl⟩, List.forall_mem_singleton.2 ⟨_, rfl⟩⟩⟩
  obtain ⟨code, hcode⟩ : ∃ code, Materializer.materialize ⟨registry, Language.all, Language.all⟩
      signature .typeScript "" test 1 = .ok code :=
    (Materializer.exists_materialize_iff (Materializer.covers_standard false .typeScript) signature
      "").2 hfits
  have hread {purpose : Purpose} {steps : List Step}
      (h : Language.typeScript.ShadowsExposed signature purpose steps) :
      called steps "Array" ∧ ¬called steps "ArraySize" ∧ ¬called steps "n" := by
    have harray : array ∈ signature.inputs := by simp [signature]
    have hn : n ∈ signature.inputs := by simp [signature]
    exact ⟨(h.input array harray).2 (.array (by decide) rfl), h.size array harray,
      fun hmem => absurd ((h.input n hn).1 hmem).mem (by decide)⟩
  obtain ⟨hharness, hcase⟩ := shadowed_iff_exposed hsource hlanguage false
  obtain ⟨steps, -, hgenerate, hshadows⟩ := hharness ⟨registry, Language.all⟩ rfl
  obtain ⟨-, steps', -, -, hlayout, hshadows'⟩ :=
    hcase _ (Materializer.standard_eq false) "" test 1 code hcode
  exact ⟨hsource, hlanguage, ⟨steps, hgenerate, hread hshadows⟩, code, steps', hcode, hlayout,
    hread hshadows'⟩

/-- What is declared in the entry point can be called in it, by the line that prints an array. -/
theorem shadowed_iff_exposed_not_never :
    ¬ ∀ source signature, Signature.ofSource source = .ok signature →
      ∀ language ∈ [Language.javaScript, Language.typeScript], ∀ lenient,
      (∀ generator, Generator.standard lenient = .ok generator → ∀ steps,
        language.target.backend.program ⟨signature, generator.registry, language, .harness⟩ =
          .ok steps →
        ∀ name ∈ signature.names, name ∉ StructuredCall.callees (language.mainText steps)) ∧
      ∀ materializer, Materializer.standard lenient = .ok materializer →
        ∀ body test caseNo literals steps, Literal.ofCase signature test = .ok literals →
        language.target.style.program language.target.backend
          ⟨signature, materializer.registry, language, .materialized⟩ body test caseNo literals =
            .ok steps →
        ∀ name ∈ signature.inputs.flatMap Parameter.claims,
          name ∉ StructuredCall.callees (language.mainText steps) := by
  intro h
  let signature : Signature := ⟨[⟨"Array", .scalar .integer, none⟩], .composite .array .integer⟩
  have hsource : Signature.ofSource "integer -> Array\narray -> integer return" =
      .ok signature := by
    decide +kernel
  have hlanguage : Language.javaScript ∈ [Language.javaScript, Language.typeScript] := by decide
  have hstandard : Generator.standard false =
      .ok ⟨⟨Registry.standardRows, Language.all, false⟩, Language.all⟩ := rfl
  obtain ⟨steps, hsteps, -⟩ := Generator.exists_harness hstandard signature .javaScript
  have hctx : Context.Bound
      ⟨signature, ⟨Registry.standardRows, Language.all, false⟩, .javaScript, .harness⟩
      Language.javaScript.target.bindings :=
    Registry.binds_of_standard (Registry.standard_eq false) .javaScript
  have hcalls := Language.callsApart_harness hlanguage hctx rfl (admissible_of_ofSource hsource)
    hsteps
  refine (h _ signature hsource _ hlanguage false).1 _ hstandard steps hsteps "Array" (by decide) ?_
  rw [hcalls.calls.callees]
  decide +kernel

end Signature

end StructuredCall
