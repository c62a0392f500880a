import Mathlib.Data.Finset.Card
import StructuredCall.Proofs.Literal.Encodings
import StructuredCall.Proofs.Program.Inputs

/-!
# The entry point of a test case

A program for a test case declares every input before it calls the stub. Composites come first,
each with the constant for its number of elements; the scalars come behind them. Between the line
that opens the entry point and the call there is nothing else.

**What is counted.** The constant of a composite is not the size in its declaration. It is the
number of elements that the value of the test case is decoded to, and `Literal.Elements` says that
number without the functions that decode: equal elements of a set and equal keys of a map count
once.

Main result: `Signature.inputs_declared_before_call`.
-/

namespace StructuredCall

/-! ## Numbers on a line -/

namespace Text

/-- The last number on a line. -/
def lastNumber? (cs : List Char) : Option Nat :=
  natOfDigits? ((cs.reverse.dropWhile (!isDigit ·)).takeWhile isDigit).reverse

/-- What is behind a number has no digits, and it does not go on with what is ahead of it. -/
theorem lastNumber?_append (front : List Char) (n : Nat) {mark : Char} {back : List Char}
    (hmark : isDigit mark = false) (hback : back.all (!isDigit ·)) :
    lastNumber? (front ++ mark :: (natDigits n ++ back)) = some n := by
  have hdigits : ∀ c ∈ (natDigits n).reverse, isDigit c = true :=
    fun c hc => isDigit_of_mem_natDigits (List.mem_reverse.1 hc)
  have hreverse : (front ++ mark :: (natDigits n ++ back)).reverse =
      back.reverse ++ ((natDigits n).reverse ++ mark :: front.reverse) := by simp
  have hdrop : ((natDigits n).reverse ++ mark :: front.reverse).dropWhile (!isDigit ·) =
      (natDigits n).reverse ++ mark :: front.reverse := by
    obtain ⟨c, cs, hcs⟩ := List.exists_cons_of_ne_nil
      (mt List.reverse_eq_nil_iff.1 (natDigits_ne_nil n))
    have hc : isDigit c = true := hdigits c (hcs ▸ List.mem_cons_self)
    rw [hcs, List.cons_append, List.dropWhile_cons_of_neg (by simp [hc])]
  have htake : ((natDigits n).reverse ++ mark :: front.reverse).takeWhile isDigit =
      (natDigits n).reverse := by
    rw [List.takeWhile_append_of_pos hdigits, List.takeWhile_cons_of_neg (by simp [hmark]),
      List.append_nil]
  rw [lastNumber?, hreverse, List.dropWhile_append_of_pos, hdrop, htake, List.reverse_reverse,
    natOfDigits?_natDigits]
  exact fun c hc => List.all_eq_true.1 hback c (List.mem_reverse.1 hc)

end Text

/-! ## Elements of a value -/

namespace Literal

/-- The number of elements that a value has as one of a composite type. -/
inductive Elements : DataType → Json → Nat → Prop
  | array {e : Scalar} {value : Json} {listed : List Json} {values : List ScalarValue}
    (given : items value = .ok listed)
    (decoded : List.Forall₂ (fun item v => decodeScalar e item = .ok v) listed values) :
    Elements (.composite .array e) value listed.length
  /-- Elements that differ are kept, and each of the others equals one that is kept. -/
  | set {e : Scalar} {value : Json} {listed : List Json} {values kept : List ScalarValue}
    (given : items value = .ok listed)
    (decoded : List.Forall₂ (fun item v => decodeScalar e item = .ok v) listed values)
    (subset : kept ⊆ values)
    (different : kept.Pairwise fun v w => v.sameValue w = false)
    (covered : ∀ v ∈ values, v ∈ kept ∨ ∃ w ∈ kept, w.sameValue v = true) :
    Elements (.composite .set e) value kept.length
  /-- A key counts once. -/
  | map {e : Scalar} {value : Json} {listed : List (String × Json)}
    (given : members value = .ok listed) :
    Elements (.composite .map e) value (listed.map (·.1)).toFinset.card

theorem keys_decodeEntries {e : Scalar} {before after : List (String × ScalarValue)}
    {members : List (String × Json)} (h : decodeEntries e before members = .ok after) :
    (after.map (·.1)).toFinset = (before.map (·.1)).toFinset ∪ (members.map (·.1)).toFinset := by
  induction members generalizing before with
  | nil =>
    cases h
    simp
  | cons member members ih =>
    obtain ⟨key, item⟩ := member
    unfold decodeEntries at h
    split at h
    · cases h
    · next value hvalue =>
      rw [ih h, keys_setEntry]
      ext k
      split <;> simp; grind

/-- **The size of what is decoded** is the number of elements. -/
theorem elements_of_decode {c : Container} {e : Scalar} {value : Json} {literal : Literal}
    (h : decode (.composite c e) value = .ok literal) :
    Elements (.composite c e) value literal.size := by
  cases c with
  | array =>
    obtain ⟨values, hvalues, rfl⟩ := Compiled.map_eq_ok.1 h
    obtain ⟨listed, hlisted, hvalues⟩ := Compiled.bind_eq_ok.1 hvalues
    have hdecoded := decodeItems_eq_ok.1 hvalues
    have hsize : (sequence values).size = listed.length := hdecoded.length_eq.symm
    exact hsize ▸ .array hlisted hdecoded
  | set =>
    obtain ⟨values, hvalues, rfl⟩ := Compiled.map_eq_ok.1 h
    obtain ⟨listed, hlisted, hvalues⟩ := Compiled.bind_eq_ok.1 hvalues
    exact .set hlisted (decodeItems_eq_ok.1 hvalues) (fun v hv => mem_of_mem_distinct hv)
      (pairwise_distinct values) fun v hv => covered_distinct hv
  | map =>
    obtain ⟨entries, hentries, rfl⟩ := Compiled.map_eq_ok.1 h
    have hnodup := (entries_of_decodeMap hentries).distinct
    obtain ⟨listed, hlisted, hentries⟩ := Compiled.bind_eq_ok.1 hentries
    have hsize : (Literal.entries entries).size = (listed.map (·.1)).toFinset.card := by
      rw [Literal.size, ← List.length_map (·.1), ← List.toFinset_card_of_nodup hnodup,
        keys_decodeEntries hentries]
      simp
    exact hsize ▸ .map hlisted

end Literal

/-! ## Declarations -/

namespace Slot

/-- A line declares what its slot is for. It binds the name of the slot, and the constant for a size
shows how many elements the value of the input has. -/
structure DeclaredBy (language : Language) (ctx : Context) (test : TestCase) (caseNo : Nat)
    (slot : Slot) (line : String) : Prop where
  holds : slot.Holds language ctx test caseNo line
  binds : language.locals line.toList = language.visible slot.names
  shows : ∀ input, slot = .size input → ∃ value size,
    (input, value) ∈ ctx.signature.inputs.zip test.input ∧
      Literal.Elements input.type value size ∧ Text.lastNumber? line.toList = some size

end Slot

namespace Language

variable {language : Language} {ctx : Context}

/-- A declaration ends with its value, after a space. -/
theorem exists_of_declare {name value text : String} {type : DataType}
    (h : language.target.backend.declare ctx name type value = .ok text) :
    ∃ front back : String, back.toList.all (!Text.isDigit ·) ∧
      text = front ++ " " ++ value ++ back := by
  cases language with
  | python =>
    cases h
    exact ⟨name ++ " =", "", by decide, by simp [String.append_assoc]⟩
  | r =>
    cases h
    exact ⟨name ++ " <-", "", by decide, by simp [String.append_assoc]⟩
  | go =>
    cases h
    exact ⟨name ++ " :=", "", by decide, by simp [String.append_assoc]⟩
  | javaScript =>
    cases h
    exact ⟨"const " ++ name ++ " =", ";", by decide, by simp [String.append_assoc]⟩
  | php =>
    cases h
    exact ⟨Target.Php.reference name ++ " =", ";", by decide, by simp [String.append_assoc]⟩
  | swift =>
    obtain ⟨typeName, -, h⟩ := Compiled.bind_eq_ok.1 h
    cases h
    exact ⟨"let " ++ name ++ ": " ++ typeName ++ " =", "", by decide, by simp [String.append_assoc]⟩
  | typeScript =>
    obtain ⟨typeName, -, h⟩ := Compiled.bind_eq_ok.1 h
    cases h
    exact ⟨"const " ++ name ++ ": " ++ typeName ++ " =", ";", by decide,
      by simp [String.append_assoc]⟩
  | java | cpp | cSharp =>
    obtain ⟨typeName, -, h⟩ := Compiled.bind_eq_ok.1 h
    cases h
    exact ⟨typeName ++ " " ++ name ++ " =", ";", by decide, by simp [String.append_assoc]⟩

theorem exists_intLiteral (language : Language) (n : Nat) : ∃ mark : String,
    mark.toList.all (!Text.isDigit ·) ∧
      language.target.style.intLiteral .integer n = Text.natText n ++ mark := by
  have hdigits : Text.intText n = Text.natText n := by
    rw [Text.intText, Text.intDigits, if_neg (by omega)]
    rfl
  rw [← hdigits]
  cases language with
  | r => exact ⟨"L", by decide, rfl⟩
  | _ => exact ⟨"", by decide, (String.append_empty).symm⟩

theorem lastNumber?_sizeConstant {name : String} {size : Nat} {text : String}
    (h : language.target.style.sizeConstant language.target.backend ctx name size = .ok text) :
    Text.lastNumber? text.toList = some size := by
  have hshow (front back : String) (hback : back.toList.all (!Text.isDigit ·))
      (htext : text = front ++ " " ++ Text.natText size ++ back) :
      Text.lastNumber? text.toList = some size := by
    have hlist : text.toList = front.toList ++ ' ' :: (Text.natDigits size ++ back.toList) := by
      simp [htext, Text.natText]
    rw [hlist]
    exact Text.lastNumber?_append _ _ (by decide) hback
  have hdeclared (h : language.target.backend.declare ctx name (.scalar .integer)
      (language.target.style.intLiteral .integer size) = .ok text) :
      Text.lastNumber? text.toList = some size := by
    obtain ⟨front, back, hback, htext⟩ := exists_of_declare h
    obtain ⟨mark, hmark, hliteral⟩ := language.exists_intLiteral size
    refine hshow front (mark ++ back) ?_ ?_
    · simp only [String.toList_append, List.all_append, hmark, hback, Bool.and_self]
    · rw [htext, hliteral]
      simp only [String.append_assoc]
  cases language with
  | go =>
    cases h
    exact hshow ("const " ++ name ++ " =") "" (by decide) (by simp [String.append_assoc])
  | _ => exact hdeclared h

/-! ## Up to the call -/

/-- The entry point of a program, up to the call: the line that opens it, lines inside it, and the
steps of the call right behind them. -/
structure EntryOf (language : Language) (steps : List Step) (opening : String) (lines : List String)
    (call : List Step) : Prop where
  /-- The line is the first one that opens the entry point. -/
  entry : ∃ rest, language.entryLines steps = (language.unitDepth, opening.toList) ::
    (lines.map (fun line => (language.unitDepth + 1, line.toList)) ++
      Step.placed (language.unitDepth + 1) call ++ rest)
  /-- In the text, each of the lines is one line behind what the steps ahead write. -/
  written : let unit := language.target.backend.indentUnit
    ∃ ahead behind, steps = ahead ++ .line opening :: behind ∧
      (∀ line ∈ Step.placed 0 ahead, language.opensAt line = false) ∧
      Writer.written unit 0 ahead ++
        [(Writer.indented unit language.unitDepth opening).toList] ++
        lines.map (fun line => (Writer.indented unit (language.unitDepth + 1) line).toList) ++
        language.unitLines 1 call <+: Text.pieces '\n' (layout unit steps).toList

/-- Of the steps that time the call and capture its output, one is a line with the call, and none is
an empty line that may be left out. -/
theorem exists_measuredLine (language : Language) (call : String) :
    .blank ∉ language.target.style.measuredCall call ∧ ∃ text : String,
      .line text ∈ language.target.style.measuredCall call ∧ call.toList <:+: text.toList := by
  cases language with
  | r =>
    refine ⟨by simp [target, Target.R.target, Target.R.style], _,
      List.mem_cons_of_mem _ List.mem_cons_self, ?_⟩
    simp only [String.toList_append]
    exact List.infix_append _ _ _
  | _ =>
    have hsteps (steps : List Step) (h : .blank ∉ steps ∧ .line call ∈ steps) :
        .blank ∉ steps ∧ ∃ text : String, .line text ∈ steps ∧ call.toList <:+: text.toList :=
      ⟨h.1, call, h.2, List.infix_rfl⟩
    exact hsteps _ (by simp [target, Target.Python.target, Target.Python.style,
      Target.JavaScript.target, Target.JavaScript.style, Target.JavaScript.measuredCall,
      Target.TypeScript.target, Target.TypeScript.style, Target.Java.target, Target.Java.style,
      Target.Cpp.target, Target.Cpp.style, Target.CSharp.target, Target.CSharp.style,
      Target.Php.target, Target.Php.style, Target.Swift.target, Target.Swift.style,
      Target.Go.target, Target.Go.style])

theorem written_entry (language : Language) {ahead : List Step} {opening : String}
    {lines : List String} {call : List Step}
    (hdepth : Step.depthAfter 0 ahead = language.unitDepth)
    (hopening : Text.OneLine opening) (hlines : ∀ line ∈ lines, Text.OneLine line)
    (hcall : .blank ∉ call) :
    let unit := language.target.backend.indentUnit
    Writer.written unit 0 (ahead ++ ([.line opening, .indent] ++ (lines.map .line ++ call))) =
      Writer.written unit 0 ahead ++
        [(Writer.indented unit language.unitDepth opening).toList] ++
        lines.map (fun line => (Writer.indented unit (language.unitDepth + 1) line).toList) ++
        language.unitLines 1 call := by
  intro unit
  have hfirst : Writer.written unit language.unitDepth [.line opening, .indent] =
      [(Writer.indented unit language.unitDepth opening).toList] := by
    show Text.pieces '\n' _ ++ [] = _
    rw [List.append_nil]
    exact Text.pieces_of_not_mem (language.oneLine_indented _ hopening)
  have hinner : .blank ∉ lines.map Step.line ++ call := by simp [hcall]
  have hdeclared : Writer.written unit (language.unitDepth + 1) (lines.map .line) =
      lines.map fun line => (Writer.indented unit (language.unitDepth + 1) line).toList :=
    language.written_lines _ hlines
  rw [Writer.written_append unit 0 ahead (by simp [hcall]), hdepth,
    Writer.written_append _ _ _ hinner, Writer.written_append _ _ _ hcall, hfirst,
    Step.depthAfter_lines]
  simp only [Step.depthAfter, hdeclared, List.append_assoc]
  rfl

theorem openMain_plain (language : Language) : ∃ opening : String,
    language.target.backend.openMain = [.line opening, .indent] ∧
      language.opensEntry opening.toList = true ∧ Text.OneLine opening := by
  cases language <;> exact ⟨_, rfl, by decide +kernel⟩

/-- **The entry point in parts**, where nothing ahead opens one. -/
theorem exists_entryOf {ahead rest : List Step} {names locals : List String}
    {lines : List String} {call : List Step}
    (hahead : language.Defines 0 language.unitDepth ahead names)
    (hinner : language.Binds (language.unitDepth + 1) (language.unitDepth + 1)
      (lines.map .line ++ call ++ rest) locals)
    (hlines : ∀ line ∈ lines, Text.OneLine line) (hcall : .blank ∉ call) :
    ∃ opening, language.EntryOf (ahead ++ language.target.backend.openMain ++
      (lines.map .line ++ call ++ rest) ++
        (language.target.backend.closeMain ++ language.target.backend.closeUnit)) opening lines
          call := by
  obtain ⟨opening, hopening, hopens, hplain⟩ := language.openMain_plain
  let closing := language.target.backend.closeMain ++ language.target.backend.closeUnit
  let entry := [.line opening, .indent] ++ (lines.map .line ++ call)
  have hsteps : ahead ++ language.target.backend.openMain ++ (lines.map .line ++ call ++ rest) ++
      closing = ahead ++ entry ++ (rest ++ closing) := by
    rw [hopening]
    simp only [entry, List.append_assoc]
  refine ⟨opening, ⟨Step.placed (Step.depthAfter (language.unitDepth + 1) call) rest ++
    Step.placed (language.unitDepth + 1) closing, ?_⟩, ahead,
    .indent :: (lines.map .line ++ call ++ rest ++ closing), ?_, hahead.closed, ?_⟩
  · rw [entryLines_program hahead hinner hopening hopens]
    simp only [closing, Step.placed_append, Step.depthAfter_lines, Step.placed_lines,
      List.append_assoc]
  · rw [hopening]
    simp only [closing, List.append_assoc, List.cons_append, List.nil_append]
  · rw [hsteps, ← language.written_entry hahead.depth hplain hlines hcall]
    exact Writer.written_prefix_layout _ _ _

/-! ## Programs -/

/-- A line that holds what the slot of an input is for declares it. -/
theorem declaredBy_of_holds (hctx : ctx.Bound language.target.bindings) {test : TestCase}
    {caseNo : Nat} {slot : Slot} {input : Parameter} {line : String}
    (hslot : slot ∈ Slot.ofInput input) (hname : Name.Admissible input.name)
    (h : slot.Holds language ctx test caseNo line) :
    slot.DeclaredBy language ctx test caseNo line := by
  refine ⟨h, locals_slot hctx hslot hname h, ?_⟩
  rintro sized rfl
  cases h with
  | @size _ value literal _ hgiven hdecoded hcomposite hdeclared =>
    obtain ⟨name, type, size⟩ := sized
    cases type with
    | scalar s => cases hcomposite
    | composite c e =>
      exact ⟨value, literal.size, hgiven, Literal.elements_of_decode hdecoded,
        lastNumber?_sizeConstant hdeclared⟩

theorem oneLine_of_slots {test : TestCase} {caseNo : Nat} {slots : List Slot} {lines : List String}
    (h : List.Forall₂ (Slot.HoldsPlain language ctx test caseNo) slots lines) :
    ∀ line ∈ lines, Text.OneLine line := by
  induction h with
  | nil => simp
  | cons hline _ ih => exact List.forall_mem_cons.2 ⟨hline.2.2, ih⟩

namespace CaseParts

variable {test : TestCase} {caseNo : Nat} {steps : List Step}

theorem exists_entry (parts : language.CaseParts ctx test caseNo steps) :
    ∃ opening, language.EntryOf steps opening parts.lines
      (language.target.style.measuredCall parts.call) := by
  have hentry := exists_entryOf parts.defines parts.binds (oneLine_of_slots parts.slots)
    (language.exists_measuredLine parts.call).1
  rwa [← parts.steps_eq] at hentry

theorem declaredBy (parts : language.CaseParts ctx test caseNo steps)
    (hctx : ctx.Bound language.target.bindings)
    (hadmissible : ∀ input ∈ ctx.signature.inputs, Name.Admissible input.name) :
    List.Forall₂ (Slot.DeclaredBy language ctx test caseNo) (Slot.ofInputs ctx.signature.inputs)
      parts.lines := by
  have hslots := (List.forall₂_and_left _ _).2
    ⟨fun _ hslot => Slot.exists_of_mem_ofInputs hslot, parts.slots⟩
  refine hslots.imp fun slot line ⟨⟨input, hmem, hslot⟩, hholds⟩ => ?_
  exact declaredBy_of_holds hctx hslot (hadmissible input hmem) hholds.1

end CaseParts

/-- The call is part of a line of the steps that time it. -/
theorem exists_callLine {call : String} (hctx : ctx.Bound language.target.bindings)
    (h : language.target.backend.callLine ctx = .ok call) : ∃ text : String,
      .line text ∈ language.target.style.measuredCall call ∧
      (language.target.backend.call ctx.signature).toList <:+: text.toList := by
  obtain ⟨before, behind, -, -, hdeclare⟩ := exists_declaration hctx
    (show Name.isIdentifier resultVariable by decide) ctx.signature.returns
  obtain rfl := Except.ok.inj ((hdeclare _).symm.trans h)
  obtain ⟨-, text, htext, hinfix⟩ := language.exists_measuredLine
    (before ++ language.target.backend.call ctx.signature ++ behind)
  refine ⟨text, htext, List.IsInfix.trans ?_ hinfix⟩
  simp only [String.toList_append]
  exact List.infix_append _ _ _

end Language

namespace Signature

/-- **Every input is declared before the call.** For a signature that has a source, in each
language, for each test case that has a program: the entry point is opened by one line. On the lines
behind it, one for each, are the declarations of the composites in order, each with the constant for
its number of elements, and then those of the scalars in order; they declare different names. Right
behind them is the call, which passes every input in order. -/
theorem inputs_declared_before_call {source : String} {signature : Signature}
    (h : Signature.ofSource source = .ok signature) (language : Language) {lenient : Bool}
    {materializer : Materializer} (hmaterializer : Materializer.standard lenient = .ok materializer)
    {body : String} {test : TestCase} {caseNo : Nat} {code : String}
    (hcode : materializer.materialize signature language body test caseNo = .ok code) :
    let backend := language.target.backend
    let style := language.target.style
    let ctx : Context := ⟨signature, materializer.registry, language, .materialized⟩
    ∃ literals steps opening lines call,
      Literal.ofCase signature test = .ok literals ∧
      style.program backend ctx body test caseNo literals = .ok steps ∧
      code = layout backend.indentUnit steps ∧
      language.EntryOf steps opening lines (style.measuredCall call) ∧
      List.Forall₂ (Slot.DeclaredBy language ctx test caseNo) (Slot.ofInputs signature.inputs)
        lines ∧
      ((Slot.ofInputs signature.inputs).flatMap Slot.names).Nodup ∧
      backend.callLine ctx = .ok call ∧
      (∃ text : String, .line text ∈ style.measuredCall call ∧
        (backend.call signature).toList <:+: text.toList) ∧
      Text.arguments? (backend.call signature) = some (signature.names.map backend.reference) := by
  intro backend style ctx
  have hadmissible := admissible_of_ofSource h
  have hctx : ctx.Bound language.target.bindings :=
    Materializer.binds_of_standard hmaterializer language
  obtain ⟨literals, steps, hdecoded, hsteps, hlayout⟩ := Materializer.materialize_eq_ok hcode
  obtain ⟨parts⟩ := Language.exists_caseParts hctx hadmissible hdecoded hsteps
  obtain ⟨opening, hentry⟩ := parts.exists_entry
  have hlines := parts.declaredBy hctx hadmissible
  -- the slots are the names that the inputs claim, in another order
  have hdistinct : ((Slot.ofInputs signature.inputs).flatMap Slot.names).Nodup :=
    (Slot.names_ofInputs_perm _).nodup_iff.2 (claims_nodup_of_ofSource h)
  have hcall := Language.exists_callLine hctx parts.callLine
  have harguments : Text.arguments? (backend.call signature) =
      some (signature.names.map backend.reference) :=
    language.arguments?_call fun input hinput => (hadmissible input hinput).isIdentifier
  exact ⟨literals, steps, opening, parts.lines, parts.call, hdecoded, hsteps, hlayout, hentry,
    hlines, hdistinct, parts.callLine, hcall, harguments⟩

/-- A number ahead of a set whose value has an element twice. -/
theorem inputs_declared_before_call_go :
    let materializer : Materializer :=
      ⟨⟨Registry.standardRows, Language.all, false⟩, Language.all, Language.all⟩
    let k : Parameter := ⟨"k", .scalar .integer, none⟩
    let seen : Parameter := ⟨"seen", .composite .set .integer, some 9⟩
    let signature : Signature := ⟨[k, seen], .scalar .integer⟩
    let test : TestCase := ⟨"a", [.number (.int 5),
      .array [.number (.int 3), .number (.int 3), .number (.int 4)]], .number (.int 1), true⟩
    let ctx : Context := ⟨signature, materializer.registry, .go, .materialized⟩
    Signature.ofSource "integer -> k\nset -> integer seen 9\ninteger -> return" = .ok signature ∧
    ∃ code steps opening seenLine kLine,
      materializer.materialize signature .go "return k" test 1 = .ok code ∧
      code = layout "\t" steps ∧
      Language.go.EntryOf steps opening [seenLine, "const seenSize = 2", kLine]
        (Language.go.target.style.measuredCall "result := execute(k, seen)") ∧
      Slot.DeclaredBy .go ctx test 1 (.input seen) seenLine ∧
      Slot.DeclaredBy .go ctx test 1 (.input k) kLine := by
  intro materializer k seen signature test ctx
  have hsource : Signature.ofSource "integer -> k\nset -> integer seen 9\ninteger -> return" =
      .ok signature := by
    decide +kernel
  have hfits : test.Fits signature :=
    ⟨rfl, List.forall_mem_cons.2 ⟨⟨_, rfl⟩, List.forall_mem_singleton.2 ⟨_, rfl⟩⟩⟩
  obtain ⟨code, hcode⟩ : ∃ code, materializer.materialize signature .go "return k" test 1 =
      .ok code :=
    (Materializer.exists_materialize_iff (Materializer.covers_standard false .go) signature
      "return k").2 hfits
  obtain ⟨-, steps, opening, lines, call, -, -, hlayout, hentry, hlines, -, hcall, -⟩ :=
    inputs_declared_before_call hsource .go (Materializer.standard_eq false) hcode
  have hslots : Slot.ofInputs signature.inputs = [.input seen, .size seen, .input k] := rfl
  rw [hslots] at hlines
  cases hlines with | @cons _ seenLine _ _ hseen hlines =>
  cases hlines with | @cons _ sizeLine _ _ hsize hlines =>
  cases hlines with | @cons _ kLine _ _ hk hlines =>
  cases hlines
  have hsizeLine : sizeLine = "const seenSize = 2" := by
    cases hsize.holds with
    | @size _ value literal _ hgiven hdecoded _ hdeclared =>
      obtain rfl : value = .array [.number (.int 3), .number (.int 3), .number (.int 4)] := by
        simpa [k, seen, ctx, signature, test] using hgiven
      obtain rfl : Literal.sequence [.int 3, .int 4] = literal := Except.ok.inj hdecoded
      exact (Except.ok.inj hdeclared).symm.trans (by decide +kernel)
  cases hcall
  exact ⟨hsource, code, steps, opening, seenLine, kLine, hcode, hlayout, hsizeLine ▸ hentry, hseen,
    hk⟩

end Signature

end StructuredCall
