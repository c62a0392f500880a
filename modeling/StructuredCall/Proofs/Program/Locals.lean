import Mathlib.Data.List.Flatten
import StructuredCall.Proofs.Program.Names
import StructuredCall.Proofs.Program.Template

/-!
# What the entry point binds

The lines inside the entry point of a program, read for the names they bind: a declaration binds the
name it is about, whatever the type and the value, and the lines around the call and of the record
bind names that are always the same.

Main results: `Language.binds_inputLines`, `Language.binds_slots`, `Language.binds_measuredCall`,
`Language.binds_record` and `Language.locals_print`.
-/

namespace StructuredCall

open Binder

/-! ## Names and slots -/

namespace Name

theorem Admissible.isIdentifier {name : String} (h : Admissible name) : Name.isIdentifier name :=
  ((admissible_iff name).1 h).1

theorem Admissible.ne_captured {name : String} (h : Admissible name) : name ≠ capturedVariable := by
  rintro rfl
  exact h.unreserved (by decide +kernel)

/-- The name of a size constant can be any name that an input can have: no reserved word ends like
it. -/
theorem Admissible.sizeName {name : String} (h : Admissible name) :
    Admissible (Name.sizeName name) := by
  obtain ⟨⟨first, rest, hname, hfirst, hrest⟩, -⟩ := h
  refine ⟨⟨first, rest ++ sizeSuffix.toList, ?_, hfirst, ?_⟩, ?_⟩
  · simp [Name.sizeName, hname]
  · have hsuffix : sizeSuffix.toList.all (fun c => c.isAlphanum || c = '_') = true := by decide
    rw [List.forall_mem_append]
    exact ⟨hrest, by simpa using hsuffix⟩
  · intro hmem
    -- looking at the bytes of a word is quicker than decoding it
    have hsuffix : ∀ word ∈ reservedWords,
        ¬sizeSuffix.toByteArray.data.toList <:+ word.toByteArray.data.toList := by
      decide +kernel
    refine hsuffix _ hmem ⟨name.toByteArray.data.toList, ?_⟩
    simp [Name.sizeName]

theorem admissible_claims {inputs : List Parameter} (h : ∀ input ∈ inputs, Admissible input.name) :
    ∀ name ∈ inputs.flatMap Parameter.claims, Admissible name := by
  simp only [List.mem_flatMap]
  rintro name ⟨input, hinput, hname⟩
  unfold Parameter.claims Scope.claims at hname
  split at hname
  · rcases List.mem_pair.1 hname with rfl | rfl
    · exact h input hinput
    · exact (h input hinput).sizeName
  · exact List.mem_singleton.1 hname ▸ h input hinput

end Name

theorem Parameter.names_sublist_claims (inputs : List Parameter) :
    (inputs.map (·.name)).Sublist (inputs.flatMap Parameter.claims) := by
  rw [List.map_eq_flatMap]
  refine List.Sublist.flatMap_right inputs fun input _ => ?_
  cases hcomposite : input.isComposite <;> simp [Parameter.claims, Scope.claims, hcomposite]

namespace Slot

/-- The names that the line of a slot binds. -/
def names : Slot → List String
  | .input parameter => [parameter.name]
  | .size parameter => [Name.sizeName parameter.name]
  | .entry _ => []

theorem mem_ofInput {slot : Slot} {input : Parameter} :
    slot ∈ ofInput input ↔ slot = .input input ∨ input.isComposite ∧ slot = .size input := by
  cases hcomposite : input.isComposite <;> simp [ofInput, hcomposite]

theorem names_ofInput (input : Parameter) : (ofInput input).flatMap names = input.claims := by
  cases hcomposite : input.isComposite <;>
    simp [ofInput, hcomposite, names, Parameter.claims, Scope.claims]

theorem names_ofInputs_perm (inputs : List Parameter) :
    ((ofInputs inputs).flatMap names).Perm (inputs.flatMap Parameter.claims) := by
  have hnames (inputs : List Parameter) :
      (inputs.flatMap ofInput).flatMap names = inputs.flatMap Parameter.claims := by
    rw [List.flatMap_assoc]
    exact congrArg (List.flatMap · inputs) (funext names_ofInput)
  rw [ofInputs, List.flatMap_append, hnames, hnames, ← List.flatMap_append]
  exact (List.filter_append_perm _ inputs).flatMap_right _

theorem exists_of_mem_ofInputs {slot : Slot} {inputs : List Parameter}
    (h : slot ∈ ofInputs inputs) : ∃ input ∈ inputs, slot ∈ ofInput input := by
  simp only [ofInputs, List.mem_append, List.mem_flatMap, List.mem_filter] at h
  rcases h with ⟨input, ⟨hmem, -⟩, hslot⟩ | ⟨input, ⟨hmem, -⟩, hslot⟩ <;>
    exact ⟨input, hmem, hslot⟩

end Slot

namespace Language

variable {language : Language} {ctx : Context}

/-- Names, without one that the language ignores. -/
def visible (language : Language) (names : List String) : List String :=
  names.filter (!language.isBlank ·)

/-! ## Declarations -/

theorem isType_fill {template value : String} (h : IsType template)
    (hhole : template.toList.head? ≠ some '\x7b')
    (hvalue : value.toList.all (!endsHead ·) = true) : IsType (Text.fill template value) := by
  obtain ⟨first, rest, htemplate, hfirst⟩ := h.first
  constructor
  · rw [Text.fill, String.toList_ofList, List.all_eq_true]
    intro c hc
    rcases Text.mem_fillChars hc with hc | hc
    · exact List.all_eq_true.1 hvalue c hc
    · exact List.all_eq_true.1 h.unended c hc
  · rw [Text.fill, String.toList_ofList, htemplate, Text.fillChars]
    · exact ⟨first, _, rfl, hfirst⟩
    · rintro more rfl -
      exact hhole (by rw [htemplate]; rfl)

/-- The name of a type, in a language that writes it in front of the name. -/
theorem isType_native (hlanguage : language ∈ [java, cpp, cSharp]) (type : DataType) :
    IsType (language.target.bindings.native type) := by
  simp only [List.mem_cons, List.not_mem_nil, or_false] at hlanguage
  have hscalar (s : Scalar) : IsType (language.target.bindings (.scalar s)).native ∧
      IsType (language.target.bindings (.scalar s)).generic := by
    rcases hlanguage with rfl | rfl | rfl <;> cases s <;>
      exact ⟨isType_ofList (by decide), isType_ofList (by decide)⟩
  cases type with
  | scalar s => exact (hscalar s).1
  | composite c e =>
    have helement := (hscalar e).2.unended
    have hcontainer : IsType (language.target.bindings (.container c)).native := by
      rcases hlanguage with rfl | rfl | rfl <;> cases c <;> exact isType_ofList (by decide)
    refine isType_fill hcontainer ?_ helement
    rcases hlanguage with rfl | rfl | rfl <;> cases c <;> decide

theorem not_capturing {name : String} (hname : Name.isIdentifier name)
    (hne : name ≠ capturedVariable) (rest : List Char) :
    capturing.toList.isPrefixOf (name.toList ++ ' ' :: rest) = false := by
  rw [← Bool.not_eq_true, List.isPrefixOf_iff_prefix]
  rintro ⟨more, hmore⟩
  have hcaptured : Name.isIdentifier capturedVariable := by decide
  have htake := congrArg (List.takeWhile Name.isTail) hmore
  rw [takeWhile_name hname (by decide), show capturing.toList =
    capturedVariable.toList ++ ' ' :: "<- paste(capture.output(".toList by decide,
    List.append_assoc, List.cons_append, takeWhile_name hcaptured (by decide)] at htake
  exact hne (String.toList_inj.1 htake.symm)

/-- **A declaration binds its name.** -/
theorem locals_declare (hctx : ctx.Bound language.target.bindings) {name : String}
    (hname : Name.isIdentifier name) (hcaptured : name ≠ capturedVariable) (type : DataType)
    {value text : String} (h : language.target.backend.declare ctx name type value = .ok text) :
    language.locals text.toList = language.visible [name] := by
  have htype : language ∈ [java, cpp, cSharp] →
      IsType (language.target.bindings.native type) :=
    fun h => isType_native h type
  refine congrArg (List.filter _) ?_
  cases language with
  | python =>
    cases h
    have htext : (name ++ " = " ++ value).toList =
        name.toList ++ ' ' :: '=' :: ([' '] ++ value.toList) := by simp
    simp only [htext]
    exact assigned_name hname (by decide) _ _
  | php =>
    cases h
    have htext : (Target.Php.reference name ++ " = " ++ value ++ ";").toList =
        '$' :: (name.toList ++ ' ' :: '=' :: ([' '] ++ (value.toList ++ [';']))) := by
      simp [Target.Php.reference]
    simp only [htext, List.head?_cons, if_true, List.tail_cons]
    exact assigned_name hname (by decide) _ _
  | r =>
    cases h
    have htext : (name ++ " <- " ++ value).toList =
        name.toList ++ ' ' :: '<' :: (['-', ' '] ++ value.toList) := by simp
    -- a line of R that captures an output would also bind what the captured code assigns
    simp only [htext, not_capturing hname hcaptured, if_false, List.append_nil, Bool.false_eq_true]
    exact assigned_name hname (by decide) _ _
  | go =>
    cases h
    have htext : (name ++ " := " ++ value).toList =
        name.toList ++ ' ' :: ':' :: (['=', ' '] ++ value.toList) := by simp
    simp only [htext]
    rw [assigned_name hname (by decide)]
  | javaScript =>
    cases h
    have htext : ("const " ++ name ++ " = " ++ value ++ ";").toList =
        "const ".toList ++ (name.toList ++ ' ' :: ("= ".toList ++ (value.toList ++ [';']))) := by
      simp
    simp only [htext]
    exact announced_name hname (by decide) (by simp)
  | typeScript =>
    obtain ⟨typeText, -, h⟩ := Compiled.bind_eq_ok.1 h
    cases h
    have htext : ("const " ++ name ++ ": " ++ typeText ++ " = " ++ value ++ ";").toList =
        "const ".toList ++ (name.toList ++
          ':' :: (" ".toList ++ typeText.toList ++ " = ".toList ++ value.toList ++ [';'])) := by
      simp
    simp only [htext]
    exact announced_name hname (by decide) (by simp)
  | swift =>
    obtain ⟨typeText, -, h⟩ := Compiled.bind_eq_ok.1 h
    cases h
    have htext : ("let " ++ name ++ ": " ++ typeText ++ " = " ++ value).toList =
        "let ".toList ++ (name.toList ++
          ':' :: (" ".toList ++ typeText.toList ++ " = ".toList ++ value.toList)) := by
      simp
    simp only [htext]
    exact announced_name hname (by decide) (by simp)
  | java | cpp | cSharp =>
    obtain ⟨typeText, hnative, h⟩ := Compiled.bind_eq_ok.1 h
    rw [hctx.native type] at hnative
    cases hnative
    cases h
    exact typed_name hname (htype (by decide)) [' '] (by decide) '=' (by decide) rfl
      (' ' :: (value.toList ++ [';'])) (by simp)

theorem locals_sizeConstant (hctx : ctx.Bound language.target.bindings) {name : String}
    (hname : Name.isIdentifier name) (hcaptured : name ≠ capturedVariable) {size : Nat}
    {text : String}
    (h : language.target.style.sizeConstant language.target.backend ctx name size = .ok text) :
    language.locals text.toList = language.visible [name] := by
  cases language with
  | go =>
    cases h
    let behind := '=' :: ' ' :: (Text.natText size).toList
    have htext : ("const " ++ name ++ " = " ++ Text.natText size).toList =
        "const ".toList ++ (name.toList ++ ' ' :: behind) := by
      simp [behind]
    have hlisted : ("const ".toList ++ (name.toList ++ [' '])).all isListed = true := by
      have hnames : name.toList.all isListed = true :=
        List.all_eq_true.2 fun c hc => by simp [isListed, Name.isTail_of_mem hname hc]
      simp only [List.all_append, hnames]
      decide
    have hassigned : assigned [':', '=', ' '] ("const ".toList ++ (name.toList ++ ' ' :: behind)) =
        [] := by
      rw [List.append_cons name.toList, ← List.append_assoc]
      exact assigned_eq_nil hlisted (by decide) (by decide) _ _
    refine congrArg (List.filter _) ?_
    simp only [htext, hassigned]
    exact announced_name hname (by decide) (by simp)
  | _ => exact locals_declare hctx hname hcaptured (.scalar .integer) h

/-! ## The call -/

/-- What is bound around the call of the stub. -/
def callNames : Language → List String
  | python => ["buffer", "started", "result", "elapsed", "captured"]
  | javaScript | typeScript =>
    ["buffer", "originalLog", "started", "result", "elapsed", "captured"]
  | java => ["stdout", "buffer", "started", "result", "elapsed", "captured"]
  | cpp => ["buffer", "previous", "started", "result", "elapsed", "captured"]
  | cSharp => ["stdout", "buffer", "stopwatch", "result", "elapsed", "captured"]
  | php | swift => ["started", "result", "elapsed", "captured"]
  | r => ["started", "captured", "result", "elapsed"]
  | go => ["previous", "reader", "writer", "started", "result", "elapsed", "captured"]

theorem visible_of_ne (language : Language) {name : String} (h : name ≠ "_") :
    language.visible [name] = [name] := by
  simp [visible, isBlank, h]

/-- The result is declared like an input. -/
theorem locals_declareResult (hctx : ctx.Bound language.target.bindings) {type : DataType}
    {value call : String}
    (h : language.target.backend.declare ctx resultVariable type value = .ok call) :
    language.locals call.toList = [resultVariable] := by
  rw [locals_declare hctx (by decide) (by decide) type h, visible_of_ne _ (by decide)]

theorem locals_capturing {call value : String} (h : call = resultVariable ++ " <- " ++ value) :
    locals r ("captured <- paste(capture.output(" ++ call ++ "), collapse = \"\\n\")").toList =
      [capturedVariable, resultVariable] := by
  let rest := value.toList ++ "), collapse = \"\\n\")".toList
  have htext : ("captured <- paste(capture.output(" ++ call ++ "), collapse = \"\\n\")").toList =
      capturing.toList ++ (resultVariable.toList ++ ' ' :: '<' :: (['-', ' '] ++ rest)) := by
    simp [h, capturing, rest]
  have hcaptured : capturing.toList = capturedVariable.toList ++ ' ' :: '<' ::
      (['-', ' '] ++ "paste(capture.output(".toList) := by decide
  have hprefix : capturing.toList.isPrefixOf
      (capturing.toList ++ (resultVariable.toList ++ ' ' :: '<' :: (['-', ' '] ++ rest))) := by
    simp
  have hdrop : (capturing.toList ++
      (resultVariable.toList ++ ' ' :: '<' :: (['-', ' '] ++ rest))).drop capturing.length =
        resultVariable.toList ++ ' ' :: '<' :: (['-', ' '] ++ rest) := by
    rw [← String.length_toList, List.drop_left]
  have hfirst : assigned ['<', '-', ' '] (capturing.toList ++
      (resultVariable.toList ++ ' ' :: '<' :: (['-', ' '] ++ rest))) = [capturedVariable] := by
    rw [hcaptured, List.append_assoc, List.cons_append, List.cons_append, List.append_assoc]
    exact assigned_name (by decide) (by decide) _ _
  have hresult : assigned ['<', '-', ' ']
      (resultVariable.toList ++ ' ' :: '<' :: (['-', ' '] ++ rest)) = [resultVariable] :=
    assigned_name (by decide) (by decide) _ _
  simp only [locals, htext, hfirst, hprefix, if_true, hdrop, hresult]
  decide

/-- **Around the call**, the result is bound among other names that are always the same. -/
theorem binds_measuredCall (hctx : ctx.Bound language.target.bindings) {type : DataType}
    {value call : String}
    (h : language.target.backend.declare ctx resultVariable type value = .ok call) :
    language.Binds (language.unitDepth + 1) (language.unitDepth + 1)
      (language.target.style.measuredCall call) language.callNames := by
  have hcall := locals_declareResult hctx h
  cases language with
  | r =>
    cases h
    refine .of_placed (Step.placed_of_spelled Step.map_spell _) rfl
      (by simp [unitDepth, Step.Spelled.placed]) ?_
    simp only [Step.Spelled.placed, localNames_cons, locals_capturing rfl]
    decide
  | _ =>
    refine .of_placed (Step.placed_of_spelled Step.map_spell _) rfl
      (by simp [unitDepth, Step.Spelled.placed]) ?_
    simp only [Step.Spelled.placed, localNames_cons, hcall]
    decide +kernel

/-! ## The record -/

theorem locals_quoted (cs : List Char) : locals python ('"' :: cs) = [] := by
  simp [locals, assigned, Name.isHead]

theorem binds_emptyRecord (language : Language) :
    language.Binds (language.unitDepth + 1) (language.unitDepth + 1)
      (language.target.style.record []) ["record"] := by
  cases language
  all_goals
    exact .of_placed (Step.placed_of_spelled Step.map_spell _) rfl (by decide) (by decide)

/-- **A record binds its own name only.** -/
theorem binds_record (language : Language) (entries : List RecordEntry) :
    language.Binds (language.unitDepth + 1) (language.unitDepth + 1)
      (language.target.style.record entries) ["record"] := by
  have hentry {text : String} (hscope : language.inScope (language.unitDepth + 2) →
      language.locals text.toList = []) :
      language.Binds (language.unitDepth + 2) (language.unitDepth + 2) [.line text] [] :=
    .line (by omega) hscope fun _ => rfl
  cases language with
  | python =>
    refine Binds.insert (binds_emptyRecord python) rfl fun step hstep => ?_
    obtain ⟨entry, -, rfl⟩ := List.mem_map.1 hstep
    refine hentry fun _ => ?_
    simp only [String.toList_append]
    exact locals_quoted _
  | javaScript | typeScript | cSharp | php | swift | go =>
    refine Binds.insert (binds_emptyRecord _) rfl fun step hstep => ?_
    obtain ⟨entry, -, rfl⟩ := List.mem_map.1 hstep
    exact hentry fun h => absurd h (by decide)
  | java | cpp | r =>
    refine Binds.insert (binds_emptyRecord _) rfl fun step hstep => ?_
    obtain ⟨index, hindex, rfl⟩ := List.mem_mapIdx.1 hstep
    exact hentry fun h => absurd h (by decide)

/-! ## The printed result -/

/-- C++ prints a text or the call of a helper. -/
theorem locals_print_cpp (hctx : ctx.Bound cpp.target.bindings) {rendered : String}
    (h : cpp.target.backend.renderedResult ctx = .ok rendered) :
    cpp.locals (cpp.target.backend.print rendered).toList = [] := by
  cases hreturns : ctx.signature.returns with
  | scalar s =>
    simp only [Backend.renderedResult, hreturns, Backend.render, Context.format, Registry.format,
      hctx _] at h
    cases h
    cases s <;> decide
  | composite c e =>
    simp only [Backend.renderedResult, hreturns, Backend.render, target, Target.Cpp.target,
      Target.Cpp.backend, Target.Cpp.joined, Context.delimiter, Registry.delimiter] at h
    rw [hctx] at h
    cases h
    cases c <;> decide

/-- **Printing binds nothing.** -/
theorem locals_print (hctx : ctx.Bound language.target.bindings) {rendered : String}
    (h : language.target.backend.renderedResult ctx = .ok rendered) :
    language.locals (language.target.backend.print rendered).toList = [] := by
  cases language with
  | cpp => exact locals_print_cpp hctx h
  | python =>
    have htext : ("print(" ++ rendered ++ ")").toList =
        "print".toList ++ '(' :: (rendered.toList ++ [')']) := by simp
    show List.filter _ (assigned _ ("print(" ++ rendered ++ ")").toList) = []
    rw [htext, assigned_eq_nil (by decide) (by decide) (by decide)]
    rfl
  | php => simp [locals, target, Target.Php.target, Target.Php.backend]
  | javaScript =>
    simp [locals, announced, target, Target.JavaScript.target, Target.JavaScript.backend]
  | typeScript =>
    simp [locals, announced, target, Target.TypeScript.target, Target.TypeScript.backend]
  | swift => simp [locals, announced, target, Target.Swift.target, Target.Swift.backend]
  | r =>
    have htext : ("cat(" ++ rendered ++ ", \"\\n\", sep = \"\")").toList =
        "cat".toList ++ '(' :: (rendered.toList ++ ", \"\\n\", sep = \"\")".toList) := by simp
    have hplain : capturing.toList.isPrefixOf ("cat".toList ++ '(' ::
        (rendered.toList ++ ", \"\\n\", sep = \"\")".toList)) = false := by
      simp [capturing, List.isPrefixOf_cons_cons]
    simp only [locals, target, Target.R.target, Target.R.backend, htext, hplain,
      assigned_eq_nil (show "cat".toList.all isListed = true by decide)
        (show isListed '(' = false by decide) (show '<' ≠ '(' by decide)]
    rfl
  | go =>
    have htext : ("fmt.Println(" ++ rendered ++ ")").toList =
        "fmt".toList ++ '.' :: ("Println(".toList ++ (rendered.toList ++ [')'])) := by simp
    simp only [locals, target, Target.Go.target, Target.Go.backend, htext,
      assigned_eq_nil (show "fmt".toList.all isListed = true by decide)
        (show isListed '.' = false by decide) (show ':' ≠ '.' by decide)]
    simp [announced]
  | java =>
    have htext : ("System.out.println(" ++ rendered ++ ");").toList =
        "System.out.println".toList ++ '(' :: (rendered.toList ++ [')', ';']) := by simp
    show List.filter _ (typed _ ("System.out.println(" ++ rendered ++ ");").toList) = []
    rw [htext, typed_eq_nil (by decide) rfl (by decide)]
    rfl
  | cSharp =>
    have htext : ("Console.WriteLine(" ++ rendered ++ ");").toList =
        "Console.WriteLine".toList ++ '(' :: (rendered.toList ++ [')', ';']) := by simp
    show List.filter _ (typed _ ("Console.WriteLine(" ++ rendered ++ ");").toList) = []
    rw [htext, typed_eq_nil (by decide) rfl (by decide)]
    rfl

/-! ## The inputs -/

theorem visible_append (language : Language) (names names' : List String) :
    language.visible (names ++ names') = language.visible names ++ language.visible names' :=
  List.filter_append _ _

theorem locals_declareInput (hctx : ctx.Bound language.target.bindings) {name : String}
    (hname : Name.Admissible name) (type : DataType) {value text : String}
    (h : language.target.backend.declare ctx name type value = .ok text) :
    language.locals text.toList = language.visible [name] :=
  locals_declare hctx hname.isIdentifier hname.ne_captured type h

/-- **The lines that decode the inputs** bind their names. -/
theorem binds_inputLines (hctx : ctx.Bound language.target.bindings) {index : Nat}
    {inputs : List Parameter} (hnames : ∀ input ∈ inputs, Name.Admissible input.name)
    {steps : List Step} (h : language.target.backend.inputLines ctx index inputs = .ok steps) :
    language.Binds (language.unitDepth + 1) (language.unitDepth + 1) steps
      (language.visible (inputs.map (·.name))) := by
  induction inputs generalizing index steps with
  | nil =>
    cases h
    exact .nil language _
  | cons input inputs ih =>
    obtain ⟨hname, hnames⟩ := List.forall_mem_cons.1 hnames
    obtain ⟨step, hstep, h⟩ := Compiled.bind_eq_ok.1 h
    obtain ⟨rest, hrest, h⟩ := Compiled.bind_eq_ok.1 h
    obtain ⟨value, -, hstep⟩ := Compiled.bind_eq_ok.1 hstep
    obtain ⟨text, htext, hstep⟩ := Compiled.bind_eq_ok.1 hstep
    cases h
    cases hstep
    have hline : language.Binds (language.unitDepth + 1) (language.unitDepth + 1) [.line text]
        (language.visible [input.name]) :=
      .inside (locals_declareInput hctx hname input.type htext)
    exact (visible_append language [input.name] _) ▸ hline.append (ih hnames hrest)

theorem locals_slot (hctx : ctx.Bound language.target.bindings) {test : TestCase} {caseNo : Nat}
    {slot : Slot} {input : Parameter} {text : String} (hslot : slot ∈ Slot.ofInput input)
    (hname : Name.Admissible input.name) (h : slot.Holds language ctx test caseNo text) :
    language.locals text.toList = language.visible slot.names := by
  rcases Slot.mem_ofInput.1 hslot with rfl | ⟨-, rfl⟩
  · cases h with
    | input _ _ _ hdeclared => exact locals_declareInput hctx hname _ hdeclared
  · have hsize := hname.sizeName
    cases h with
    | size _ _ _ hdeclared =>
      exact locals_sizeConstant hctx hsize.isIdentifier hsize.ne_captured hdeclared

/-- **The lines that declare the inputs of a test case** bind the names of their slots. -/
theorem binds_slots (hctx : ctx.Bound language.target.bindings) {test : TestCase} {caseNo : Nat}
    {slots : List Slot} {texts : List String}
    (hslots : ∀ slot ∈ slots, ∃ input, slot ∈ Slot.ofInput input ∧ Name.Admissible input.name)
    (h : List.Forall₂ (Slot.HoldsPlain language ctx test caseNo) slots texts) :
    language.Binds (language.unitDepth + 1) (language.unitDepth + 1) (texts.map .line)
      (language.visible (slots.flatMap Slot.names)) := by
  induction h with
  | nil => exact .nil language _
  | @cons slot text slots texts hholds _ ih =>
    obtain ⟨⟨input, hslot, hname⟩, hslots⟩ := List.forall_mem_cons.1 hslots
    have hline : language.Binds (language.unitDepth + 1) (language.unitDepth + 1) [.line text]
        (language.visible slot.names) := .inside (locals_slot hctx hslot hname hholds.1)
    rw [List.flatMap_cons, visible_append]
    exact hline.append (ih hslots)

end Language

end StructuredCall
