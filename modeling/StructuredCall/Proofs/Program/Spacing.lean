import Mathlib.Data.List.Chain
import StructuredCall.Proofs.Program.Inputs
import StructuredCall.Proofs.Program.Nesting

/-!
# The layout of generated text

The text of a starter or harness begins with a line that is not blank and ends with one line feed;
no line ends in white space, and no two lines in a row are blank (`Text.Tidy`).

**Lines.** Each line that is written is visible (`Text.Visible`): it has no line feed and ends in
a character other than white space. For most lines a literal at their end shows it. Some end in a
name, in the name of a type or in a value, and a template ends visibly whatever visible text it is
filled with (`Text.EndsVisibly.fill`).

**Empty lines.** Whether an empty line may be written depends on the line before it, and the line
before the first one of a part is in another part, or in none that is there. `Spaced` says what the
steps of a part need behind them and leave, so parts that may be empty can stand in a row.

Main result: `Signature.programs_laid_out`.
-/

namespace StructuredCall

namespace Text

/-! ## Visible lines -/

/-- A text that ends in a character other than white space. -/
def EndsVisibly (s : String) : Prop :=
  ∃ c ∈ s.toList.getLast?, isBlank c = false

theorem endsVisibly_ofList {cs : List Char} (h : cs.getLast?.any (!isBlank ·) = true) :
    EndsVisibly (String.ofList cs) := by
  obtain ⟨c, hc, hvisible⟩ := (Option.any_eq_true _ _).1 h
  exact ⟨c, by rwa [String.toList_ofList], by simpa using hvisible⟩

/-- Whatever stands in front of it. -/
theorem EndsVisibly.behind {t : String} (h : EndsVisibly t) (s : String) :
    EndsVisibly (s ++ t) := by
  obtain ⟨c, hc, hvisible⟩ := h
  rw [EndsVisibly, String.toList_append]
  exact ⟨c, List.mem_getLast?_append_of_mem_getLast? hc, hvisible⟩

/-- Filling keeps what is behind the last hole, and a hole at the end is where the value ends. -/
theorem EndsVisibly.fill {template value : String} (h : EndsVisibly template)
    (hvalue : EndsVisibly value) : EndsVisibly (fill template value) := by
  have hfill : ∀ cs : List Char, (∃ c ∈ cs.getLast?, isBlank c = false) →
      ∃ c ∈ (fillChars value.toList cs).getLast?, isBlank c = false := by
    intro cs hcs
    fun_induction fillChars value.toList cs with
    | case1 rest ih =>
      cases rest with
      | nil => simpa [fillChars, EndsVisibly] using hvalue
      | cons d rest =>
        obtain ⟨c, hc, hvisible⟩ := ih (by simpa using hcs)
        exact ⟨c, List.mem_getLast?_append_of_mem_getLast? hc, hvisible⟩
    | case2 d rest _ ih =>
      cases rest with
      | nil => simpa [fillChars] using hcs
      | cons e rest =>
        obtain ⟨c, hc, hvisible⟩ := ih (by simpa using hcs)
        exact ⟨c, @List.mem_getLast?_append_of_mem_getLast? _ [d] _ _ hc, hvisible⟩
    | case3 => simp at hcs
  obtain ⟨c, hc, hvisible⟩ := hfill template.toList h
  exact ⟨c, by rwa [Text.fill, String.toList_ofList], hvisible⟩

theorem isBlank_of_isTail {c : Char} (h : Name.isTail c = true) : isBlank c = false := by
  have hrange : 48 ≤ c.toNat ∧ c.toNat ≤ 122 := by
    simp only [Name.isTail, Name.isHead, Bool.or_eq_true, Bool.and_eq_true, decide_eq_true_eq,
      Char.le_def, UInt32.le_iff_toNat_le] at h
    rcases h with ((⟨hlow, hhigh⟩ | ⟨hlow, hhigh⟩) | rfl) | ⟨hlow, hhigh⟩
    · exact ⟨Nat.le_trans (by decide) hlow, Nat.le_trans hhigh (by decide)⟩
    · exact ⟨Nat.le_trans (by decide) hlow, Nat.le_trans hhigh (by decide)⟩
    · decide
    · exact ⟨Nat.le_trans (by decide) hlow, Nat.le_trans hhigh (by decide)⟩
  simp [isBlank, inRanges, blankRanges]
  omega

theorem endsVisibly_name {name : String} (h : Name.isIdentifier name) : EndsVisibly name := by
  obtain ⟨first, rest, hname, -⟩ := Name.exists_head h
  have hne : name.toList ≠ [] := by simp [hname]
  refine ⟨name.toList.getLast hne, List.getLast?_eq_getLast_of_ne_nil hne, ?_⟩
  exact isBlank_of_isTail (Name.isTail_of_mem h (List.getLast_mem hne))

/-- A text on one line that ends visibly. -/
structure Visible (s : String) : Prop where
  oneLine : OneLine s
  ends : EndsVisibly s

theorem visible_ofList {cs : List Char}
    (h : '\n' ∉ cs ∧ cs.getLast?.any (!isBlank ·) = true) : Visible (String.ofList cs) :=
  ⟨oneLine_ofList cs h.1, endsVisibly_ofList h.2⟩

namespace Visible

variable {s t : String}

theorem behind (h : Visible t) (hs : OneLine s) : Visible (s ++ t) :=
  ⟨oneLine_append.2 ⟨hs, h.oneLine⟩, h.ends.behind s⟩

theorem exists_concat (h : Visible s) :
    ∃ before c, s.toList = before ++ [c] ∧ isBlank c = false := by
  obtain ⟨c, hc, hvisible⟩ := h.ends
  obtain ⟨before, hbefore⟩ := List.getLast?_eq_some_iff.1 hc
  exact ⟨before, c, hbefore, hvisible⟩

theorem ne_empty (h : Visible s) : s ≠ "" := by
  rintro rfl
  obtain ⟨before, c, hchars, -⟩ := h.exists_concat
  simp at hchars

theorem not_blank (h : Visible s) : s.toList.all isBlank = false := by
  obtain ⟨before, c, hchars, hvisible⟩ := h.exists_concat
  simp [hchars, hvisible]

end Visible

/-! ## Tidy text -/

/-- A text whose lines are laid out well. -/
structure Tidy (text : String) : Prop where
  /-- The first line is not blank. -/
  first : ∃ line ∈ (pieces '\n' text.toList).head?, line.all isBlank = false
  /-- One line feed ends the text. -/
  last : ∃ before c, text.toList = before ++ [c, '\n'] ∧ c ≠ '\n'
  /-- No line ends in white space. -/
  ends : ∀ line ∈ pieces '\n' text.toList, ∀ c ∈ line.getLast?, isBlank c = false
  /-- Of two lines in a row at most one is blank. -/
  apart : (pieces '\n' text.toList).IsChain fun line next =>
    ¬ (line.all isBlank = true ∧ next.all isBlank = true)

end Text

open Text

/-! ## Empty lines between lines -/

/-- What the text so far ends with. -/
inductive Spacing
  | nothing
  /-- An empty line. -/
  | gap
  /-- A visible line. -/
  | text
deriving DecidableEq

/-- Behind a step that asks for an empty line. -/
def Spacing.blank : Spacing → Spacing
  | nothing => nothing
  | gap | text => gap

/-- Steps that write visible lines, and single empty ones between them. -/
inductive Spaced : Spacing → List Step → Spacing → Prop
  | nil {spacing : Spacing} : Spaced spacing [] spacing
  | line {start stop : Spacing} {text : String} {steps : List Step} : Visible text →
      Spaced .text steps stop → Spaced start (.line text :: steps) stop
  | empty {stop : Spacing} {steps : List Step} : Spaced .gap steps stop →
      Spaced .text (.line "" :: steps) stop
  | blank {start stop : Spacing} {steps : List Step} : Spaced start.blank steps stop →
      Spaced start (.blank :: steps) stop
  | indent {start stop : Spacing} {steps : List Step} : Spaced start steps stop →
      Spaced start (.indent :: steps) stop
  | dedent {start stop : Spacing} {steps : List Step} : Spaced start steps stop →
      Spaced start (.dedent :: steps) stop

/-- What is behind a known step, if it may be taken. -/
def Spacing.next? (spacing : Spacing) : Step.Spelled → Option Spacing
  | .line [] => if spacing = text then some gap else none
  | .line cs => if '\n' ∉ cs ∧ cs.getLast?.any (!isBlank ·) = true then some text else none
  | .block => none
  | .blank => some spacing.blank
  | .indent | .dedent => some spacing

namespace Spaced

variable {start middle stop : Spacing} {steps more : List Step}

theorem of_next {step : Step} (h : start.next? step.spell = some middle)
    (hsteps : Spaced middle steps stop) : Spaced start (step :: steps) stop := by
  cases step with
  | block => cases h
  | blank =>
    cases h
    exact .blank hsteps
  | indent =>
    cases h
    exact .indent hsteps
  | dedent =>
    cases h
    exact .dedent hsteps
  | line text =>
    rw [Step.spell] at h
    cases hchars : text.toList with
    | nil =>
      obtain rfl := String.toList_eq_nil_iff.1 hchars
      obtain ⟨rfl, rfl⟩ : start = .text ∧ .gap = middle := by simpa [Spacing.next?] using h
      exact .empty hsteps
    | cons c cs =>
      rw [hchars] at h
      obtain ⟨hvisible, hmiddle⟩ := Option.ite_none_right_eq_some.1 h
      cases hmiddle
      have htext : Visible text := by
        rw [← @String.ofList_toList text, hchars]
        exact visible_ofList hvisible
      exact .line htext hsteps

/-- **Whether known steps are spaced can be computed.** -/
theorem of_spelled {spelled : List Step.Spelled} (h : steps.map Step.spell = spelled)
    (hstop : spelled.foldlM Spacing.next? start = some stop) : Spaced start steps stop := by
  subst h
  induction steps generalizing start with
  | nil =>
    cases hstop
    exact .nil
  | cons step steps ih =>
    rw [List.map_cons, List.foldlM_cons] at hstop
    obtain ⟨middle, hmiddle, hstop⟩ := Option.bind_eq_some_iff.1 hstop
    exact of_next hmiddle (ih hstop)

theorem exists_of_spelled {spelled : List Step.Spelled} (h : steps.map Step.spell = spelled)
    (hstop : (spelled.foldlM Spacing.next? start).isSome) : ∃ stop, Spaced start steps stop := by
  obtain ⟨stop, hstop⟩ := Option.isSome_iff_exists.1 hstop
  exact ⟨stop, of_spelled h hstop⟩

theorem append (h : Spaced start steps middle) (h' : Spaced middle more stop) :
    Spaced start (steps ++ more) stop := by
  induction h with
  | nil => exact h'
  | line hvisible _ ih => exact .line hvisible (ih h')
  | empty _ ih => exact .empty (ih h')
  | blank _ ih => exact .blank (ih h')
  | indent _ ih => exact .indent (ih h')
  | dedent _ ih => exact .dedent (ih h')

theorem lines {texts : List String} (h : ∀ text ∈ texts, Visible text) :
    Spaced .text (texts.map .line) .text := by
  induction texts with
  | nil => exact .nil
  | cons text texts ih =>
    obtain ⟨htext, htexts⟩ := List.forall_mem_cons.1 h
    exact .line htext (ih htexts)

/-- Lines may stand behind anything. -/
theorem exists_lines {texts : List String} (h : ∀ text ∈ texts, Visible text) (start : Spacing) :
    ∃ stop, Spaced start (texts.map .line) stop := by
  cases texts with
  | nil => exact ⟨start, .nil⟩
  | cons text texts =>
    obtain ⟨htext, htexts⟩ := List.forall_mem_cons.1 h
    exact ⟨.text, .line htext (lines htexts)⟩

end Spaced

/-! ## What is written -/

/-- The lines that are written by such steps. -/
inductive SpacedLines : List String → Spacing → Prop
  | nothing : SpacedLines [] .nothing
  | text {lines : List String} {spacing : Spacing} {line : String} : SpacedLines lines spacing →
      Visible line → SpacedLines (lines ++ [line]) .text
  | gap {lines : List String} : SpacedLines lines .text → SpacedLines (lines ++ [""]) .gap

namespace SpacedLines

variable {lines : List String} {spacing : Spacing}

theorem exists_last (h : SpacedLines lines .text) :
    ∃ before last, lines = before ++ [last] ∧ Visible last := by
  cases h with
  | text _ hvisible => exact ⟨_, _, rfl, hvisible⟩

theorem visible (h : SpacedLines lines spacing) : ∀ line ∈ lines, line = "" ∨ Visible line := by
  induction h with
  | nothing => simp
  | text _ hvisible ih =>
    exact List.forall_mem_append.2 ⟨ih, List.forall_mem_singleton.2 (.inr hvisible)⟩
  | gap _ ih => exact List.forall_mem_append.2 ⟨ih, List.forall_mem_singleton.2 (.inl rfl)⟩

theorem oneLine (h : SpacedLines lines spacing) : ∀ line ∈ lines, OneLine line := by
  intro line hline
  rcases h.visible line hline with rfl | hvisible
  · decide
  · exact hvisible.oneLine

theorem first (h : SpacedLines lines spacing) : ∀ line ∈ lines.head?, Visible line := by
  induction h with
  | nothing => simp
  | @text lines _ line _ hvisible ih =>
    cases lines with
    | nil => simpa using hvisible
    | cons first rest => simpa using ih
  | @gap lines hlines ih =>
    obtain ⟨before, last, rfl, -⟩ := hlines.exists_last
    cases before <;> simpa using ih

theorem apart (h : SpacedLines lines spacing) : (lines.map String.toList).IsChain fun line next =>
    ¬ (line.all isBlank = true ∧ next.all isBlank = true) := by
  induction h with
  | nothing => exact .nil
  | text _ hvisible ih =>
    rw [List.map_append, List.isChain_append]
    refine ⟨ih, .singleton _, fun _ _ next hnext => ?_⟩
    cases hnext
    simp [hvisible.not_blank]
  | gap hlines ih =>
    rw [List.map_append, List.isChain_append]
    refine ⟨ih, .singleton _, fun last hlast _ _ => ?_⟩
    obtain ⟨before, line, rfl, hvisible⟩ := hlines.exists_last
    obtain rfl : line.toList = last := by simpa using hlast
    simp [hvisible.not_blank]

/-- **Such lines make up a tidy text.** -/
theorem tidy {writer : Writer} (h : SpacedLines writer.lines .text) : Tidy writer.text := by
  -- what is behind the last line feed is like an empty line
  have hpieces : pieces '\n' writer.text.toList = (writer.lines ++ [""]).map String.toList := by
    rw [Writer.pieces_text_of_oneLine h.oneLine, List.map_append]
    rfl
  obtain ⟨before, last, hlines, hvisible⟩ := h.exists_last
  obtain ⟨front, c, hlast, hc⟩ := hvisible.exists_concat
  constructor
  · rw [hpieces]
    obtain ⟨first, rest, hfirst⟩ := List.exists_cons_of_ne_nil
      (show writer.lines ≠ [] by simp [hlines])
    refine ⟨first.toList, by simp [hfirst], Visible.not_blank (h.first first ?_)⟩
    simp [hfirst]
  · refine ⟨(String.join (before.map (· ++ "\n"))).toList ++ front, c, ?_, ?_⟩
    · simp [Writer.text, hlines, hlast, String.join_append]
    · rintro rfl
      exact absurd hc (by decide)
  · rw [hpieces, List.forall_mem_map]
    intro line hline c hc
    rcases h.gap.visible line hline with rfl | hline
    · cases hc
    · obtain ⟨d, hd, hvisible⟩ := hline.ends
      cases hc.symm.trans hd
      exact hvisible
  · rw [hpieces]
    exact h.gap.apart

/-- An empty line that is asked for is written behind a visible one only. -/
theorem blank {writer : Writer} (h : SpacedLines writer.lines spacing) :
    SpacedLines writer.blank.lines spacing.blank := by
  obtain ⟨unit, depth, lines⟩ := writer
  change SpacedLines lines spacing at h
  cases h with
  | nothing => exact .nothing
  | @text lines _ line hlines hvisible =>
    have hline : Writer.endsLine line = false :=
      decide_eq_false fun hlast => hvisible.oneLine (List.mem_of_getLast? hlast)
    have hends : Writer.endsBlank ⟨unit, depth, lines ++ [line]⟩ = false := by
      cases hreverse : lines.reverse <;> simp [Writer.endsBlank, hreverse, hline, hvisible.ne_empty]
    simpa [Writer.blank, hends, Spacing.blank] using (hlines.text hvisible).gap
  | @gap lines hlines =>
    have hends : Writer.endsBlank ⟨unit, depth, lines ++ [""]⟩ = true := by
      obtain ⟨before, last, rfl, -⟩ := hlines.exists_last
      simp [Writer.endsBlank]
    simpa [Writer.blank, hends, Spacing.blank] using hlines.gap

end SpacedLines

namespace Language

theorem visible_indented (language : Language) (depth : Nat) {text : String} (h : Visible text) :
    Visible (Writer.indented language.target.backend.indentUnit depth text) := by
  refine ⟨language.oneLine_indented depth h.oneLine, ?_⟩
  rw [Writer.indented, if_neg (by simpa using h.ne_empty)]
  exact h.ends.behind _

/-- **Steps that are spaced write lines that are.** -/
theorem spacedLines_run (language : Language) {start stop : Spacing} {steps : List Step}
    (h : Spaced start steps stop) {writer : Writer}
    (hunit : writer.indentUnit = language.target.backend.indentUnit)
    (hlines : SpacedLines writer.lines start) : SpacedLines (writer.run steps).lines stop := by
  induction h generalizing writer with
  | nil => exact hlines
  | @line _ _ text steps hvisible _ ih =>
    have hline : SpacedLines (writer.line text).lines .text :=
      .text hlines (hunit ▸ language.visible_indented writer.depth hvisible)
    exact ih hunit hline
  | empty _ ih =>
    have hline : SpacedLines (writer.line "").lines .gap := .gap hlines
    exact ih hunit hline
  | blank _ ih =>
    exact ih ((writer.indentUnit_step .blank).trans hunit) hlines.blank
  | indent _ ih =>
    have hindent : SpacedLines (writer.step .indent).lines _ := hlines
    exact ih hunit hindent
  | dedent _ ih =>
    have hdedent : SpacedLines (writer.step .dedent).lines _ := hlines
    exact ih hunit hdedent

end Language

/-! ## Ends of lines with data -/

namespace Language

variable {language : Language} {ctx : Context}

theorem endsVisibly_binding (language : Language) (kind : Kind) :
    let binding := language.target.bindings kind
    EndsVisibly binding.native ∧ EndsVisibly binding.parse ∧ EndsVisibly binding.defaultValue := by
  rcases kind with s | c
  · cases language <;> cases s <;> exact ⟨endsVisibly_ofList (by decide),
      endsVisibly_ofList (by decide), endsVisibly_ofList (by decide)⟩
  · cases language <;> cases c <;> exact ⟨endsVisibly_ofList (by decide),
      endsVisibly_ofList (by decide), endsVisibly_ofList (by decide)⟩

theorem endsVisibly_generic (language : Language) (s : Scalar) :
    EndsVisibly (language.target.bindings (.scalar s)).generic := by
  cases language <;> cases s <;> exact endsVisibly_ofList (by decide)

theorem endsVisibly_native (language : Language) (type : DataType) :
    EndsVisibly (language.target.bindings.native type) := by
  cases type with
  | scalar s => exact (language.endsVisibly_binding (.scalar s)).1
  | composite c e =>
    exact (language.endsVisibly_binding (.container c)).1.fill (language.endsVisibly_generic e)

variable (hctx : ctx.Bound language.target.bindings)
include hctx

theorem endsVisibly_defaultValue {value : String} (h : ctx.defaultValue = .ok value) :
    EndsVisibly value := by
  unfold Context.defaultValue Registry.defaultValue at h
  obtain ⟨binding, hbinding, h⟩ := Compiled.bind_eq_ok.1 h
  obtain rfl := Except.ok.inj ((hctx _).symm.trans hbinding)
  cases hreturns : ctx.signature.returns with
  | scalar s =>
    rw [hreturns] at h
    cases h
    exact (language.endsVisibly_binding (.scalar s)).2.2
  | composite c e =>
    rw [hreturns] at h
    obtain ⟨generic, hgeneric, h⟩ := Compiled.bind_eq_ok.1 h
    obtain rfl := Except.ok.inj ((hctx.generic e).symm.trans hgeneric)
    cases h
    exact (language.endsVisibly_binding (.container c)).2.2.fill (language.endsVisibly_generic e)

theorem endsVisibly_parse {kind : Kind} {source text : String} (hsource : EndsVisibly source)
    (h : ctx.parse kind source = .ok text) : EndsVisibly text := by
  obtain rfl := Except.ok.inj ((hctx.parse kind source).symm.trans h)
  exact (language.endsVisibly_binding kind).2.1.fill hsource

theorem endsVisibly_sequence {c : Container} {e : Scalar} {token text : String}
    (h : language.target.backend.sequence ctx c e token = .ok text) : EndsVisibly text := by
  cases language with
  | r =>
    have htokens : EndsVisibly ("splitTokens(" ++ token ++ ")") :=
      (endsVisibly_ofList (by decide)).behind _
    cases c with
    | map =>
      obtain ⟨value, -, h⟩ := Compiled.bind_eq_ok.1 h
      cases h
      exact (endsVisibly_ofList (by decide)).behind _
    | array | set => exact endsVisibly_parse hctx htokens h
  | cpp =>
    obtain ⟨item, -, h⟩ := Compiled.bind_eq_ok.1 h
    cases h
    exact (endsVisibly_ofList (by decide)).behind _
  | go =>
    obtain ⟨generic, -, h⟩ := Compiled.bind_eq_ok.1 h
    obtain ⟨item, -, h⟩ := Compiled.bind_eq_ok.1 h
    cases h
    exact (endsVisibly_ofList (by decide)).behind _
  | _ =>
    cases c
    all_goals
      obtain ⟨item, -, h⟩ := Compiled.bind_eq_ok.1 h
      cases h
      exact (endsVisibly_ofList (by decide)).behind _

theorem endsVisibly_decode {type : DataType} {token text : String} (htoken : EndsVisibly token)
    (h : language.target.backend.decode ctx type token = .ok text) : EndsVisibly text := by
  cases type with
  | scalar s => exact endsVisibly_parse hctx htoken h
  | composite c e =>
    obtain ⟨elements, helements, h⟩ := Compiled.bind_eq_ok.1 h
    exact endsVisibly_parse hctx (endsVisibly_sequence hctx helements) h

omit hctx

theorem endsVisibly_token (language : Language) (index : Nat) :
    EndsVisibly (language.target.backend.token index) := by
  cases language <;> exact (endsVisibly_ofList (by decide)).behind _

/-- A declaration ends in the value, or in a mark behind it. -/
theorem endsVisibly_declare {name : String} {type : DataType} {value text : String}
    (hvalue : EndsVisibly value)
    (h : language.target.backend.declare ctx name type value = .ok text) : EndsVisibly text := by
  cases language with
  | python | r | go =>
    cases h
    exact hvalue.behind _
  | swift =>
    obtain ⟨native, -, h⟩ := Compiled.bind_eq_ok.1 h
    cases h
    exact hvalue.behind _
  | php | javaScript =>
    cases h
    exact (endsVisibly_ofList (by decide)).behind _
  | typeScript | java | cpp | cSharp =>
    obtain ⟨native, -, h⟩ := Compiled.bind_eq_ok.1 h
    cases h
    exact (endsVisibly_ofList (by decide)).behind _

theorem endsVisibly_print (language : Language) (expr : String) :
    EndsVisibly (language.target.backend.print expr) := by
  cases language <;> exact (endsVisibly_ofList (by decide)).behind _

/-! ## The parts of a program -/

/-- What is ahead of the stub, between the stub and the inputs, and in the end. -/
theorem spaced_scaffold (language : Language) :
    let backend := language.target.backend
    (∃ spacing, Spaced .nothing (backend.imports .starter ++ [.blank] ++ backend.openUnit)
      spacing) ∧
    (∃ spacing, Spaced .nothing (backend.imports .harness ++ [.blank] ++ backend.helpers ++
      [.blank] ++ backend.openUnit) spacing) ∧
    Spaced .text ([.blank] ++ backend.openMain ++ backend.readInput) .text ∧
    Spaced .text backend.closeUnit .text ∧
    Spaced .text (backend.closeMain ++ backend.closeUnit) .text := by
  -- nothing here depends on a signature, so the steps are known
  cases language
  all_goals
    exact ⟨Spaced.exists_of_spelled Step.map_spell (by decide),
      Spaced.exists_of_spelled Step.map_spell (by decide +kernel),
      .of_spelled Step.map_spell (by decide), .of_spelled Step.map_spell (by decide),
      .of_spelled Step.map_spell (by decide)⟩

/-- Documentation ends in names, in types or in marks of its own. -/
theorem endsVisibly_stubDoc (hctx : ctx.Bound language.target.bindings)
    (hnames : ∀ input ∈ ctx.signature.inputs, Name.isIdentifier input.name) {doc : List Step}
    (h : language.target.backend.stubDoc ctx = .ok doc) :
    ∀ step ∈ doc, step.Writes EndsVisibly := by
  have hreturns := hctx.native ctx.signature.returns
  cases language with
  | javaScript =>
    obtain ⟨parameters, hparameters, h⟩ := Compiled.bind_eq_ok.1 h
    obtain ⟨returns, hread, h⟩ := Compiled.bind_eq_ok.1 h
    obtain rfl := Except.ok.inj ((hctx.parameters _).symm.trans hparameters)
    cases h
    simp only [List.forall_mem_append, List.forall_mem_map, List.forall_mem_cons]
    refine ⟨⟨⟨endsVisibly_ofList (by decide), by simp⟩, fun input hinput => ?_⟩, ?_,
      endsVisibly_ofList (by decide), by simp⟩
    · exact (endsVisibly_name (hnames input hinput)).behind _
    · exact (endsVisibly_ofList (by decide)).behind _
  | r =>
    obtain ⟨parameters, hparameters, h⟩ := Compiled.bind_eq_ok.1 h
    obtain ⟨returns, hread, h⟩ := Compiled.bind_eq_ok.1 h
    obtain rfl := Except.ok.inj ((hctx.parameters _).symm.trans hparameters)
    obtain rfl := Except.ok.inj (hreturns.symm.trans hread)
    cases h
    simp only [List.forall_mem_append, List.forall_mem_map, List.forall_mem_singleton]
    refine ⟨fun input hinput => ?_, ?_⟩
    · exact (r.endsVisibly_native input.type).behind _
    · exact (r.endsVisibly_native ctx.signature.returns).behind _
  | _ =>
    cases h
    exact List.forall_mem_nil _

theorem spaced_stubDoc (hctx : ctx.Bound language.target.bindings)
    (hnames : ∀ input ∈ ctx.signature.inputs, Name.isIdentifier input.name) {doc : List Step}
    (h : language.target.backend.stubDoc ctx = .ok doc) (start : Spacing) :
    ∃ stop, Spaced start doc stop := by
  have hsilent := tokenless_stubDoc hctx hnames h
  have hends := endsVisibly_stubDoc hctx hnames h
  obtain ⟨texts, rfl⟩ := Stub.exists_docLines h
  rw [Tokenless, List.forall_mem_map] at hsilent
  rw [List.forall_mem_map] at hends
  exact Spaced.exists_lines (fun text htext => ⟨(hsilent text htext).oneLine, hends text htext⟩)
    start

theorem visible_signatureLine (hctx : ctx.Bound language.target.bindings)
    (hnames : ∀ input ∈ ctx.signature.inputs, Name.isIdentifier input.name) {opening : String}
    (h : language.target.backend.signatureLine ctx = .ok opening) : Visible opening := by
  refine ⟨(silent_signatureLine hctx hnames h).oneLine, ?_⟩
  obtain rfl := Except.ok.inj ((signatureLine_eq hctx).symm.trans h)
  refine EndsVisibly.behind ?_ _
  unfold signatureBehind
  cases language with
  | javaScript | java | cpp | cSharp | r => exact endsVisibly_ofList (by decide)
  | _ => exact (endsVisibly_ofList (by decide)).behind _

theorem spaced_stub (hctx : ctx.Bound language.target.bindings)
    (hnames : ∀ input ∈ ctx.signature.inputs, Name.isIdentifier input.name) {stub : List Step}
    (h : language.target.backend.stub ctx none = .ok stub) (start : Spacing) :
    Spaced start stub .text := by
  have hsilent := tokenless_stub hctx hnames h
  obtain ⟨doc, opening, inner, hdoc, hopening, hinner, rfl⟩ := Backend.stub_eq_ok h
  obtain ⟨value, hvalue, hinner⟩ := Compiled.bind_eq_ok.1 hinner
  cases hinner
  obtain ⟨middle, hdocSpaced⟩ := spaced_stubDoc hctx hnames hdoc start
  have hremark : Visible (language.target.backend.comment stubRemark) := by
    cases language <;> exact (visible_ofList (by decide)).behind (oneLine_ofList _ (by decide))
  have hreturn : Visible (language.target.backend.returnStatement value) := by
    refine ⟨Text.Silent.oneLine (hsilent (.line _) (by simp)), ?_⟩
    have hends := endsVisibly_defaultValue hctx hvalue
    cases language with
    | python | swift | go => exact hends.behind _
    | _ => exact (endsVisibly_ofList (by decide)).behind _
  have hend : Spaced .text (language.target.backend.blockEnd.map Step.line).toList .text := by
    cases language with
    | python => exact .nil
    | _ => exact .line (visible_ofList (by decide)) .nil
  have hinside : Spaced middle ([.line opening, .indent] ++
      [.line (language.target.backend.comment stubRemark),
        .line (language.target.backend.returnStatement value)] ++ [.dedent]) .text :=
    .line (visible_signatureLine hctx hnames hopening) (.indent (.line hremark
      (.line hreturn (.dedent .nil))))
  simpa only [List.append_assoc] using (hdocSpaced.append hinside).append hend

theorem spaced_inputLines (hctx : ctx.Bound language.target.bindings) {inputs : List Parameter}
    (hnames : ∀ input ∈ inputs, Name.isIdentifier input.name) {index : Nat} {lines : List Step}
    (h : language.target.backend.inputLines ctx index inputs = .ok lines) :
    Spaced .text lines .text := by
  obtain ⟨texts, htexts, hlines⟩ := exists_inputLines hctx hnames index
  obtain rfl := Except.ok.inj (htexts.symm.trans h)
  refine Spaced.lines fun text htext => ?_
  obtain ⟨place, hplace, rfl⟩ := List.getElem_of_mem htext
  obtain ⟨⟨value, hvalue, hdeclare⟩, hcarries⟩ :=
    hlines.get (hlines.length_eq ▸ hplace) hplace
  have hends := endsVisibly_decode hctx (language.endsVisibly_token _) hvalue
  exact ⟨hcarries.oneLine (language.token_plain _).1, endsVisibly_declare hends hdeclare⟩

theorem visible_callLine (hctx : ctx.Bound language.target.bindings)
    (hnames : ∀ input ∈ ctx.signature.inputs, Name.isIdentifier input.name) {call : String}
    (h : language.target.backend.callLine ctx = .ok call) : Visible call := by
  have hcall : EndsVisibly (language.target.backend.call ctx.signature) :=
    (endsVisibly_ofList (by decide)).behind _
  exact ⟨(silent_callLine hctx hnames h).oneLine, endsVisibly_declare hcall h⟩

/-! ## Programs -/

/-- **A starter is spaced.** -/
theorem spaced_starter (hctx : ctx.Bound language.target.bindings)
    (hpurpose : ctx.purpose = .starter)
    (hnames : ∀ input ∈ ctx.signature.inputs, Name.isIdentifier input.name) {steps : List Step}
    (h : language.target.backend.starter ctx = .ok steps) : Spaced .nothing steps .text := by
  obtain ⟨stub, hstub, h⟩ := Compiled.bind_eq_ok.1 h
  cases h
  rw [hpurpose]
  obtain ⟨⟨spacing, hahead⟩, -, -, hclose, -⟩ := language.spaced_scaffold
  exact (hahead.append (spaced_stub hctx hnames hstub spacing)).append hclose

/-- **A harness is spaced.** -/
theorem spaced_harness (hctx : ctx.Bound language.target.bindings)
    (hpurpose : ctx.purpose = .harness)
    (hnames : ∀ input ∈ ctx.signature.inputs, Name.isIdentifier input.name) {steps : List Step}
    (h : language.target.backend.program ctx = .ok steps) : Spaced .nothing steps .text := by
  obtain ⟨stub, inputs, call, rendered, hstub, hinputs, hcall, hrendered, rfl⟩ :=
    Backend.program_eq_ok h
  rw [hpurpose]
  obtain ⟨-, ⟨spacing, hahead⟩, hopen, -, hclose⟩ := language.spaced_scaffold
  have hprint : Visible (language.target.backend.print rendered) :=
    ⟨(silent_print hctx hrendered).oneLine, language.endsVisibly_print rendered⟩
  have hinside : Spaced .text [.line call, .line (language.target.backend.print rendered)] .text :=
    .line (visible_callLine hctx hnames hcall) (.line hprint .nil)
  have hprogram := ((((hahead.append (spaced_stub hctx hnames hstub spacing)).append hopen).append
    (spaced_inputLines hctx hnames hinputs)).append hinside).append hclose
  simpa only [List.append_assoc] using hprogram

theorem tidy_layout (language : Language) {steps : List Step} (h : Spaced .nothing steps .text) :
    Tidy (layout language.target.backend.indentUnit steps) :=
  (language.spacedLines_run h rfl .nothing).tidy

end Language

/-! ## Generators and materializers -/

namespace Signature

/-- **Programs are laid out well.** For a signature that has a source, in each language: while the
standard generator writes the starter or the harness, no level of indentation is closed that is not
open, none is open in the end, and the text is tidy. The standard materializer writes nothing for a
test case that cannot be decoded; for any other it writes a program, with the levels of indentation
closed as they are opened. -/
theorem programs_laid_out {source : String} {signature : Signature}
    (h : Signature.ofSource source = .ok signature) (language : Language) (lenient : Bool) :
    let backend := language.target.backend
    (∀ generator, Generator.standard lenient = .ok generator → ∀ stubOnly, ∃ steps,
      (if stubOnly then backend.starter ⟨signature, generator.registry, language, .starter⟩
        else backend.program ⟨signature, generator.registry, language, .harness⟩) = .ok steps ∧
      generator.generate signature stubOnly language = .ok (layout backend.indentUnit steps) ∧
      Writer.Nested backend.indentUnit steps ∧ Text.Tidy (layout backend.indentUnit steps)) ∧
    ∀ materializer, Materializer.standard lenient = .ok materializer → ∀ body test caseNo,
      (∀ e, Literal.ofCase signature test = .error e →
        materializer.materialize signature language body test caseNo =
          .error (.invalidTestCase caseNo e)) ∧
      ∀ literals, Literal.ofCase signature test = .ok literals → ∃ steps,
        language.target.style.program backend
          ⟨signature, materializer.registry, language, .materialized⟩ body test caseNo literals =
            .ok steps ∧
        materializer.materialize signature language body test caseNo =
          .ok (layout backend.indentUnit steps) ∧
        Writer.Nested backend.indentUnit steps := by
  intro backend
  have hnames : ∀ input ∈ signature.inputs, Name.isIdentifier input.name :=
    fun input hinput => (admissible_of_ofSource h input hinput).isIdentifier
  constructor
  · intro generator hgenerator stubOnly
    have hctx (purpose : Purpose) : Context.Bound
        ⟨signature, generator.registry, language, purpose⟩ language.target.bindings :=
      Generator.binds_of_standard hgenerator language
    obtain ⟨steps, hsteps, hgenerate⟩ :=
      Generator.exists_steps hgenerator signature language stubOnly
    refine ⟨steps, hsteps, hgenerate, ?_⟩
    -- a level is closed only where one is open, and no two empty lines meet
    cases stubOnly with
    | true =>
      exact ⟨Writer.nested_iff.2 (Language.nesting_starter rfl hsteps),
        language.tidy_layout (Language.spaced_starter (hctx .starter) rfl hnames hsteps)⟩
    | false =>
      exact ⟨Writer.nested_iff.2 (Language.nesting_harness rfl hsteps),
        language.tidy_layout (Language.spaced_harness (hctx .harness) rfl hnames hsteps)⟩
  · intro materializer hmaterializer body test caseNo
    rw [Materializer.standard_eq] at hmaterializer
    cases hmaterializer
    have hcovers := Materializer.covers_standard lenient language
    constructor
    · exact fun e => Materializer.materialize_of_misfit hcovers signature body caseNo
    · intro literals hdecoded
      obtain ⟨code, hcode⟩ :=
        Materializer.materialize_of_decoded hcovers signature body caseNo hdecoded
      obtain ⟨literals', steps, hdecoded', hsteps, rfl⟩ := Materializer.materialize_eq_ok hcode
      obtain rfl := Except.ok.inj (hdecoded'.symm.trans hdecoded)
      exact ⟨steps, hsteps, hcode, Writer.nested_iff.2 (Language.nesting_case hsteps)⟩

/-- A starter and the program of a test case, each with a class around it. -/
theorem programs_laid_out_java :
    let registry : Registry := ⟨Registry.standardRows, Language.all, false⟩
    let signature : Signature :=
      ⟨[⟨"xs", .composite .array .integer, some 2⟩], .composite .map .string⟩
    let test : TestCase := ⟨"a", [.array [.number (.int 2)]], .object [], true⟩
    let unit := Language.java.target.backend.indentUnit
    Signature.ofSource "array -> integer xs 2\nmap -> string return" = .ok signature ∧
    (∃ steps, Generator.generate ⟨registry, Language.all⟩ signature true .java =
      .ok (layout unit steps) ∧ Writer.Nested unit steps ∧ Text.Tidy (layout unit steps)) ∧
    ∃ steps, Materializer.materialize ⟨registry, Language.all, Language.all⟩ signature .java "" test
      1 = .ok (layout unit steps) ∧ Writer.Nested unit steps := by
  intro registry signature test unit
  have hsource : Signature.ofSource "array -> integer xs 2\nmap -> string return" =
      .ok signature := by
    decide +kernel
  obtain ⟨literals, hdecoded⟩ : ∃ literals, Literal.ofCase signature test = .ok literals :=
    Literal.exists_ofCase_iff.2 ⟨rfl, List.forall_mem_singleton.2 ⟨_, rfl⟩⟩
  obtain ⟨hgenerate, hmaterialize⟩ := programs_laid_out hsource .java false
  obtain ⟨steps, -, hcode, hlaid⟩ := hgenerate ⟨registry, Language.all⟩ rfl true
  obtain ⟨steps', -, hcode', hnested⟩ :=
    (hmaterialize _ (Materializer.standard_eq false) "" test 1).2 literals hdecoded
  exact ⟨hsource, ⟨steps, hcode, hlaid⟩, steps', hcode', hnested⟩

end Signature

end StructuredCall
