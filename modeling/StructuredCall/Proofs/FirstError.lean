import StructuredCall.Proofs.Acceptance
import StructuredCall.Proofs.Place

/-!
# The first error

Reading stops at the first line in error. Such a line is found by what is written before it, so
the error does not depend on what is written after it; and the error points at the whole line,
at one token of it, or at the character that starts no token (`Line.Target`). A source without
a line in error can only lack the line of the result.

Main result: `Signature.first_error_in_place`.
-/

namespace StructuredCall

open Source (written closed withoutReturn lineAfter linesOf lineStart wholeLine)

/-! ## What an error points at -/

/-- An error on a line is about the line or about one of some words. -/
def Line.Blames (line : Line) (words : List Word) (e : CompileError) : Prop :=
  e.line? = some line ∨ ∃ word ∈ words, e.line? = some (line.narrow word.span)

theorem Line.Blames.mono {line : Line} {words more : List Word} {e : CompileError}
    (h : line.Blames words e) (hsub : ∀ word ∈ words, word ∈ more) : line.Blames more e :=
  h.imp id fun ⟨word, hmem, hline⟩ => ⟨word, hsub word hmem, hline⟩

namespace Declaration

variable {line : Line} {e : CompileError}

theorem blames_of_element {word : Word} (h : element line word = .error e) :
    line.Blames [word] e := by
  unfold element at h
  split at h <;> cases h
  exact .inr ⟨word, List.mem_singleton_self word, rfl⟩

theorem blames_of_ofScalar {s : Scalar} {after : List Word}
    (h : ofScalar line s after = .error e) : line.Blames after e := by
  match after with
  | [] | _ :: _ :: _ => cases h; exact .inl rfl
  | [_] => cases h

theorem blames_of_ofContainer {c : Container} {after : List Word}
    (h : ofContainer line c after = .error e) : line.Blames after e := by
  rcases after with - | ⟨word, - | ⟨name, rest⟩⟩
  · cases h
    exact .inl rfl
  · simp only [ofContainer] at h
    split at h <;> cases h <;> exact .inl rfl
  · rcases Compiled.bind_eq_error.1 h with h | ⟨s, -, h⟩
    · exact (blames_of_element h).mono (by simp)
    · rcases rest with - | ⟨size, - | ⟨more, rest⟩⟩
      · cases h
      · cases h
      · cases h
        exact .inl rfl

theorem blames_of_ofWords {before after : List Word}
    (h : ofWords line before after = .error e) : line.Blames (before ++ after) e := by
  match before with
  | [] | _ :: _ :: _ => cases h; exact .inl rfl
  | [type] =>
    simp only [ofWords] at h
    split at h
    · cases h
      exact .inr ⟨type, by simp, rfl⟩
    · exact (blames_of_ofScalar h).mono (by simp +contextual)
    · exact (blames_of_ofContainer h).mono (by simp +contextual)

theorem mem_words {tokens : List Token} {word : Word} :
    word ∈ words tokens ↔ ⟨.word word.text, word.span⟩ ∈ tokens := by
  obtain ⟨text, span⟩ := word
  simp only [words, List.mem_filterMap, Option.map_eq_some_iff]
  constructor
  · rintro ⟨⟨kind, place⟩, hmem, found, htext, hword⟩
    cases kind with
    | word => simp_all [Token.word?]
    | arrow | endOfLine => simp [Token.word?] at htext
  · exact fun hmem => ⟨_, hmem, text, rfl, rfl⟩

theorem mem_words_of_split {tokens : List Token} {p : Token → Bool} {word : Word}
    (h : word ∈ words (tokens.takeWhile p) ++
      words (tokens.drop ((tokens.takeWhile p).length + 1))) : word ∈ words tokens := by
  rw [List.mem_append, mem_words, mem_words] at h
  rw [mem_words]
  exact h.elim (fun h => (List.takeWhile_sublist p).mem h) List.mem_of_mem_drop

theorem blames_of_ofTokens {tokens : List Token} (h : ofTokens line tokens = .error e) :
    line.Blames (words tokens) e := by
  unfold ofTokens at h
  dsimp only at h
  split at h
  · cases h
    exact .inl rfl
  · exact (blames_of_ofWords h).mono fun _ => mem_words_of_split

theorem mem_words_of_size {tokens : List Token} {name : String} {type : DataType} {size : Word}
    (h : ofTokens line tokens = .ok (.input name type (some size))) : size ∈ words tokens := by
  have hafter : ∀ {before after : List Word},
      Worded before after (.input name type (some size)) → size ∈ after := by
    intro before after hworded
    generalize hd : Declaration.input name type (some size) = d at hworded
    cases hworded with
    | scalar | composite => simp only [named] at hd; split at hd <;> cases hd
    | sized => cases hd; simp
  unfold ofTokens at h
  dsimp only at h
  split at h
  · cases h
  · exact mem_words_of_split (List.mem_append_right _ (hafter (worded_of_ofWords h)))

end Declaration

namespace Scope

variable {scope : Scope} {name : String} {line : Line} {e : CompileError}

theorem line_of_claim {kind : Symbol.Kind} (h : scope.claim name kind line = .error e) :
    e.line? = some line := by
  unfold claim at h
  split at h <;> cases h
  rfl

theorem line_of_declare {isComposite : Bool} {after : Scope}
    (h : scope.declare name isComposite line = (after, .error e)) : e.line? = some line := by
  unfold declare at h
  split at h
  · cases h; rfl
  split at h
  · next hclaim => cases h; exact line_of_claim hclaim
  split at h
  · cases h; rfl
  split at h
  · cases h
  split at h
  · next hclaim => cases h; exact line_of_claim hclaim
  · cases h

end Scope

namespace Draft

variable {draft : Draft} {line : Line} {e : CompileError}

theorem blames_of_add {tokens : List Token} {d : Declaration}
    (hd : Declaration.ofTokens line tokens = .ok d) (h : draft.add line d = .error e) :
    line.Blames (Declaration.words tokens) e := by
  cases d with
  | returns type =>
    simp only [add] at h
    split at h <;> cases h
    exact .inl rfl
  | input name type size =>
    rcases Compiled.bind_eq_error.1 h with h | ⟨scope, -, h⟩
    · unfold claim at h
      split at h <;> cases h
      next hdeclare => exact .inl (Scope.line_of_declare hdeclare)
    · rw [Compiled.bind_pure_eq_error] at h
      cases size with
      | none => cases h
      | some word =>
        simp only [sizeOf] at h
        split at h <;> cases h
        exact .inr ⟨word, Declaration.mem_words_of_size hd, rfl⟩

end Draft

/-- What an error may point at on a line: all of it, one token, or the character that the error
says starts no token. -/
inductive Line.Target (line : Line) (e : CompileError) : Span → String → Prop
  | whole : Target line e line.span line.content
  | token {tokens : List Token} {token : Token} : Token.ofLine line = .ok tokens →
      token ∈ tokens → Target line e token.span token.kind.text
  | character {c : Char} {span : Span} :
      e = .malformed (.unexpectedCharacter c) (line.narrow span) →
      Target line e span (String.singleton c)

/-- The error points at one of its targets on a line. -/
def Line.Points (line : Line) (e : CompileError) : Prop :=
  ∃ span part, e.line? = some (line.narrow span) ∧ line.Target e span part ∧
    span.Marks line.span.start line.content part

theorem Line.Blames.points {line : Line} {tokens : List Token} {e : CompileError}
    (hwhole : line.span.Marks line.span.start line.content line.content)
    (htokens : Token.ofLine line = .ok tokens) (h : line.Blames (Declaration.words tokens) e) :
    line.Points e := by
  rcases h with h | ⟨word, hmem, h⟩
  · exact ⟨line.span, line.content, h, .whole, hwhole⟩
  · have hmem := Declaration.mem_words.1 hmem
    have hlocated := Token.located_ofLine line
    rw [htokens] at hlocated
    exact ⟨word.span, word.text, h, .token htokens hmem, hlocated _ hmem⟩

/-- **An error on a line points at the line or at what stands there.** -/
theorem Draft.points_of_addLine {draft : Draft} {line : Line} {e : CompileError}
    (hwhole : line.span.Marks line.span.start line.content line.content)
    (h : draft.addLine line = .error e) : line.Points e := by
  rcases Compiled.bind_eq_error.1 h with h | ⟨d, hd, h⟩
  · rcases Compiled.bind_eq_error.1 h with h | ⟨tokens, htokens, h⟩
    · have hlocated := Token.located_ofLine line
      rw [h] at hlocated
      obtain ⟨c, span, rfl, hmarks⟩ := hlocated
      exact ⟨span, _, rfl, .character rfl, hmarks⟩
    · exact (Declaration.blames_of_ofTokens h).points hwhole htokens
  · obtain ⟨tokens, htokens, hd⟩ := Compiled.bind_eq_ok.1 hd
    exact (blames_of_add hd h).points hwhole htokens

/-! ## Reading what is written -/

namespace Draft

theorem addLines_append (draft : Draft) (before after : List Line) :
    draft.addLines (before ++ after) = draft.addLines before >>= (·.addLines after) := by
  induction before generalizing draft with
  | nil => rfl
  | cons line before ih =>
    simp only [List.cons_append, addLines, bind_assoc]
    cases draft.addLine line with
    | error => rfl
    | ok next => exact ih next

/-- Reading stops at a line that cannot be taken in after the lines before it. -/
theorem addLines_eq_error {draft : Draft} {lines : List Line} {e : CompileError} :
    draft.addLines lines = .error e ↔ ∃ before line after next,
      lines = before ++ line :: after ∧ draft.addLines before = .ok next ∧
        next.addLine line = .error e := by
  constructor
  · intro h
    induction lines generalizing draft with
    | nil => cases h
    | cons line lines ih =>
      rcases Compiled.bind_eq_error.1 h with h | ⟨next, hnext, h⟩
      · exact ⟨[], line, lines, draft, rfl, rfl, h⟩
      · obtain ⟨before, wrong, after, last, rfl, hlast, hwrong⟩ := ih h
        exact ⟨line :: before, wrong, after, last, rfl,
          Compiled.bind_eq_ok.2 ⟨next, hnext, hlast⟩, hwrong⟩
  · rintro ⟨before, line, after, next, rfl, hnext, hline⟩
    rw [addLines_append, hnext, Compiled.ok_bind]
    exact Compiled.bind_eq_error.2 (.inl hline)

/-- The draft after lines that are written at the start of a source. -/
def ofWritten (raws : List String) : Compiled Draft :=
  ({} : Draft).addLines ((linesOf raws).filter fun line => !line.isIgnored)

end Draft

namespace Signature

open Draft (ofWritten)

theorem ofSource_eq (source : String) :
    ofSource source = ofWritten (written source) >>= Draft.finish := by
  rw [ofSource, Source.significant, Source.lines_eq]
  rfl

/-- **Reading stops at a written line**: the lines before it are taken in and it is not. -/
theorem ofWritten_eq_error {raws : List String} {e : CompileError} :
    ofWritten raws = .error e ↔ ∃ earlier raw later next,
      raws = earlier ++ raw :: later ∧ ofWritten earlier = .ok next ∧
        (lineAfter earlier raw).isIgnored = false ∧
        next.addLine (lineAfter earlier raw) = .error e := by
  rw [ofWritten, Draft.addLines_eq_error]
  constructor
  · rintro ⟨before, line, after, next, hlines, hnext, hline⟩
    obtain ⟨taken, rest, hsplit, rfl, hrest⟩ := List.filter_eq_append_iff.1 hlines
    obtain ⟨skipped, more, rfl, hskipped, hread, -⟩ := List.filter_eq_cons_iff.1 hrest
    rw [← List.append_assoc] at hsplit
    obtain ⟨earlier, raw, later, rfl, hearlier, rfl⟩ := Source.linesOf_eq_append hsplit
    refine ⟨earlier, raw, later, next, rfl, ?_, by simpa using hread, hline⟩
    rw [ofWritten, ← hearlier, List.filter_append, List.filter_eq_nil_iff.2 hskipped,
      List.append_nil]
    exact hnext
  · rintro ⟨earlier, raw, later, next, rfl, hnext, hread, hline⟩
    obtain ⟨rest, hrest⟩ := Source.linesOf_append earlier raw later
    refine ⟨_, _, rest.filter fun line => !line.isIgnored, next, ?_, hnext, hline⟩
    rw [hrest, List.filter_append, List.filter_cons_of_pos (by simp [hread])]

theorem finish_eq_error {draft : Draft} {e : CompileError} :
    draft.finish = .error e ↔ draft.returns = none ∧ e = .missingReturn := by
  unfold Draft.finish
  cases draft.returns <;> simp [eq_comm]

/-- What is taken in lacks nothing but a result. -/
theorem error_of_ofWritten {raws : List String} {next : Draft} (hnext : ofWritten raws = .ok next)
    {e : CompileError} (h : ofSource ("\n".intercalate raws) = .error e)
    (honeLine : ∀ raw ∈ raws, Text.OneLine raw) : e = .missingReturn := by
  rw [ofSource_eq] at h
  by_cases hnil : raws = []
  · subst hnil
    have hempty : ofWritten (written ("\n".intercalate [])) = .ok {} := by decide
    rw [hempty, Compiled.ok_bind] at h
    exact (finish_eq_error.1 h).2
  · rw [Source.written_intercalate hnil honeLine, hnext] at h
    exact (finish_eq_error.1 h).2

/-! ## Sources without a result -/

/-- The significant lines of a source declare inputs that could stand in a signature, and no
line declares the result. -/
def OnlyInputs (source : String) : Prop :=
  ∃ inputs : List Parameter,
    List.Forall₂ Line.Says (Source.significant source) (inputs.map Clause.input) ∧
    (∀ input ∈ inputs, Name.Admissible input.name) ∧ (inputs.flatMap Parameter.claims).Nodup

end Signature

namespace Clause

@[simp] theorem inputs_map_input (parameters : List Parameter) :
    inputs (parameters.map input) = parameters := by
  induction parameters with
  | nil => rfl
  | cons parameter parameters ih => simp [ih]

@[simp] theorem results_map_input (parameters : List Parameter) :
    results (parameters.map input) = [] := by
  induction parameters with
  | nil => rfl
  | cons parameter parameters ih => simp [ih]

end Clause

namespace Draft

theorem returns_addLines {lines : List Line} {draft last : Draft} {type : DataType}
    (hreturns : draft.returns = some type) (h : draft.addLines lines = .ok last) :
    last.returns = some type := by
  induction lines generalizing draft with
  | nil => cases h; exact hreturns
  | cons line lines ih =>
    obtain ⟨next, hnext, h⟩ := Compiled.bind_eq_ok.1 h
    obtain ⟨clause, -, hadmits, rfl⟩ := addLine_eq_ok.1 hnext
    cases clause with
    | input => exact ih (by exact hreturns) h
    | result => simp [Admits, hreturns] at hadmits

/-- Lines after which a draft still lacks the result declare inputs: with a result, they would
complete it. -/
theorem pending_iff {lines : List Line} {draft : Draft} (hdistinct : draft.scope.names.Nodup)
    (hnone : draft.returns = none) (type : DataType) :
    (∃ last, draft.addLines lines = .ok last ∧ last.returns = none) ↔
      ∃ inputs : List Parameter, List.Forall₂ Line.Says lines (inputs.map .input) ∧
        ({ draft with returns := some type } : Draft).Completes (inputs.map .input)
          ⟨draft.inputs ++ inputs, type⟩ := by
  induction lines generalizing draft with
  | nil =>
    constructor
    · rintro ⟨last, hlast, -⟩
      cases hlast
      exact ⟨[], .nil, rfl, rfl, by simp, by simpa using hdistinct⟩
    · exact fun _ => ⟨draft, rfl, hnone⟩
  | cons line lines ih =>
    constructor
    · rintro ⟨last, hlast, hlacks⟩
      obtain ⟨next, hnext, hlast⟩ := Compiled.bind_eq_ok.1 hlast
      obtain ⟨clause, hsays, hadmits, rfl⟩ := addLine_eq_ok.1 hnext
      cases clause with
      -- a result that is declared stays declared
      | result other => simp [returns_addLines rfl hlast] at hlacks
      | input input =>
        obtain ⟨inputs, hrest, hcompletes⟩ :=
          (ih (distinct_extend hadmits hdistinct) hnone).1 ⟨last, hlast, hlacks⟩
        refine ⟨input :: inputs, .cons hsays hrest, (completes_cons line).2 ⟨hadmits, ?_⟩⟩
        simpa [extend] using hcompletes
    · rintro ⟨inputs, hsays, hcompletes⟩
      cases inputs with
      | nil => cases hsays
      | cons input inputs =>
        cases hsays with | cons hclause hrest => ?_
        obtain ⟨hadmits, hcompletes⟩ := (completes_cons line).1 hcompletes
        have hadmits : draft.Admits (.input input) := hadmits
        obtain ⟨last, hlast, hlacks⟩ := (ih (distinct_extend hadmits hdistinct) hnone).2
          ⟨inputs, hrest, by simpa [extend] using hcompletes⟩
        have hnext := addLine_eq_ok.2 ⟨.input input, hclause, hadmits, rfl⟩
        exact ⟨last, Compiled.bind_eq_ok.2 ⟨_, hnext, hlast⟩, hlacks⟩

end Draft

namespace Signature

open Draft (ofWritten)

/-- **Only the result is missing** exactly when every line declares an input. -/
theorem onlyInputs_iff {source : String} : OnlyInputs source ↔
    ∃ last, ({} : Draft).addLines (Source.significant source) = .ok last ∧
      last.returns = none := by
  have hempty : ({} : Draft).scope.names.Nodup := List.nodup_nil
  rw [Draft.pending_iff hempty rfl default]
  refine exists_congr fun inputs => and_congr_right fun _ => ?_
  constructor
  · rintro ⟨hadmissible, hdistinct⟩
    exact ⟨by simp, by simp, by simpa using hadmissible, by simpa using hdistinct⟩
  · rintro ⟨-, -, hadmissible, hdistinct⟩
    exact ⟨by simpa using hadmissible, by simpa using hdistinct⟩

/-! ## The first error -/

/-- A source is in error at a part of a line, and before it only lacks a result. -/
structure FirstError (source : String) (e : CompileError) (line : Line) : Prop where
  /-- Lines count from one. -/
  counted : 1 ≤ line.number
  /-- The line is the one of its number, without a carriage return. -/
  content : (written source)[line.number - 1]?.map withoutReturn = some line.content
  /-- The part lies within the line. -/
  within : lineStart source line.number ≤ line.span.start ∧ line.span.start ≤ line.span.stop ∧
    line.span.stop ≤ lineStart source line.number + line.content.utf8ByteSize
  /-- The part is the line, a token of it or a character, and its bytes are those in the source. -/
  target : ∃ part, (wholeLine source line).Target e line.span part ∧ line.span.Marks 0 source part
  /-- The lines before it are not in error. -/
  first : ∀ e', ofSource ("\n".intercalate ((written source).take (line.number - 1))) = .error e' →
    e' = .missingReturn
  /-- The lines after it do not matter. -/
  decides : ∀ source', (written source').take line.number = (written source).take line.number →
    ofSource source' = .error e

/-- A written line that cannot be taken in is the first error. -/
theorem firstError_of_addLine {source raw : String} {earlier later : List String} {next : Draft}
    {e : CompileError} (hwritten : written source = earlier ++ raw :: later)
    (hnext : ofWritten earlier = .ok next) (hread : (lineAfter earlier raw).isIgnored = false)
    (h : next.addLine (lineAfter earlier raw) = .error e) :
    ∃ line, e.line? = some line ∧ FirstError source e line := by
  have hwhole := Span.marks_whole (closed earlier).utf8ByteSize (withoutReturn raw)
  obtain ⟨span, part, hline, htarget, hmarks⟩ := Draft.points_of_addLine hwhole h
  have htake : (written source).take earlier.length = earlier := by rw [hwritten, List.take_left]
  have hstart : lineStart source (earlier.length + 1) = (closed earlier).utf8ByteSize := by
    rw [lineStart, Nat.add_sub_cancel, htake]
  refine ⟨_, hline, ?_⟩
  constructor
  case counted => exact Nat.le_add_left 1 _
  case content => simp [Line.narrow, lineAfter, hwritten]
  case within => simpa [Line.narrow, lineAfter, hstart] using hmarks.within
  case target =>
    refine ⟨part, ?_, Source.marks_of_lineAfter hwritten hmarks⟩
    have heq : wholeLine source ((lineAfter earlier raw).narrow span) = lineAfter earlier raw := by
      simp [wholeLine, Line.narrow, lineAfter, hstart]
    rw [heq]
    exact htarget
  case first =>
    intro e' he'
    simp only [Line.narrow, lineAfter, Nat.add_sub_cancel, htake] at he'
    refine error_of_ofWritten hnext he' fun other hmem => ?_
    exact Source.oneLine_of_mem_written (hwritten ▸ List.mem_append_left _ hmem)
  case decides =>
    intro source' hsame
    -- the same first lines are read alike, whatever comes behind them
    have hlines : written source' =
        earlier ++ raw :: (written source').drop (earlier.length + 1) := by
      have hfirst : (written source).take (earlier.length + 1) = earlier ++ [raw] := by
        rw [hwritten, List.append_cons, List.take_left' (by simp)]
      have hsame : (written source').take (earlier.length + 1) = earlier ++ [raw] := by
        rw [← hfirst]
        exact hsame
      rw [List.append_cons, ← hsame, List.take_append_drop]
    rw [ofSource_eq]
    exact Compiled.bind_eq_error.2 (.inl (ofWritten_eq_error.2
      ⟨earlier, raw, _, next, hlines, hnext, hread, h⟩))

theorem firstError_of_ofSource {source : String} {e : CompileError}
    (h : ofSource source = .error e) {line : Line} (hline : e.line? = some line) :
    FirstError source e line := by
  rw [ofSource_eq] at h
  rcases Compiled.bind_eq_error.1 h with h | ⟨last, -, h⟩
  · obtain ⟨earlier, raw, later, next, hwritten, hnext, hread, h⟩ := ofWritten_eq_error.1 h
    obtain ⟨found, hfound, hfirst⟩ := firstError_of_addLine hwritten hnext hread h
    rw [hline] at hfound
    cases hfound
    exact hfirst
  · obtain ⟨-, rfl⟩ := finish_eq_error.1 h
    cases hline

/-- **The first error is reported, at its place.** An error with a line is the first error of the
source, and that line decides it whatever follows; an error without one says that every line
declares an input and none the result. -/
theorem first_error_in_place {source : String} {e : CompileError}
    (h : ofSource source = .error e) :
    (∀ line, e.line? = some line → FirstError source e line) ∧
      (e.line? = none → e = .missingReturn ∧ OnlyInputs source) := by
  refine ⟨fun line hline => firstError_of_ofSource h hline, fun hnone => ?_⟩
  rw [ofSource_eq] at h
  rcases Compiled.bind_eq_error.1 h with h | ⟨last, hlast, h⟩
  · obtain ⟨earlier, raw, later, next, hwritten, hnext, hread, h⟩ := ofWritten_eq_error.1 h
    obtain ⟨line, hline, -⟩ := firstError_of_addLine hwritten hnext hread h
    simp [hline] at hnone
  · obtain ⟨hreturns, rfl⟩ := finish_eq_error.1 h
    refine ⟨rfl, ?_⟩
    rw [onlyInputs_iff, Source.significant, Source.lines_eq]
    exact ⟨last, hlast, hreturns⟩

/-- A carriage return and letters of two bytes before the size that is no number. -/
theorem first_error_in_place_of_size :
    ofSource "# ñ\r\ninteger -> n\r\narray -> string xs two\r\n-" =
      .error (.invalidSize "two" ⟨3, "array -> string xs two", ⟨39, 42⟩⟩) ∧
    FirstError "# ñ\r\ninteger -> n\r\narray -> string xs two\r\n-"
      (.invalidSize "two" ⟨3, "array -> string xs two", ⟨39, 42⟩⟩)
      ⟨3, "array -> string xs two", ⟨39, 42⟩⟩ := by
  have hread : ofSource "# ñ\r\ninteger -> n\r\narray -> string xs two\r\n-" =
      .error (.invalidSize "two" ⟨3, "array -> string xs two", ⟨39, 42⟩⟩) := by
    decide +kernel
  exact ⟨hread, (first_error_in_place hread).1 _ rfl⟩

end Signature

end StructuredCall
