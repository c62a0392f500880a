import StructuredCall.Proofs.Dialect
import StructuredCall.Proofs.FirstError
import StructuredCall.Signature.Compilation

/-!
# Where the errors of the named-result dialect point

Upgrading stops at a line of the source, and its error points into that line
(`upgradeLines_eq_error`). A later error points into a line of the upgraded source. That line has
the number of a line of the source, but it is another text where a result was named, and it stands
in another place where a line before it was replaced or has lost a carriage return. Where neither
happened the two lines are the same (`exists_replaces`).

Main result: `error_in_place`.
-/

namespace StructuredCall

open Source (written lineAfter withoutReturn texts)

/-! ## Parts of lines -/

/-- A line, or a narrower place on it. -/
structure Line.PartOf (part whole : Line) : Prop where
  number : part.number = whole.number
  content : part.content = whole.content
  within : whole.span.start ≤ part.span.start ∧ part.span.start ≤ part.span.stop ∧
    part.span.stop ≤ whole.span.stop

/-- The error points at a line or at a place on it. -/
def CompileError.On (e : CompileError) (line : Line) : Prop :=
  ∃ part, e.line? = some part ∧ part.PartOf line

theorem CompileError.On.partOf {e : CompileError} {line part : Line} (h : e.On line)
    (hpart : e.line? = some part) : part.PartOf line := by
  obtain ⟨found, hfound, hwithin⟩ := h
  rw [hpart] at hfound
  cases hfound
  exact hwithin

namespace Source

variable {source raw : String} {earlier : List String}

theorem partOf_lineAfter {span : Span} {part : String}
    (h : span.Marks (lineAfter earlier raw).span.start (lineAfter earlier raw).content part) :
    ((lineAfter earlier raw).narrow span).PartOf (lineAfter earlier raw) :=
  ⟨rfl, rfl, h.within⟩

theorem texts_eq_written (source : String) : texts source = (written source).map withoutReturn := by
  rw [texts_eq, written, List.map_map]
  rfl

end Source

/-- A character that starts no token is a place on its line. -/
theorem Token.on_of_ofLine {source : String} {line : Line} (hmem : line ∈ Source.lines source)
    {e : CompileError} (h : ofLine line = .error e) : e.On line := by
  obtain ⟨earlier, raw, later, -, rfl⟩ := Source.mem_lines_iff.1 hmem
  have hlocated := located_ofLine (lineAfter earlier raw)
  rw [h] at hlocated
  obtain ⟨c, span, rfl, hmarks⟩ := hlocated
  exact ⟨_, rfl, Source.partOf_lineAfter hmarks⟩

theorem Token.listLines_eq_error {lines : List Line} {e : CompileError}
    (h : listLines lines = .error e) : ∃ line ∈ lines, ofLine line = .error e := by
  induction lines with
  | nil => cases h
  | cons line rest ih =>
    rcases Compiled.bind_eq_error.1 h with h | ⟨tokens, -, h⟩
    · exact ⟨line, List.mem_cons_self, h⟩
    · obtain ⟨wrong, hmem, hwrong⟩ := ih (Compiled.bind_pure_eq_error.1 h)
      exact ⟨wrong, List.mem_cons_of_mem _ hmem, hwrong⟩

theorem Draft.on_of_addLine {source : String} {line : Line} (hmem : line ∈ Source.lines source)
    {draft : Draft} {e : CompileError} (h : draft.addLine line = .error e) : e.On line := by
  obtain ⟨earlier, raw, later, -, rfl⟩ := Source.mem_lines_iff.1 hmem
  obtain ⟨span, part, hline, -, hmarks⟩ := points_of_addLine (Span.marks_whole _ _) h
  exact ⟨_, hline, Source.partOf_lineAfter hmarks⟩

/-- An error of reading a source points into a line of the source, or says that the result is
missing. -/
theorem Signature.on_of_ofSource {source : String} {e : CompileError}
    (h : Signature.ofSource source = .error e) :
    e = .missingReturn ∨ ∃ line ∈ Source.lines source, e.On line := by
  rcases Compiled.bind_eq_error.1 h with h | ⟨last, -, h⟩
  · obtain ⟨before, wrong, after, next, hlines, -, h⟩ := Draft.addLines_eq_error.1 h
    have hmem : wrong ∈ Source.significant source :=
      hlines ▸ List.mem_append_right _ List.mem_cons_self
    have hmem : wrong ∈ Source.lines source := List.mem_of_mem_filter hmem
    exact .inr ⟨wrong, hmem, Draft.on_of_addLine hmem h⟩
  · exact .inl (finish_eq_error.1 h).2

/-! ## Lines that name the result -/

/-- The line is `return -> name`. -/
def Line.NamesResult (line : Line) : Prop :=
  ∃ tokens name, Token.ofLine line = .ok tokens ∧
    tokens.map (·.kind) = [.word "return", .arrow, .word name, .endOfLine]

/-- The name that stands for the result in `return -> name`. -/
def Token.Kind.resultName? : List Token.Kind → Option String
  | [.word text, .arrow, .word name, .endOfLine] => if text = "return" then some name else none
  | _ => none

theorem Token.Kind.resultName?_eq_some {kinds : List Token.Kind} {name : String} :
    resultName? kinds = some name ↔ kinds = [.word "return", .arrow, .word name, .endOfLine] := by
  unfold resultName?
  split
  · simp
  · next hother => exact iff_of_false (by simp) (hother _ _)

theorem Line.namesResult_iff {line : Line} : line.NamesResult ↔
    ∃ tokens ∈ (Token.ofLine line).toOption,
      (Token.Kind.resultName? (tokens.map (·.kind))).isSome = true := by
  simp only [NamesResult, Option.isSome_iff_exists, Token.Kind.resultName?_eq_some]
  cases Token.ofLine line <;> simp [Except.toOption]

instance (line : Line) : Decidable line.NamesResult :=
  decidable_of_iff _ Line.namesResult_iff.symm

theorem Token.Lexes.endOfLine_not_mem {cs : List Char} {kinds : List Kind} (h : Lexes cs kinds) :
    .endOfLine ∉ kinds := by
  induction h <;> simp_all

namespace Dialect

theorem Role.ofShape_eq_returnsNamed {shape : List (Option String)} {name : String}
    (h : ofShape shape = .returnsNamed name) : shape = [some "return", none, some name] := by
  unfold ofShape at h
  split at h
  · split at h
    · next hreturn =>
      cases h
      rw [hreturn]
      rfl
    · cases h
  · split at h <;> cases h
  · cases h

theorem namesResult_of_role {line : Line} {name : String}
    (h : Role.OfText line.content (.returnsNamed name)) : line.NamesResult := by
  obtain ⟨kinds, hlexes, hshape⟩ := h
  have hkinds : kinds = [.word "return", .arrow, .word name] := by
    have hend := hlexes.endOfLine_not_mem
    have hshape := Role.ofShape_eq_returnsNamed hshape
    match kinds with
    | [.word _, .arrow, .word _] => simpa [Token.Kind.text?] using hshape
    | [.word _, .endOfLine, .word _] => simp at hend
    | [] | [_] | [_, _] | _ :: _ :: _ :: _ :: _ => simp at hshape
    | [.arrow, _, _] | [.endOfLine, _, _] => simp [Token.Kind.text?] at hshape
    | [_, .word _, _] => simp [Token.Kind.text?] at hshape
    | [_, _, .arrow] | [_, _, .endOfLine] => simp [Token.Kind.text?] at hshape
  obtain ⟨tokens, htokens, hmap⟩ := Token.read_iff.2 hlexes
  exact ⟨tokens, name, htokens, by rw [hmap, hkinds]; rfl⟩

/-! ## Errors of upgrading -/

/-- Upgrading cannot go on behind a line that it has to read. -/
inductive Stops (known : List Spelling) (line : Line) : CompileError → Prop
  | unreadable {e : CompileError} : Token.ofLine line = .error e → Stops known line e
  | undeclared {name : String} : Role.OfText line.content (.returnsNamed name) →
      known.find? (fun spelling => spelling.name = name) = none →
      Stops known line (.undeclaredReturn name line)

theorem upgradeLines_cons_eq_error {known : List Spelling} {line : Line} {rest : List Line}
    {e : CompileError} (h : upgradeLines known (line :: rest) = .error e) :
    line.isIgnored = false ∧ Stops known line e ∨
      ∃ out next, Step known line.content out next ∧ upgradeLines next rest = .error e := by
  have hignored := (Source.isIgnored_content line).symm
  rw [upgradeLines] at h
  split at h
  · next hskip =>
    cases hrest : upgradeLines known rest with
    | ok => simp [hrest, Except.map] at h
    | error => exact .inr ⟨_, _, .ignored (hignored ▸ hskip), by simpa [hrest, Except.map] using h⟩
  · next hread =>
    have hread : line.isIgnored = false := by simpa using hread
    rcases Compiled.bind_eq_error.1 h with h | ⟨tokens, htokens, h⟩
    · exact .inl ⟨hread, .unreadable h⟩
    have hrole := role_iff.1 ⟨tokens, htokens, rfl⟩
    split at h
    · next name hname =>
      rw [hname] at hrole
      split at h
      · next hfind =>
        cases h
        exact .inl ⟨hread, .undeclared hrole hfind⟩
      · next spelling hfind =>
        exact .inr ⟨_, _, .named (hignored ▸ hread) hrole hfind, Compiled.bind_pure_eq_error.1 h⟩
    · next spelling hspelling =>
      rw [hspelling] at hrole
      exact .inr ⟨_, _, .declares (hignored ▸ hread) hrole, Compiled.bind_pure_eq_error.1 h⟩
    · next hother =>
      rw [hother] at hrole
      exact .inr ⟨_, _, .other (hignored ▸ hread) hrole, Compiled.bind_pure_eq_error.1 h⟩

/-- **Upgrading stops at a line** behind lines that it takes step by step. -/
theorem upgradeLines_eq_error {known : List Spelling} {lines : List Line} {e : CompileError}
    (h : upgradeLines known lines = .error e) : ∃ before line after outs next,
      lines = before ++ line :: after ∧ Steps known (before.map (·.content)) outs next ∧
        line.isIgnored = false ∧ Stops next line e := by
  induction lines generalizing known with
  | nil => cases h
  | cons line rest ih =>
    rcases upgradeLines_cons_eq_error h with ⟨hread, hstops⟩ | ⟨out, next, hstep, h⟩
    · exact ⟨[], line, rest, [], known, rfl, .nil, hread, hstops⟩
    · obtain ⟨before, wrong, after, outs, last, rfl, hsteps, hread, hstops⟩ := ih h
      exact ⟨line :: before, wrong, after, out :: outs, last, rfl, .cons hstep hsteps, hread,
        hstops⟩

theorem upgrade_eq_error {source : String} {e : CompileError} (h : upgrade source = .error e) :
    ∃ before line after outs known, Source.lines source = before ++ line :: after ∧
      Steps [] (before.map (·.content)) outs known ∧ line.isIgnored = false ∧
        Stops known line e :=
  upgradeLines_eq_error (Compiled.bind_pure_eq_error.1 h)

/-- An error of upgrading points into a line of the source. -/
theorem on_of_upgrade {source : String} {e : CompileError} (h : upgrade source = .error e) :
    ∃ line ∈ Source.lines source, e.On line := by
  obtain ⟨before, line, after, outs, known, hlines, -, -, hstops⟩ := upgrade_eq_error h
  have hmem : line ∈ Source.lines source := hlines ▸ List.mem_append_right _ List.mem_cons_self
  refine ⟨line, hmem, ?_⟩
  cases hstops with
  | unreadable hread => exact Token.on_of_ofLine hmem hread
  | undeclared =>
    obtain ⟨earlier, raw, later, -, rfl⟩ := Source.mem_lines_iff.1 hmem
    exact ⟨_, rfl, Source.partOf_lineAfter (Span.marks_whole _ _)⟩

/-! ## The lines of an upgraded source -/

/-- The step that gave a text of an upgraded source. -/
theorem Steps.exists_step {known last : List Spelling} {texts earlier later : List String}
    {out : String} (h : Steps known texts (earlier ++ out :: later) last) :
    ∃ before text after mid next, texts = before ++ text :: after ∧
      before.length = earlier.length ∧ Steps known before earlier mid ∧
        Step mid text out next := by
  generalize houts : earlier ++ out :: later = outs at h
  induction h generalizing earlier with
  | nil => simp at houts
  | @cons known next last text first texts outs hstep hrest ih =>
    cases earlier with
    | nil =>
      cases houts
      exact ⟨[], text, texts, known, next, rfl, rfl, .nil, hstep⟩
    | cons _ earlier =>
      cases houts
      obtain ⟨before, found, after, mid, last, rfl, hlength, hbefore, hfound⟩ := ih rfl
      exact ⟨text :: before, found, after, mid, last, rfl, by simp [hlength],
        .cons hstep hbefore, hfound⟩

/-- Where no result is named, texts are kept. -/
theorem Steps.eq_of_unnamed {known last : List Spelling} {texts outs : List String}
    (h : Steps known texts outs last)
    (hunnamed : ∀ text ∈ texts, ∀ name, ¬ Role.OfText text (.returnsNamed name)) :
    outs = texts := by
  induction h with
  | nil => rfl
  | cons hstep _ ih =>
    obtain ⟨hfirst, hunnamed⟩ := List.forall_mem_cons.1 hunnamed
    rw [ih hunnamed]
    cases hstep with
    | ignored | declares | other => rfl
    | named _ hrole => exact absurd hrole (hfirst _)

theorem written_upgrade {source upgraded : String} (h : upgrade source = .ok upgraded) :
    ∃ last, Steps [] (texts source) (written upgraded) last := by
  obtain ⟨outs, last, hsteps, rfl⟩ := upgrade_eq_ok.1 h
  have hne : outs ≠ [] := by
    rintro rfl
    generalize htexts : texts source = all at hsteps
    cases hsteps
    exact Source.texts_ne_nil source htexts
  rw [Source.written_intercalate hne (hsteps.oneLine (Source.oneLine_texts source) (by simp))]
  exact ⟨last, hsteps⟩

/-- Upgrading leaves a source as it is up to the end of a line: no result is named there, and
no carriage return is lost. -/
structure Keeps (source : String) (number : Nat) : Prop where
  unnamed : ∀ line ∈ Source.lines source, line.number ≤ number → ¬ line.NamesResult
  /-- The lines before it end with a line feed alone. -/
  endings : ∀ raw ∈ (written source).take (number - 1), withoutReturn raw = raw
  /-- At most one carriage return ends the line. -/
  last : ∀ line ∈ Source.lines source, line.number = number →
    withoutReturn line.content = line.content

/-- A line of an upgraded source, and the line of the source in its place. -/
structure Replaces (source : String) (read origin : Line) : Prop where
  number : read.number = origin.number
  content : ¬ origin.NamesResult → withoutReturn origin.content = origin.content →
    read.content = origin.content
  kept : Keeps source origin.number → read = origin

/-- The lines before a line that is kept are written again. -/
theorem Keeps.eq_of_steps {source raw : String} {raws later outs : List String}
    {last : List Spelling} (hkeeps : Keeps source (raws.length + 1))
    (hwritten : written source = raws ++ raw :: later)
    (h : Steps [] (raws.map withoutReturn) outs last) : outs = raws := by
  have hendings : raws.map withoutReturn = raws := by
    have hraw := hkeeps.endings
    rw [Nat.add_sub_cancel, hwritten, List.take_left] at hraw
    exact (List.map_congr_left hraw).trans (List.map_id' raws)
  refine (h.eq_of_unnamed ?_).trans hendings
  intro text htext name hrole
  obtain ⟨named, hnamed, rfl⟩ := List.mem_map.1 htext
  obtain ⟨first, second, rfl⟩ := List.append_of_mem hnamed
  have hline : lineAfter first named ∈ Source.lines source :=
    Source.mem_lines_iff.2 ⟨first, named, second ++ raw :: later, by simpa using hwritten, rfl⟩
  exact hkeeps.unnamed _ hline (by simp [lineAfter]) (namesResult_of_role hrole)

/-- **Each line of an upgraded source stands for the line with its number**, and is the same line
as long as nothing has changed. -/
theorem exists_replaces {source upgraded : String} (h : upgrade source = .ok upgraded)
    {read : Line} (hread : read ∈ Source.lines upgraded) :
    ∃ origin ∈ Source.lines source, Replaces source read origin := by
  obtain ⟨last, hsteps⟩ := written_upgrade h
  obtain ⟨earlier, out, later, hwritten, rfl⟩ := Source.mem_lines_iff.1 hread
  rw [hwritten] at hsteps
  -- steps go line by line, so the line read has the number of the one it was written for
  obtain ⟨before, text, after, mid, next, htexts, hlength, hbefore, hstep⟩ := hsteps.exists_step
  rw [Source.texts_eq_written] at htexts
  obtain ⟨raws, rest, hsource, rfl, hrest⟩ := List.map_eq_append_iff.1 htexts
  obtain ⟨raw, more, rfl, rfl, -⟩ := List.map_eq_cons_iff.1 hrest
  have hmem : lineAfter raws raw ∈ Source.lines source :=
    Source.mem_lines_iff.2 ⟨raws, raw, more, hsource, rfl⟩
  have hout : ¬ (lineAfter raws raw).NamesResult → out = withoutReturn raw := by
    intro hunnamed
    cases hstep with
    | ignored | declares | other => rfl
    | named _ hrole =>
      have hnames : (lineAfter raws raw).NamesResult := namesResult_of_role hrole
      exact absurd hnames hunnamed
  refine ⟨lineAfter raws raw, hmem, ?_, ?_, ?_⟩
  · have hraws : raws.length = earlier.length := by simpa using hlength
    simp [lineAfter, hraws]
  · intro hunnamed hreturn
    rw [hout hunnamed]
    exact hreturn
  · intro hkeeps
    -- what is written before it is the same text, so it starts at the same byte
    have hearlier := hkeeps.eq_of_steps hsource hbefore
    have hlast := hkeeps.last _ hmem rfl
    have hkept := hout (hkeeps.unnamed _ hmem (Nat.le_refl _))
    subst hearlier hkept
    simp only [lineAfter] at hlast ⊢
    rw [hlast]

/-! ## Errors of sources in the dialect -/

theorem on_of_ofCurrent {options : ReadOptions} {source : String} {e : CompileError}
    (h : (Compilation.ofCurrent options source).result = .error e) :
    e = .missingReturn ∨ ∃ line ∈ Source.lines source, e.On line := by
  have hread : ∀ listing, (Compilation.readAfter options source listing).result = .error e →
      e = .missingReturn ∨ ∃ line ∈ Source.lines source, e.On line := by
    intro listing h
    unfold Compilation.readAfter at h
    split at h
    · next he =>
      cases h
      exact Signature.on_of_ofSource he
    · cases h
  unfold Compilation.ofCurrent at h
  split at h
  · dsimp only at h
    split at h
    · next he =>
      cases h
      obtain ⟨wrong, hwrong, he⟩ := Token.listLines_eq_error he
      have hmem := List.mem_of_mem_filter hwrong
      exact .inr ⟨wrong, hmem, Token.on_of_ofLine hmem he⟩
    · exact hread _ h
  · exact hread _ h

/-- **Where an error of a source in the dialect points.** An error of the upgrade points into the
line of the source that it is about. A later error points into the upgraded source, at the line
that stands for one of the source: it has the number of that line, its content unless the line
names the result or ends with two carriage returns, and its place as long as upgrading has left
the source as it is. -/
theorem error_in_place {options : ReadOptions} (hlegacy : options.legacy = true)
    {source : String} {e : CompileError} {line : Line}
    (h : (Compilation.run options source).result = .error e) (hline : e.line? = some line) :
    ∃ origin ∈ Source.lines source, line.number = origin.number ∧
      (¬ origin.NamesResult → withoutReturn origin.content = origin.content →
        line.content = origin.content) ∧
      (upgrade source = .error e ∨ Keeps source origin.number → line.PartOf origin) ∧
      ∀ upgraded, upgrade source = .ok upgraded → ∃ read ∈ Source.lines upgraded,
        line.PartOf read ∧ Replaces source read origin := by
  unfold Compilation.run Compilation.currentSource at h
  rw [if_pos hlegacy] at h
  split at h
  · next he =>
    cases h
    obtain ⟨origin, hmem, hon⟩ := on_of_upgrade he
    have hpart := hon.partOf hline
    refine ⟨origin, hmem, hpart.number, fun _ _ => hpart.content, fun _ => hpart, ?_⟩
    intro upgraded hupgraded
    rw [he] at hupgraded
    cases hupgraded
  · next upgraded hupgraded =>
    rcases on_of_ofCurrent h with rfl | ⟨read, hread, hon⟩
    · cases hline
    have hpart := hon.partOf hline
    obtain ⟨origin, hmem, hreplaces⟩ := exists_replaces hupgraded hread
    refine ⟨origin, hmem, hpart.number.trans hreplaces.number, ?_, ?_, ?_⟩
    · intro hunnamed hreturn
      exact hpart.content.trans (hreplaces.content hunnamed hreturn)
    · rintro (he | hkeeps)
      · rw [hupgraded] at he
        cases he
      · exact hreplaces.kept hkeeps ▸ hpart
    · intro upgraded' hupgraded'
      rw [hupgraded] at hupgraded'
      cases hupgraded'
      exact ⟨read, hread, hpart, hreplaces⟩

/-- The second line is kept, and the error on it is in place; the third names the result. -/
theorem error_in_place_of_kept :
    (Compilation.run { legacy := true } "integer -> a\nint -> b\nreturn -> a").result =
      .error (.unknownType "int" ⟨2, "int -> b", ⟨13, 16⟩⟩) ∧
    ∃ origin ∈ Source.lines "integer -> a\nint -> b\nreturn -> a",
      (⟨2, "int -> b", ⟨13, 16⟩⟩ : Line).PartOf origin := by
  have hrun : (Compilation.run { legacy := true } "integer -> a\nint -> b\nreturn -> a").result =
      .error (.unknownType "int" ⟨2, "int -> b", ⟨13, 16⟩⟩) := by
    decide +kernel
  have hkeeps : Keeps "integer -> a\nint -> b\nreturn -> a" 2 :=
    ⟨by decide +kernel, by decide +kernel, by decide +kernel⟩
  refine ⟨hrun, ?_⟩
  obtain ⟨origin, hmem, hnumber, -, hpart, -⟩ := error_in_place rfl hrun rfl
  exact ⟨origin, hmem, hpart (.inr (hnumber ▸ hkeeps))⟩

/-- A carriage return before a line moves the place of an error one byte to the left. -/
theorem error_in_place_not_behind_return :
    ¬ ∀ (source : String) (e : CompileError) (line : Line),
      Signature.compile true source = .error e → e.line? = some line →
        ∃ origin ∈ Source.lines source, line.PartOf origin := by
  intro h
  have hcompile : Signature.compile true "integer -> a\r\nint -> b" =
      .error (.unknownType "int" ⟨2, "int -> b", ⟨13, 16⟩⟩) := by
    decide +kernel
  have hlines : Source.lines "integer -> a\r\nint -> b" =
      [⟨1, "integer -> a", ⟨0, 12⟩⟩, ⟨2, "int -> b", ⟨14, 22⟩⟩] := by
    decide +kernel
  obtain ⟨origin, hmem, hnumber, -, hwithin⟩ := h _ _ _ hcompile rfl
  rw [hlines] at hmem
  rcases List.mem_pair.1 hmem with rfl | rfl
  · simp at hnumber
  · simp at hwithin

end Dialect

end StructuredCall
