import StructuredCall.Proofs.Listing

/-!
# What upgrading rewrites

Upgrading replaces the lines that name the result, and nothing else. The line in place of such a
one is built of words that stood on another line, the latest that declares the name; what is known
at a line is that latest declaration (`Steps.latest`).

Every text that upgrading gives is current (`current_of_upgrade`), the rewritten ones too, since
their first word is that of a declaration and so not `return`. Current texts are kept, so there is
nothing left to do in a second pass (`upgrade_eq_self`).

Main result: `upgrade_rewrites_results`.
-/

namespace StructuredCall

open Source (written lineAfter withoutReturn texts)

namespace Dialect

/-! ## The latest declaration of a name -/

/-- These words declare a name; `result` declares the result in the same type words. -/
inductive Declares : List Token.Kind → String → String → Prop
  | plain {type name : String} : type ≠ "return" →
      Declares [.word type, .arrow, .word name] name (type ++ " -> return")
  /-- A composite may be followed by any words. -/
  | composite {type element name : String} {c : Container} {rest : List Token.Kind} :
      Kind.NamedBy type (.container c) →
      Declares (.word type :: .arrow :: .word element :: .word name :: rest) name
        (type ++ " -> " ++ element ++ " return")

end Dialect

/-- The line is read, and it declares a name; `result` declares the result in its type words. -/
def Line.Declares (line : Line) (name result : String) : Prop :=
  line.isIgnored = false ∧ ∃ tokens kinds, Token.ofLine line = .ok tokens ∧
    tokens.map (·.kind) = kinds ++ [.endOfLine] ∧ Dialect.Declares kinds name result

namespace Dialect

/-- The last of the lines that declares the name does so in the type words of `result`. -/
def LatestDeclares (lines : List Line) (name result : String) : Prop :=
  ∃ before line after, lines = before ++ line :: after ∧ line.Declares name result ∧
    ∀ other ∈ after, ∀ result, ¬ other.Declares name result

theorem LatestDeclares.cons {lines : List Line} {name result : String}
    (h : LatestDeclares lines name result) (line : Line) :
    LatestDeclares (line :: lines) name result := by
  obtain ⟨before, found, after, rfl, hfound, hafter⟩ := h
  exact ⟨line :: before, found, after, rfl, hfound, hafter⟩

theorem text?_eq_some {kind : Token.Kind} {text : String} :
    kind.text? = some text ↔ kind = .word text := by
  cases kind <;> simp [Token.Kind.text?]

theorem text?_eq_none {kind : Token.Kind} (h : kind ≠ .endOfLine) :
    kind.text? = none ↔ kind = .arrow := by
  cases kind <;> simp_all [Token.Kind.text?]

theorem declares_iff {kinds : List Token.Kind} (hend : .endOfLine ∉ kinds) {name result : String} :
    Declares kinds name result ↔ ∃ spelling,
      Role.ofShape (kinds.map Token.Kind.text?) = .declares spelling ∧
        spelling.name = name ∧ spelling.returnLine = result := by
  have hplain : " -> return" = " -> " ++ Declaration.returnWord := by decide
  have hbehind : " return" = " " ++ Declaration.returnWord := by decide
  constructor
  · intro h
    cases h with
    | @plain type _ htype =>
      refine ⟨⟨name, type, none⟩, if_neg htype, rfl, ?_⟩
      simp only [Spelling.returnLine, hplain, String.append_assoc]
    | @composite type element _ _ _ hword =>
      refine ⟨⟨name, type, some element⟩, ?_, rfl, ?_⟩
      · simp only [List.map_cons, Token.Kind.text?, Role.ofShape, Kind.ofWord?_eq_some.2 hword]
      · simp only [Spelling.returnLine, hbehind, String.append_assoc]
  · rintro ⟨spelling, hshape, rfl, rfl⟩
    unfold Role.ofShape at hshape
    split at hshape
    · next hwords =>
      simp only [List.map_eq_cons_iff, List.map_eq_nil_iff, text?_eq_some] at hwords
      obtain ⟨_, _, rfl, rfl, second, _, rfl, hsecond, _, _, rfl, rfl, rfl⟩ := hwords
      obtain rfl := (text?_eq_none fun heq => hend (by simp [heq])).1 hsecond
      split at hshape
      · cases hshape
      · next htype =>
        cases hshape
        simpa only [Spelling.returnLine, hplain, String.append_assoc] using Declares.plain htype
    · next hwords =>
      simp only [List.map_eq_cons_iff, text?_eq_some] at hwords
      obtain ⟨_, _, rfl, rfl, second, _, rfl, hsecond, _, _, rfl, rfl, _, _, rfl, rfl, rfl⟩ :=
        hwords
      obtain rfl := (text?_eq_none fun heq => hend (by simp [heq])).1 hsecond
      split at hshape
      · next hword =>
        cases hshape
        simpa only [Spelling.returnLine, hbehind, String.append_assoc] using
          Declares.composite (Kind.ofWord?_eq_some.1 hword)
      · cases hshape
    · cases hshape

/-- What a line declares is what its text declares. -/
theorem declares_iff_role {line : Line} {name result : String} :
    line.Declares name result ↔ line.isIgnored = false ∧ ∃ spelling,
      Role.OfText line.content (.declares spelling) ∧ spelling.name = name ∧
        spelling.returnLine = result := by
  refine and_congr_right fun _ => ?_
  constructor
  · rintro ⟨tokens, kinds, htokens, hkinds, hdeclares⟩
    have hlexes := Token.read_iff.1 ⟨tokens, htokens, hkinds⟩
    obtain ⟨spelling, hshape, hspelling⟩ := (declares_iff hlexes.endOfLine_not_mem).1 hdeclares
    exact ⟨spelling, ⟨kinds, hlexes, hshape⟩, hspelling⟩
  · rintro ⟨spelling, ⟨kinds, hlexes, hshape⟩, hspelling⟩
    obtain ⟨tokens, htokens, hkinds⟩ := Token.read_iff.2 hlexes
    exact ⟨tokens, kinds, htokens, hkinds,
      (declares_iff hlexes.endOfLine_not_mem).2 ⟨spelling, hshape, hspelling⟩⟩

/-- What is known of a name behind a line was declared by the line, or the line does not declare
the name and it was known before. -/
theorem Step.find? {known next : List Spelling} {line : Line} {out name : String}
    {spelling : Spelling} (h : Step known line.content out next)
    (hfind : next.find? (fun spelling => spelling.name = name) = some spelling) :
    line.Declares name spelling.returnLine ∨
      known.find? (fun spelling => spelling.name = name) = some spelling ∧
        ∀ result, ¬ line.Declares name result := by
  cases h with
  | ignored hskip =>
    exact .inr ⟨hfind, fun _ hdeclares => by simp [hdeclares.1, Source.isIgnored_content] at hskip⟩
  | named _ hrole | other _ hrole =>
    refine .inr ⟨hfind, fun _ hdeclares => ?_⟩
    obtain ⟨-, _, hdeclared, -⟩ := declares_iff_role.1 hdeclares
    cases hrole.unique hdeclared
  | @declares declared hread hrole =>
    by_cases hname : declared.name = name
    · rw [List.find?_cons_of_pos (by simpa using hname)] at hfind
      cases hfind
      exact .inl (declares_iff_role.2 ⟨hread, _, hrole, hname, rfl⟩)
    · rw [List.find?_cons_of_neg (by simpa using hname)] at hfind
      refine .inr ⟨hfind, fun _ hdeclares => ?_⟩
      obtain ⟨-, _, hdeclared, hdeclaredName, -⟩ := declares_iff_role.1 hdeclares
      cases hrole.unique hdeclared
      exact hname hdeclaredName

/-- **What is known is the latest declaration** of its name. -/
theorem Steps.latest {known last : List Spelling} {lines : List Line} {outs : List String}
    {name : String} {spelling : Spelling} (h : Steps known (lines.map (·.content)) outs last)
    (hfind : last.find? (fun spelling => spelling.name = name) = some spelling) :
    LatestDeclares lines name spelling.returnLine ∨
      known.find? (fun spelling => spelling.name = name) = some spelling ∧
        ∀ line ∈ lines, ∀ result, ¬ line.Declares name result := by
  induction lines generalizing known outs with
  | nil =>
    cases h
    exact .inr ⟨hfind, by simp⟩
  | cons line lines ih =>
    cases h with | cons hstep hrest => ?_
    rcases ih hrest with hlatest | ⟨hnext, hlines⟩
    · exact .inl (hlatest.cons line)
    rcases hstep.find? hnext with hdeclares | ⟨hknown, hline⟩
    · exact .inl ⟨[], line, lines, rfl, hdeclares, hlines⟩
    · exact .inr ⟨hknown, List.forall_mem_cons.2 ⟨hline, hlines⟩⟩

/-! ## Upgraded sources -/

theorem Steps.length_eq {known last : List Spelling} {texts outs : List String}
    (h : Steps known texts outs last) : outs.length = texts.length := by
  induction h with
  | nil => rfl
  | cons _ _ ih => simp [ih]

theorem not_namesResult_of_current {source : String} (h : ∀ raw ∈ written source, Current raw)
    {line : Line} (hline : line ∈ Source.significant source) : ¬ line.NamesResult := by
  rintro ⟨tokens, name, htokens, hkinds⟩
  obtain ⟨hmem, hkept⟩ := List.mem_filter.1 hline
  have hlexes : Token.Lexes line.content.toList [.word "return", .arrow, .word name] :=
    Token.read_iff.1 ⟨tokens, htokens, hkinds⟩
  obtain ⟨earlier, raw, later, hwritten, rfl⟩ := Source.mem_lines_iff.1 hmem
  have hnamed : Role.OfText raw (.returnsNamed name) :=
    ⟨_, Token.lexes_withoutReturn.1 hlexes, rfl⟩
  rcases h raw (by simp [hwritten]) with hskip | ⟨role, hrole, hunnamed⟩
  · rw [← Source.isIgnored_withoutReturn] at hskip
    have hignored := (Source.isIgnored_content (lineAfter earlier raw)).symm.trans hskip
    simp [hignored] at hkept
  · exact hunnamed name (hrole.unique hnamed)

/-- A source without carriage returns has none at the ends of its lines. -/
theorem texts_eq_written_of_not_mem {source : String} (h : '\r' ∉ source.toList) :
    texts source = written source := by
  rw [Source.texts_eq_written]
  refine (List.map_congr_left fun raw hraw => ?_).trans (List.map_id _)
  rcases Source.withoutReturn_cases raw with heq | heq
  · exact heq
  · obtain ⟨earlier, later, hwritten⟩ := List.append_of_mem hraw
    obtain ⟨rest, hrest⟩ := Source.intercalate_append earlier raw later
    rw [← hwritten, Source.intercalate_written] at hrest
    refine absurd ?_ h
    rw [hrest]
    simp [heq]

/-- A source with current lines is upgraded to itself. -/
theorem upgrade_eq_self {source : String} (h : ∀ raw ∈ written source, Current raw)
    (hreturn : '\r' ∉ source.toList) : upgrade source = .ok source := by
  obtain ⟨last, hsteps⟩ := Steps.of_current h []
  rw [← texts_eq_written_of_not_mem hreturn] at hsteps
  refine upgrade_eq_ok.2 ⟨_, last, hsteps, ?_⟩
  rw [texts_eq_written_of_not_mem hreturn, Source.intercalate_written]

theorem exists_piece {source upgraded : String} (h : upgrade source = .ok upgraded)
    {before : List Line} {line : Line} {after : List Line}
    (hlines : Source.lines source = before ++ line :: after) :
    ∃ piece, (written upgraded)[before.length]? = some piece ∧
      (¬ (line.isIgnored = false ∧ line.NamesResult) → piece = line.content) ∧
      ∀ tokens name, line.isIgnored = false → Token.ofLine line = .ok tokens →
        tokens.map (·.kind) = [.word "return", .arrow, .word name, .endOfLine] →
        LatestDeclares before name piece := by
  obtain ⟨last, hsteps⟩ := written_upgrade h
  rw [texts, hlines, List.map_append, List.map_cons] at hsteps
  obtain ⟨earlier, _, known, hwritten, hearlier, hrest⟩ := hsteps.of_append
  -- the step at the line is the one behind what the earlier lines declared
  cases hrest with | @cons _ _ _ _ piece _ later hstep _ => ?_
  have hlength : earlier.length = before.length := by simpa using hearlier.length_eq
  refine ⟨piece, by simp [hwritten, ← hlength], ?_, ?_⟩
  · intro hunnamed
    cases hstep with
    | ignored | declares | other => rfl
    | named hread hrole => exact absurd ⟨hread, namesResult_of_role hrole⟩ hunnamed
  · intro tokens name hread htokens hkinds
    have hlexes : Token.Lexes line.content.toList [.word "return", .arrow, .word name] :=
      Token.read_iff.1 ⟨tokens, htokens, hkinds⟩
    have hnamed : Role.OfText line.content (.returnsNamed name) := ⟨_, hlexes, rfl⟩
    cases hstep with
    | ignored hskip => simp [Source.isIgnored_content, hread] at hskip
    | declares _ hrole | other _ hrole => cases hnamed.unique hrole
    | named _ hrole hfind =>
      cases hnamed.unique hrole
      rcases hearlier.latest hfind with hlatest | ⟨hnone, -⟩
      · exact hlatest
      · cases hnone

/-- **Upgrading rewrites the lines that name the result** and is done in one pass. An upgraded
source has a line for each line of the source, without a carriage return at its end. It is the
same line, unless that is `return -> name`; then it declares the result in the type words of the
latest line before it that declares the name. No line that is read still names the result, and an
upgraded source without carriage returns is upgraded to itself. -/
theorem upgrade_rewrites_results {source upgraded : String} (h : upgrade source = .ok upgraded) :
    (written upgraded).length = (written source).length ∧
    (∀ before line after, Source.lines source = before ++ line :: after →
      ∃ piece, (written upgraded)[before.length]? = some piece ∧
        (¬ (line.isIgnored = false ∧ line.NamesResult) → piece = line.content) ∧
        ∀ tokens name, line.isIgnored = false → Token.ofLine line = .ok tokens →
          tokens.map (·.kind) = [.word "return", .arrow, .word name, .endOfLine] →
          LatestDeclares before name piece) ∧
    (∀ line ∈ Source.significant upgraded, ¬ line.NamesResult) ∧
    ('\r' ∉ upgraded.toList → upgrade upgraded = .ok upgraded) := by
  have hcurrent := current_of_upgrade h
  obtain ⟨last, hsteps⟩ := written_upgrade h
  refine ⟨?_, fun before line after => exists_piece h,
    fun line => not_namesResult_of_current hcurrent, upgrade_eq_self hcurrent⟩
  simpa [Source.texts_eq_written] using hsteps.length_eq

/-- The name is declared twice; the later declaration gives the result its type. -/
theorem upgrade_rewrites_results_redeclared :
    let source := "integer -> xs\narray -> integer xs 3\nreturn -> xs"
    let upgraded := "integer -> xs\narray -> integer xs 3\narray -> integer return"
    upgrade source = .ok upgraded ∧
    (written upgraded)[2]? = some "array -> integer return" ∧
    LatestDeclares [⟨1, "integer -> xs", ⟨0, 13⟩⟩, ⟨2, "array -> integer xs 3", ⟨14, 35⟩⟩] "xs"
      "array -> integer return" ∧
    upgrade upgraded = .ok upgraded := by
  intro source upgraded
  have hupgrade : upgrade source = .ok upgraded := by decide +kernel
  have hpiece : (written upgraded)[2]? = some "array -> integer return" := by decide +kernel
  obtain ⟨-, hlines, -, htwice⟩ := upgrade_rewrites_results hupgrade
  obtain ⟨piece, hfound, -, hlatest⟩ := hlines
    [⟨1, "integer -> xs", ⟨0, 13⟩⟩, ⟨2, "array -> integer xs 3", ⟨14, 35⟩⟩]
    ⟨3, "return -> xs", ⟨36, 48⟩⟩ [] (by decide +kernel)
  obtain rfl : "array -> integer return" = piece := Option.some.inj (hpiece.symm.trans hfound)
  have hdeclared := hlatest
    [⟨.word "return", ⟨36, 42⟩⟩, ⟨.arrow, ⟨43, 45⟩⟩, ⟨.word "xs", ⟨46, 48⟩⟩,
      ⟨.endOfLine, ⟨48, 48⟩⟩] "xs" (by decide +kernel) (by decide +kernel) rfl
  exact ⟨hupgrade, hpiece, hdeclared, htwice (by decide +kernel)⟩

end Dialect

end StructuredCall
