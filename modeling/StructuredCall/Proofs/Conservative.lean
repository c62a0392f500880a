import StructuredCall.Proofs.Diagnostics

/-!
# Errors with the named-result dialect and without

A source that does not name its result is upgraded to its own texts, joined with line feeds. Such
lines differ from those of the source in their places and in carriage returns at their ends, and
each function that reads them gives results that are alike (`Compiled.Alike`): it succeeds with
the same, or it fails with an error of the same kind on the line of the same number. One lemma for
each function composes to `Signature.alike_ofSource`.

Upgrading itself splits every line into tokens before any line is read. So it can stop at a line
without tokens while an earlier line is in error for another reason (`Overtaken`), and this is the
only way in which the dialect changes what is reported.

Main result: `errors_conserved`.
-/

namespace StructuredCall

open Source (written withoutReturn texts)

/-! ## Results that are alike -/

/-- Errors of the same kind on the lines of the same number. -/
structure CompileError.Alike (e e' : CompileError) : Prop where
  title : e.title = e'.title
  number : e.line?.map (·.number) = e'.line?.map (·.number)

/-- Both results are values that are related, or both are errors that are alike. -/
inductive Compiled.Alike {α β : Type} (R : α → β → Prop) : Compiled α → Compiled β → Prop
  | ok {a : α} {b : β} : R a b → Alike R (.ok a) (.ok b)
  | error {e e' : CompileError} : e.Alike e' → Alike R (.error e) (.error e')

theorem Compiled.Alike.bind {α β γ δ : Type} {R : α → β → Prop} {S : γ → δ → Prop}
    {x : Compiled α} {y : Compiled β} {f : α → Compiled γ} {g : β → Compiled δ}
    (h : Alike R x y) (hstep : ∀ a b, R a b → Alike S (f a) (g b)) :
    Alike S (x >>= f) (y >>= g) := by
  cases h with
  | ok hrel => exact hstep _ _ hrel
  | error hsame => exact .error hsame

/-- The second line is the first one in another place, perhaps without a carriage return. -/
structure Line.Alike (line line' : Line) : Prop where
  number : line.number = line'.number
  content : line'.content = withoutReturn line.content

/-- The text of a line has tokens. -/
def Line.Lexes (line : Line) : Prop :=
  ∃ kinds, Token.Lexes line.content.toList kinds

theorem Line.lexes_iff {line : Line} :
    line.Lexes ↔ ∃ tokens, Token.ofLine line = .ok tokens := by
  constructor
  · rintro ⟨kinds, hlexes⟩
    obtain ⟨tokens, htokens, -⟩ := Token.read_iff.2 hlexes
    exact ⟨tokens, htokens⟩
  · rintro ⟨tokens, htokens⟩
    obtain ⟨kinds, -, hlexes⟩ := Token.lexes_of_scan htokens
    exact ⟨kinds, hlexes⟩

instance (line : Line) : Decidable line.Lexes :=
  decidable_of_iff ((Token.ofLine line).isOk = true) <| by
    rw [Line.lexes_iff]
    cases Token.ofLine line <;> simp [Except.isOk, Except.toBool]

/-! ## Reading a line -/

variable {line line' : Line}

theorem Token.title_of_ofLine {e : CompileError} (h : ofLine line = .error e) :
    e.title = "syntax error" ∧ e.line?.map (·.number) = some line.number := by
  have hlocated := located_ofLine line
  rw [h] at hlocated
  obtain ⟨c, span, rfl, -⟩ := hlocated
  exact ⟨rfl, rfl⟩

/-- The tokens of lines that are alike differ in their places. -/
theorem Line.Alike.ofLine (h : line.Alike line') :
    Compiled.Alike (fun tokens tokens' => tokens.map (·.kind) = tokens'.map (·.kind))
      (Token.ofLine line) (Token.ofLine line') := by
  have hlexes : ∀ kinds, Token.Lexes line'.content.toList kinds ↔
      Token.Lexes line.content.toList kinds := by
    intro kinds
    rw [h.content, Token.lexes_withoutReturn]
  cases hread : Token.ofLine line with
  | ok tokens =>
    obtain ⟨kinds, hkinds, hline⟩ := Token.lexes_of_scan hread
    obtain ⟨tokens', hread', hkinds'⟩ := Token.read_iff.2 ((hlexes kinds).2 hline)
    rw [hread']
    exact .ok (hkinds.trans hkinds'.symm)
  | error e =>
    cases hread' : Token.ofLine line' with
    | ok tokens' =>
      obtain ⟨kinds, hline⟩ := Line.lexes_iff.2 ⟨tokens', hread'⟩
      obtain ⟨tokens, hok⟩ := Line.lexes_iff.1 ⟨kinds, (hlexes kinds).1 hline⟩
      rw [hread] at hok
      cases hok
    | error e' =>
      obtain ⟨htitle, hnumber⟩ := Token.title_of_ofLine hread
      obtain ⟨htitle', hnumber'⟩ := Token.title_of_ofLine hread'
      exact .error ⟨htitle.trans htitle'.symm, by rw [hnumber, hnumber', h.number]⟩

namespace Declaration

/-- Declarations that differ in the place of the word for a size. -/
inductive Alike : Declaration → Declaration → Prop
  | returns (type : DataType) : Alike (.returns type) (.returns type)
  | input (name : String) (type : DataType) {size size' : Option Word} :
      size.map (·.text) = size'.map (·.text) →
      Alike (.input name type size) (.input name type size')

/-- Words with the same texts. -/
def SameTexts (words words' : List Word) : Prop :=
  List.Forall₂ (fun word word' => word.text = word'.text) words words'

theorem alike_named {name name' : Word} (h : name.text = name'.text) (type : DataType) :
    Alike (named name type) (named name' type) := by
  unfold named
  rw [h]
  split
  · exact .returns type
  · exact .input _ type rfl

theorem alike_ofScalar (hnumber : line.number = line'.number) (s : Scalar)
    {after after' : List Word} (h : SameTexts after after') :
    Compiled.Alike Alike (ofScalar line s after) (ofScalar line' s after') := by
  rcases h with - | ⟨hname, - | ⟨-, -⟩⟩
  · exact .error ⟨rfl, congrArg some hnumber⟩
  · exact .ok (alike_named hname _)
  · exact .error ⟨rfl, congrArg some hnumber⟩

theorem alike_element (hnumber : line.number = line'.number) {word word' : Word}
    (h : word.text = word'.text) :
    Compiled.Alike Eq (element line word) (element line' word') := by
  unfold element
  rw [h]
  split
  · exact .ok rfl
  · exact .error ⟨rfl, congrArg some hnumber⟩

theorem alike_ofContainer (hnumber : line.number = line'.number) (c : Container)
    {after after' : List Word} (h : SameTexts after after') :
    Compiled.Alike Alike (ofContainer line c after) (ofContainer line' c after') := by
  rcases h with - | ⟨hword, - | ⟨hname, hrest⟩⟩
  · exact .error ⟨rfl, congrArg some hnumber⟩
  · simp only [ofContainer, hword]
    split <;> exact .error ⟨rfl, congrArg some hnumber⟩
  · refine (alike_element hnumber hword).bind ?_
    rintro s _ rfl
    rcases hrest with - | ⟨hsize, - | ⟨-, -⟩⟩
    · exact .ok (alike_named hname _)
    · refine .ok ?_
      rw [hname]
      exact .input _ _ (congrArg some hsize)
    · exact .error ⟨rfl, congrArg some hnumber⟩

theorem alike_ofWords (hnumber : line.number = line'.number)
    {before before' after after' : List Word} (hbefore : SameTexts before before')
    (hafter : SameTexts after after') :
    Compiled.Alike Alike (ofWords line before after) (ofWords line' before' after') := by
  rcases hbefore with - | ⟨htype, - | ⟨-, -⟩⟩
  · exact .error ⟨rfl, congrArg some hnumber⟩
  · simp only [ofWords, htype]
    split
    · exact .error ⟨rfl, congrArg some hnumber⟩
    · exact alike_ofScalar hnumber _ hafter
    · exact alike_ofContainer hnumber _ hafter
  · exact .error ⟨rfl, congrArg some hnumber⟩

theorem texts_words (tokens : List Token) :
    (words tokens).map (·.text) = (tokens.map (·.kind)).filterMap Token.Kind.text? := by
  rw [words, List.map_filterMap, List.filterMap_map]
  refine congrArg (List.filterMap · tokens) (funext fun token => ?_)
  obtain ⟨kind, span⟩ := token
  cases kind <;> rfl

theorem sameTexts_words {tokens tokens' : List Token}
    (h : tokens.map (·.kind) = tokens'.map (·.kind)) :
    SameTexts (words tokens) (words tokens') := by
  have htexts : (words tokens).map (·.text) = (words tokens').map (·.text) := by
    rw [texts_words, texts_words, h]
  rw [← List.forall₂_eq_eq_eq] at htexts
  unfold SameTexts
  simpa only [List.forall₂_map_left_iff, List.forall₂_map_right_iff] using htexts

theorem alike_ofTokens (hnumber : line.number = line'.number) {tokens tokens' : List Token}
    (h : tokens.map (·.kind) = tokens'.map (·.kind)) :
    Compiled.Alike Alike (ofTokens line tokens) (ofTokens line' tokens') := by
  have hcount : tokens.countP (fun token => token.kind = .arrow) =
      tokens'.countP (fun token => token.kind = .arrow) := by
    have hmap := congrArg (List.countP (· = .arrow)) h
    rwa [List.countP_map, List.countP_map] at hmap
  have hbefore : (tokens.takeWhile fun token => token.kind ≠ .arrow).map (·.kind) =
      (tokens'.takeWhile fun token => token.kind ≠ .arrow).map (·.kind) := by
    have hmap := congrArg (List.takeWhile (· ≠ .arrow)) h
    rwa [List.takeWhile_map, List.takeWhile_map] at hmap
  have hlength := congrArg List.length hbefore
  rw [List.length_map, List.length_map] at hlength
  unfold ofTokens
  dsimp only
  rw [hcount, hlength]
  split
  · exact .error ⟨rfl, congrArg some hnumber⟩
  · refine alike_ofWords hnumber (sameTexts_words hbefore) (sameTexts_words ?_)
    rw [List.map_drop, List.map_drop, h]

theorem alike_ofLine (h : line.Alike line') :
    Compiled.Alike Alike (ofLine line) (ofLine line') :=
  h.ofLine.bind fun _ _ => alike_ofTokens h.number

end Declaration

/-! ## Reading lines -/

theorem Scope.alike_claim (hnumber : line.number = line'.number) (scope : Scope) (name : String)
    (kind : Symbol.Kind) :
    Compiled.Alike Eq (scope.claim name kind line) (scope.claim name kind line') := by
  unfold claim
  rw [hnumber]
  split
  · exact .ok rfl
  · exact .error ⟨rfl, congrArg some hnumber⟩

theorem Scope.alike_declare (hnumber : line.number = line'.number) (scope : Scope)
    (name : String) (isComposite : Bool) :
    Compiled.Alike Eq (scope.declare name isComposite line).2
      (scope.declare name isComposite line').2 ∧
    (scope.declare name isComposite line).1 = (scope.declare name isComposite line').1 := by
  unfold declare
  split
  · exact ⟨.error ⟨rfl, congrArg some hnumber⟩, rfl⟩
  have hnamed := scope.alike_claim hnumber name .input
  generalize scope.claim name .input line = x at hnamed
  generalize scope.claim name .input line' = y at hnamed
  cases hnamed with
  | error hsame => exact ⟨.error hsame, rfl⟩
  | @ok named _ heq =>
    subst heq
    dsimp only
    -- the name stays claimed if it is reserved
    split
    · exact ⟨.error ⟨rfl, congrArg some hnumber⟩, rfl⟩
    split
    · exact ⟨.ok rfl, rfl⟩
    have hsized := named.alike_claim hnumber (Name.sizeName name) .sizeConstant
    generalize named.claim (Name.sizeName name) .sizeConstant line = x at hsized
    generalize named.claim (Name.sizeName name) .sizeConstant line' = y at hsized
    cases hsized with
    | error hsame => exact ⟨.error hsame, rfl⟩
    | ok heq =>
      subst heq
      exact ⟨.ok rfl, rfl⟩

namespace Draft

theorem alike_claim (hnumber : line.number = line'.number) (draft : Draft) (name : String)
    (type : DataType) :
    Compiled.Alike Eq (draft.claim name type line) (draft.claim name type line') := by
  obtain ⟨hresult, hscope⟩ := draft.scope.alike_declare hnumber name type.isComposite
  unfold claim
  generalize draft.scope.declare name type.isComposite line = x at hresult hscope
  generalize draft.scope.declare name type.isComposite line' = y at hresult hscope
  obtain ⟨scope, x⟩ := x
  obtain ⟨scope', y⟩ := y
  cases hresult with
  | error hsame => exact .error hsame
  | ok => exact .ok hscope

theorem alike_sizeOf (hnumber : line.number = line'.number) {size size' : Option Word}
    (h : size.map (·.text) = size'.map (·.text)) :
    Compiled.Alike Eq (sizeOf line size) (sizeOf line' size') := by
  match size, size' with
  | none, none => exact .ok rfl
  | some word, some word' =>
    have htext : word.text = word'.text := by simpa using h
    simp only [sizeOf, htext]
    split
    · exact .ok rfl
    · exact .error ⟨rfl, congrArg some hnumber⟩
  | none, some _ | some _, none => simp at h

theorem alike_add (hnumber : line.number = line'.number) (draft : Draft) {d d' : Declaration}
    (h : d.Alike d') : Compiled.Alike Eq (draft.add line d) (draft.add line' d') := by
  cases h with
  | returns type =>
    simp only [add]
    split
    · exact .error ⟨rfl, congrArg some hnumber⟩
    · exact .ok rfl
  | input name type hsize =>
    refine (draft.alike_claim hnumber name type).bind ?_
    rintro scope _ rfl
    refine (alike_sizeOf hnumber hsize).bind ?_
    rintro size _ rfl
    exact .ok rfl

/-- **One line is taken in like another.** -/
theorem alike_addLine (h : line.Alike line') (draft : Draft) :
    Compiled.Alike Eq (draft.addLine line) (draft.addLine line') :=
  (Declaration.alike_ofLine h).bind fun _ _ => alike_add h.number draft

/-- **Lines are taken in like others**, one by one. -/
theorem alike_addLines {lines lines' : List Line} (h : List.Forall₂ Line.Alike lines lines')
    (draft : Draft) : Compiled.Alike Eq (draft.addLines lines) (draft.addLines lines') := by
  induction h generalizing draft with
  | nil => exact .ok rfl
  | cons hline _ ih =>
    refine (alike_addLine hline draft).bind ?_
    rintro next _ rfl
    exact ih next

end Draft

/-! ## Lines that are joined again -/

namespace Source

theorem forall₂_numbered (number offset offset' : Nat) (raws : List String) :
    List.Forall₂ Line.Alike (numbered number offset (raws.map String.toList))
      (numbered number offset' ((raws.map withoutReturn).map String.toList)) := by
  induction raws generalizing number offset offset' with
  | nil => exact .nil
  | cons raw raws ih => exact .cons ⟨rfl, rfl⟩ (ih _ _ _)

/-- The significant lines of a source that is written as the texts of another. -/
theorem forall₂_significant {source copy : String} (h : written copy = texts source) :
    List.Forall₂ Line.Alike (significant source) (significant copy) := by
  have hlines : List.Forall₂ Line.Alike (lines source) (lines copy) := by
    rw [lines_eq, lines_eq, h, texts_eq_written]
    exact forall₂_numbered 1 0 0 (written source)
  refine List.rel_filter ?_ hlines
  intro line line' hline
  have hignored : line'.isIgnored = line.isIgnored := by
    rw [← isIgnored_content, ← isIgnored_content, hline.content, isIgnored_withoutReturn]
  simp [hignored]

theorem pairwise_numbered (number offset : Nat) (ps : List (List Char)) :
    (numbered number offset ps).Pairwise fun line later => line.number < later.number := by
  induction ps generalizing number offset with
  | nil => exact .nil
  | cons piece ps ih =>
    refine .cons ?_ (ih _ _)
    intro later hlater
    exact (getElem?_numbered hlater).1

theorem pairwise_significant (source : String) :
    (significant source).Pairwise fun line later => line.number < later.number :=
  (pairwise_numbered 1 0 _).filter _

end Source

namespace Signature

/-- **A source is read like its texts**, which are joined again. -/
theorem alike_ofSource {source copy : String} (h : written copy = texts source) :
    Compiled.Alike Eq (ofSource source) (ofSource copy) := by
  refine (Draft.alike_addLines (Source.forall₂_significant h) {}).bind ?_
  rintro last _ rfl
  unfold Draft.finish
  split
  · exact .ok rfl
  · exact .error ⟨rfl, rfl⟩

theorem compile_eq_ofSource (source : String) : compile false source = ofSource source := by
  cases h : ofSource source <;>
    simp [compile, Compilation.run, Compilation.currentSource, Compilation.ofCurrent,
      Compilation.readAfter, h]

theorem compile_eq_upgrade (source : String) :
    compile true source = Dialect.upgrade source >>= ofSource := by
  cases hupgrade : Dialect.upgrade source with
  | error => simp [compile, Compilation.run, Compilation.currentSource, hupgrade, bind, Except.bind]
  | ok upgraded =>
    cases h : ofSource upgraded <;>
      simp [compile, Compilation.run, Compilation.currentSource, Compilation.ofCurrent,
        Compilation.readAfter, hupgrade, h]

end Signature

/-! ## Lines without tokens -/

/-- Lines are not read past one without tokens: either it is reported, or a line before it. -/
theorem Draft.addLines_of_unreadable {draft : Draft} {before after : List Line} {line : Line}
    {stop : CompileError} (h : Token.ofLine line = .error stop) :
    ∃ e, draft.addLines (before ++ line :: after) = .error e ∧
      (e = stop ∨ ∃ wrong ∈ before, ∃ next : Draft, next.addLine wrong = .error e) := by
  rw [addLines_append]
  cases hbefore : draft.addLines before with
  | error e =>
    obtain ⟨_, wrong, _, next, rfl, -, hwrong⟩ := addLines_eq_error.1 hbefore
    exact ⟨e, rfl, .inr ⟨wrong, by simp, next, hwrong⟩⟩
  | ok next =>
    have hline : next.addLine line = .error stop :=
      Compiled.bind_eq_error.2 (.inl (Compiled.bind_eq_error.2 (.inl h)))
    rw [Compiled.ok_bind]
    exact ⟨stop, Compiled.bind_eq_error.2 (.inl hline), .inl rfl⟩

namespace Dialect

theorem Steps.lexes {known last : List Spelling} {texts outs : List String}
    (h : Steps known texts outs last) {text : String} (hmem : text ∈ texts)
    (hread : Source.isIgnored text = false) : ∃ kinds, Token.Lexes text.toList kinds := by
  induction h with
  | nil => cases hmem
  | cons hstep _ ih =>
    rcases List.mem_cons.1 hmem with rfl | hmem
    · cases hstep with
      | ignored hskip => simp [hread] at hskip
      | named _ hrole | declares _ hrole | other _ hrole =>
        obtain ⟨kinds, hlexes, -⟩ := hrole
        exact ⟨kinds, hlexes⟩
    · exact ih hmem

/-- Upgrading a source that does not name its result stops at the first line without tokens. -/
theorem unreadable_of_upgrade {source : String} {e : CompileError}
    (hunnamed : ∀ line ∈ Source.lines source, ¬ line.NamesResult)
    (h : upgrade source = .error e) : ∃ before line after,
      Source.significant source = before ++ line :: after ∧ (∀ line ∈ before, line.Lexes) ∧
        Token.ofLine line = .error e := by
  obtain ⟨before, line, after, outs, known, hlines, hsteps, hread, hstops⟩ := upgrade_eq_error h
  refine ⟨before.filter fun line => !line.isIgnored, line, after.filter fun line => !line.isIgnored,
    ?_, ?_, ?_⟩
  · rw [Source.significant, hlines, List.filter_append, List.filter_cons_of_pos (by simp [hread])]
  · intro earlier hearlier
    obtain ⟨hmem, hkept⟩ := List.mem_filter.1 hearlier
    have hkept : earlier.isIgnored = false := by simpa using hkept
    exact hsteps.lexes (List.mem_map_of_mem hmem) hkept
  · cases hstops with
    | unreadable hline => exact hline
    | undeclared hrole =>
      have hmem : line ∈ Source.lines source :=
        hlines ▸ List.mem_append_right _ List.mem_cons_self
      exact absurd (namesResult_of_role hrole) (hunnamed line hmem)

/-- An upgraded source that does not name its result is written as its texts, and all of its
lines have tokens. -/
theorem written_of_upgrade {source upgraded : String}
    (hunnamed : ∀ line ∈ Source.lines source, ¬ line.NamesResult)
    (h : upgrade source = .ok upgraded) :
    written upgraded = texts source ∧ ∀ line ∈ Source.significant source, line.Lexes := by
  obtain ⟨last, hsteps⟩ := written_upgrade h
  constructor
  · refine hsteps.eq_of_unnamed fun text htext name hrole => ?_
    obtain ⟨line, hline, rfl⟩ := List.mem_map.1 htext
    exact hunnamed line hline (namesResult_of_role hrole)
  · intro line hline
    obtain ⟨hmem, hkept⟩ := List.mem_filter.1 hline
    have hkept : line.isIgnored = false := by simpa using hkept
    exact hsteps.lexes (List.mem_map_of_mem hmem) hkept

/-! ## Errors with and without the dialect -/

/-- The line in error has tokens, and a later line has none. -/
def Overtaken (source : String) (e : CompileError) : Prop :=
  ∃ line, e.line? = some line ∧ line.Lexes ∧
    ∃ later ∈ Source.significant source, line.number < later.number ∧ ¬ later.Lexes

theorem not_overtaken {source : String} {e : CompileError}
    (h : ∀ line ∈ Source.significant source, line.Lexes) : ¬ Overtaken source e := by
  rintro ⟨-, -, -, later, hlater, -, hunreadable⟩
  exact hunreadable (h later hlater)

/-- The first line without tokens is in error or, before it, another one is. -/
theorem reported_of_unreadable {source : String} {before after : List Line} {line : Line}
    {stop : CompileError} (hlines : Source.significant source = before ++ line :: after)
    (hbefore : ∀ line ∈ before, line.Lexes) (hstop : Token.ofLine line = .error stop) :
    ∃ e, Signature.ofSource source = .error e ∧
      (e = stop ∧ ¬ Overtaken source e ∨
        Overtaken source e ∧ e.line?.map (·.number) ≠ stop.line?.map (·.number)) := by
  have hsub : ∀ {other}, other ∈ before ++ line :: after → other ∈ Source.lines source :=
    fun hmem => List.mem_of_mem_filter (hlines ▸ hmem)
  have hmem : line ∈ before ++ line :: after := List.mem_append_right _ List.mem_cons_self
  have hunreadable : ¬ line.Lexes := by
    rw [Line.lexes_iff, hstop]
    rintro ⟨tokens, ⟨⟩⟩
  have hrun : ∃ e, ({} : Draft).addLines (before ++ line :: after) = .error e ∧
      (e = stop ∨ ∃ wrong ∈ before, ∃ next : Draft, next.addLine wrong = .error e) :=
    Draft.addLines_of_unreadable hstop
  obtain ⟨e, hadd, hcase⟩ := hrun
  have he : Signature.ofSource source = .error e := by
    rw [Signature.ofSource, hlines, hadd]
    rfl
  refine ⟨e, he, ?_⟩
  rcases hcase with rfl | ⟨wrong, hwrong, next, hnext⟩
  · -- the line itself is reported, so nothing is overtaken
    refine .inl ⟨rfl, ?_⟩
    rintro ⟨part, hpart, hlexes, -⟩
    have hcontent := ((Token.on_of_ofLine (hsub hmem) hstop).partOf hpart).content
    rw [Line.Lexes, hcontent] at hlexes
    exact hunreadable hlexes
  · -- an earlier line is reported: it has tokens, and the line without any is behind it
    obtain ⟨part, hpart, hwithin⟩ :=
      Draft.on_of_addLine (hsub (List.mem_append_left _ hwrong)) hnext
    have hpairwise := hlines ▸ Source.pairwise_significant source
    have hlt : part.number < line.number := by
      rw [hwithin.number]
      exact (List.pairwise_append.1 hpairwise).2.2 wrong hwrong line List.mem_cons_self
    have hovertaken : Overtaken source e := by
      refine ⟨part, hpart, ?_, line, hlines ▸ hmem, hlt, hunreadable⟩
      rw [Line.Lexes, hwithin.content]
      exact hbefore wrong hwrong
    refine .inr ⟨hovertaken, fun hnumber => ?_⟩
    rw [hpart, (Token.title_of_ofLine hstop).2] at hnumber
    exact Nat.ne_of_lt hlt (Option.some.inj hnumber)

/-- Where upgrading stops at a line, that line is in error or, before it, another one is. -/
theorem error_of_unreadable {source : String} {before after : List Line} {line : Line}
    {stop : CompileError} (hlines : Source.significant source = before ++ line :: after)
    (hbefore : ∀ line ∈ before, line.Lexes) (hstop : Token.ofLine line = .error stop) :
    ∃ e, Signature.ofSource source = .error e ∧ (e.Alike stop ↔ ¬ Overtaken source e) := by
  obtain ⟨e, he, ⟨rfl, hnot⟩ | ⟨hovertaken, hnumber⟩⟩ :=
    reported_of_unreadable hlines hbefore hstop
  · exact ⟨e, he, iff_of_true ⟨rfl, rfl⟩ hnot⟩
  · exact ⟨e, he, iff_of_false (fun halike => hnumber halike.number) (not_not_intro hovertaken)⟩

/-- **Upgrading keeps the errors of a source**, if the source does not name its result. It is in
error with the dialect exactly when it is without, and its error is the first one. With the
dialect that error is reported as well, on the same line, unless a line behind it has no tokens:
then the first line without tokens is reported in its place. -/
theorem errors_conserved {source : String}
    (hunnamed : ∀ line ∈ Source.lines source, ¬ line.NamesResult) :
    ((∃ e, Signature.compile true source = .error e) ↔
      ∃ e, Signature.compile false source = .error e) ∧
    ∀ e e', Signature.compile false source = .error e →
      Signature.compile true source = .error e' →
        (∀ line, e.line? = some line → Signature.FirstError source e line) ∧
        (e.Alike e' ↔ ¬ Overtaken source e) ∧
        (Overtaken source e → ∃ before later after,
          Source.significant source = before ++ later :: after ∧
            (∀ line ∈ before, line.Lexes) ∧ Token.ofLine later = .error e') := by
  have hfirst : ∀ e, Signature.ofSource source = .error e →
      ∀ line, e.line? = some line → Signature.FirstError source e line :=
    fun e he line hline => Signature.firstError_of_ofSource he hline
  rw [Signature.compile_eq_ofSource, Signature.compile_eq_upgrade]
  cases hupgrade : upgrade source with
  | ok upgraded =>
    obtain ⟨hwritten, hlexes⟩ := written_of_upgrade hunnamed hupgrade
    have halike := Signature.alike_ofSource hwritten
    rw [Compiled.ok_bind]
    generalize hread : Signature.ofSource source = x at halike hfirst
    generalize Signature.ofSource upgraded = y at halike
    cases halike with
    | ok => simp
    | @error e _ hsame =>
      refine ⟨by simp, ?_⟩
      rintro _ _ ⟨⟩ ⟨⟩
      have hnot := not_overtaken (e := e) hlexes
      exact ⟨hfirst _ rfl, iff_of_true hsame hnot, fun hovertaken => absurd hovertaken hnot⟩
  | error stop =>
    obtain ⟨before, line, after, hlines, hbefore, hstop⟩ :=
      unreadable_of_upgrade hunnamed hupgrade
    obtain ⟨e, he, halike⟩ := error_of_unreadable hlines hbefore hstop
    rw [he]
    refine ⟨iff_of_true ⟨stop, rfl⟩ ⟨e, rfl⟩, ?_⟩
    rintro _ _ ⟨⟩ ⟨⟩
    exact ⟨hfirst e he, halike, fun _ => ⟨before, line, after, hlines, hbefore, hstop⟩⟩

/-- The second line is the first in error, with the dialect and without; with it, the carriage
return before it is lost. -/
theorem errors_conserved_of_type :
    (∀ line ∈ Source.lines "integer -> a\r\nint -> b\ninteger -> a", ¬ line.NamesResult) ∧
    Signature.compile false "integer -> a\r\nint -> b\ninteger -> a" =
      .error (.unknownType "int" ⟨2, "int -> b", ⟨14, 17⟩⟩) ∧
    Signature.compile true "integer -> a\r\nint -> b\ninteger -> a" =
      .error (.unknownType "int" ⟨2, "int -> b", ⟨13, 16⟩⟩) ∧
    Signature.FirstError "integer -> a\r\nint -> b\ninteger -> a"
      (.unknownType "int" ⟨2, "int -> b", ⟨14, 17⟩⟩) ⟨2, "int -> b", ⟨14, 17⟩⟩ ∧
    (CompileError.unknownType "int" ⟨2, "int -> b", ⟨14, 17⟩⟩).Alike
      (.unknownType "int" ⟨2, "int -> b", ⟨13, 16⟩⟩) := by
  have hunnamed : ∀ line ∈ Source.lines "integer -> a\r\nint -> b\ninteger -> a",
      ¬ line.NamesResult := by
    decide +kernel
  have hcurrent : Signature.compile false "integer -> a\r\nint -> b\ninteger -> a" =
      .error (.unknownType "int" ⟨2, "int -> b", ⟨14, 17⟩⟩) := by
    decide +kernel
  have hdialect : Signature.compile true "integer -> a\r\nint -> b\ninteger -> a" =
      .error (.unknownType "int" ⟨2, "int -> b", ⟨13, 16⟩⟩) := by
    decide +kernel
  obtain ⟨hfirst, halike, -⟩ := (errors_conserved hunnamed).2 _ _ hcurrent hdialect
  have hlexes : ∀ line ∈ Source.significant "integer -> a\r\nint -> b\ninteger -> a",
      line.Lexes := by
    decide +kernel
  exact ⟨hunnamed, hcurrent, hdialect, hfirst _ rfl, halike.2 (not_overtaken hlexes)⟩

/-- The word `int` is an error on the first line, but the dialect reports the dash behind it. -/
theorem errors_conserved_not_before_dash :
    ¬ ∀ source : String, (∀ line ∈ Source.lines source, ¬ line.NamesResult) →
      ((∃ e, Signature.compile true source = .error e) ↔
        ∃ e, Signature.compile false source = .error e) ∧
      ∀ e e', Signature.compile false source = .error e →
        Signature.compile true source = .error e' →
          (∀ line, e.line? = some line → Signature.FirstError source e line) ∧ e.Alike e' := by
  intro h
  have hunnamed : ∀ line ∈ Source.lines "int -> a\ninteger - b", ¬ line.NamesResult := by
    decide +kernel
  have hcurrent : Signature.compile false "int -> a\ninteger - b" =
      .error (.unknownType "int" ⟨1, "int -> a", ⟨0, 3⟩⟩) := by
    decide +kernel
  have hdialect : Signature.compile true "int -> a\ninteger - b" =
      .error (.malformed (.unexpectedCharacter '-') ⟨2, "integer - b", ⟨17, 18⟩⟩) := by
    decide +kernel
  obtain ⟨-, htitle, -⟩ := (h _ hunnamed).2 _ _ hcurrent hdialect
  exact absurd htitle (by decide)

end Dialect

end StructuredCall
