import StructuredCall.Proofs.Texts
import StructuredCall.Signature.Dialect

/-!
# The named-result dialect keeps its meaning

Upgrading goes line by line and knows the type words of the names declared so far. It does not
check anything that reading checks later: it takes a later declaration for an earlier one, and a
result for a declaration of the name `return`. In a source that is read in the end this makes no
difference, since there a name is declared once.

**Steps.** `Step` says what becomes of one text, `Steps` of all texts of a source. What is known
was declared by a text that is kept (`Steps.declared`).

**Meaning.** The words of a spelling mean the type that the clause declares, whatever the case
they are written in (`Spelling.Means`), and the line written in place of a named result says that
type again (`Spelling.reads_returnLine`).

**Current texts.** Upgrading keeps a text that names no result, whatever is known
(`Steps.of_current`), and gives such texts only (`Steps.current`).

Main result: `upgrade_preserves_meaning`.
-/

namespace StructuredCall

def Token.Kind.text? : Token.Kind → Option String
  | .word text => some text
  | .arrow | .endOfLine => none

namespace Dialect

/-! ## Roles of texts -/

/-- A text has a role in the dialect. -/
def Role.OfText (text : String) (role : Role) : Prop :=
  ∃ kinds, Token.Lexes text.toList kinds ∧ ofShape (kinds.map Token.Kind.text?) = role

theorem Role.OfText.unique {text : String} {role role' : Role} (h : Role.OfText text role)
    (h' : Role.OfText text role') : role = role' := by
  obtain ⟨kinds, hlexes, rfl⟩ := h
  obtain ⟨kinds', hlexes', rfl⟩ := h'
  rw [hlexes.unique hlexes']

theorem shape_of_ofLine {line : Line} {tokens : List Token} (h : Token.ofLine line = .ok tokens)
    {kinds : List Token.Kind} (hkinds : tokens.map (·.kind) = kinds ++ [.endOfLine]) :
    shape tokens = kinds.map Token.Kind.text? := by
  obtain ⟨body, span, rfl, hbody⟩ := Token.ended_of_ofLine h
  obtain ⟨rfl, -⟩ : body.map (·.kind) = kinds ∧ _ := by
    simpa only [List.map_append] using List.append_inj' (List.map_append ▸ hkinds) rfl
  have hword : Token.word? = Token.Kind.text? ∘ (·.kind) := by
    funext ⟨kind, span⟩
    cases kind <;> rfl
  have hfilter : (body ++ [(⟨.endOfLine, span⟩ : Token)]).filter
      (fun token => token.kind ≠ .endOfLine) = body := by
    simpa using hbody
  rw [shape, hfilter, hword, List.map_map]

theorem role_iff {line : Line} {role : Role} :
    (∃ tokens, Token.ofLine line = .ok tokens ∧ Role.ofShape (shape tokens) = role) ↔
      Role.OfText line.content role := by
  constructor
  · rintro ⟨tokens, htokens, rfl⟩
    obtain ⟨kinds, hkinds, hlexes⟩ := Token.lexes_of_scan htokens
    exact ⟨kinds, hlexes, by rw [shape_of_ofLine htokens hkinds]⟩
  · rintro ⟨kinds, hlexes, rfl⟩
    obtain ⟨tokens, htokens, hkinds⟩ := Token.read_iff.2 hlexes
    exact ⟨tokens, htokens, by rw [shape_of_ofLine htokens hkinds]⟩

/-! ## Steps -/

/-- What becomes of a text when some names are known: the text in its place, and the names that
are known behind it. -/
inductive Step (known : List Spelling) (text : String) : String → List Spelling → Prop
  | ignored : Source.isIgnored text = true → Step known text text known
  | named {name : String} {spelling : Spelling} : Source.isIgnored text = false →
      Role.OfText text (.returnsNamed name) →
      known.find? (fun spelling => spelling.name = name) = some spelling →
      Step known text spelling.returnLine known
  | declares {spelling : Spelling} : Source.isIgnored text = false →
      Role.OfText text (.declares spelling) → Step known text text (spelling :: known)
  | other : Source.isIgnored text = false → Role.OfText text .other → Step known text text known

/-- What becomes of texts, one after the other. -/
inductive Steps : List Spelling → List String → List String → List Spelling → Prop
  | nil {known : List Spelling} : Steps known [] [] known
  | cons {known next last : List Spelling} {text out : String} {texts outs : List String} :
      Step known text out next → Steps next texts outs last →
      Steps known (text :: texts) (out :: outs) last

theorem upgradeLines_cons_eq_ok {known : List Spelling} {line : Line} {rest : List Line}
    {outs : List String} : upgradeLines known (line :: rest) = .ok outs ↔
      ∃ out next more, Step known line.content out next ∧
        upgradeLines next rest = .ok more ∧ outs = out :: more := by
  rw [upgradeLines, ← Source.isIgnored_content]
  constructor
  · intro h
    split at h
    · next hskip =>
      obtain ⟨more, hmore, rfl⟩ := Compiled.map_eq_ok.1 h
      exact ⟨_, _, more, .ignored hskip, hmore, rfl⟩
    · next hread =>
      have hread : Source.isIgnored line.content = false := by simpa using hread
      obtain ⟨tokens, htokens, h⟩ := Compiled.bind_eq_ok.1 h
      have hrole := role_iff.1 ⟨tokens, htokens, rfl⟩
      split at h
      · next name hname =>
        rw [hname] at hrole
        split at h
        · cases h
        · next spelling hfind =>
          obtain ⟨more, hmore, h⟩ := Compiled.bind_eq_ok.1 h
          cases h
          exact ⟨_, _, more, .named hread hrole hfind, hmore, rfl⟩
      · next spelling hspelling =>
        rw [hspelling] at hrole
        obtain ⟨more, hmore, h⟩ := Compiled.bind_eq_ok.1 h
        cases h
        exact ⟨_, _, more, .declares hread hrole, hmore, rfl⟩
      · next hother =>
        rw [hother] at hrole
        obtain ⟨more, hmore, h⟩ := Compiled.bind_eq_ok.1 h
        cases h
        exact ⟨_, _, more, .other hread hrole, hmore, rfl⟩
  · rintro ⟨out, next, more, hstep, hmore, rfl⟩
    cases hstep with
    | ignored hskip => rw [if_pos hskip, hmore]; rfl
    | named hread hrole hfind =>
      obtain ⟨tokens, htokens, hrole⟩ := role_iff.2 hrole
      rw [if_neg (by simp [hread]), htokens, Compiled.ok_bind, hrole]
      simp only [hfind, hmore]
      rfl
    | declares hread hrole | other hread hrole =>
      obtain ⟨tokens, htokens, hrole⟩ := role_iff.2 hrole
      rw [if_neg (by simp [hread]), htokens, Compiled.ok_bind, hrole]
      simp only [hmore]
      rfl

theorem upgradeLines_eq_ok {known : List Spelling} {lines : List Line} {outs : List String} :
    upgradeLines known lines = .ok outs ↔
      ∃ last, Steps known (lines.map (·.content)) outs last := by
  induction lines generalizing known outs with
  | nil =>
    constructor
    · intro h
      cases h
      exact ⟨known, .nil⟩
    · rintro ⟨last, h⟩
      cases h
      rfl
  | cons line rest ih =>
    rw [upgradeLines_cons_eq_ok]
    constructor
    · rintro ⟨out, next, more, hstep, hmore, rfl⟩
      obtain ⟨last, hrest⟩ := ih.1 hmore
      exact ⟨last, .cons hstep hrest⟩
    · rintro ⟨last, h⟩
      cases h with
      | cons hstep hrest => exact ⟨_, _, _, hstep, ih.2 ⟨last, hrest⟩, rfl⟩

/-- **Upgrading** takes the texts of a source step by step. -/
theorem upgrade_eq_ok {source upgraded : String} : upgrade source = .ok upgraded ↔
    ∃ outs last, Steps [] (Source.texts source) outs last ∧ upgraded = "\n".intercalate outs := by
  rw [upgrade, Compiled.bind_eq_ok]
  constructor
  · rintro ⟨outs, houts, h⟩
    cases h
    obtain ⟨last, hsteps⟩ := upgradeLines_eq_ok.1 houts
    exact ⟨outs, last, hsteps, rfl⟩
  · rintro ⟨outs, last, hsteps, rfl⟩
    exact ⟨outs, upgradeLines_eq_ok.2 ⟨last, hsteps⟩, rfl⟩

theorem Steps.append {known mid last : List Spelling} {texts texts' outs outs' : List String}
    (h : Steps known texts outs mid) (h' : Steps mid texts' outs' last) :
    Steps known (texts ++ texts') (outs ++ outs') last := by
  induction h with
  | nil => exact h'
  | cons hstep _ ih => exact .cons hstep (ih h')

theorem Steps.of_append {known last : List Spelling} {texts texts' outs : List String}
    (h : Steps known (texts ++ texts') outs last) :
    ∃ before after mid, outs = before ++ after ∧ Steps known texts before mid ∧
      Steps mid texts' after last := by
  induction texts generalizing known outs with
  | nil => exact ⟨[], outs, known, rfl, .nil, h⟩
  | cons text texts ih =>
    cases h with | @cons _ next _ _ out _ outs hstep hrest => ?_
    obtain ⟨before, after, mid, rfl, hbefore, hafter⟩ := ih hrest
    exact ⟨out :: before, after, mid, rfl, .cons hstep hbefore, hafter⟩

theorem Steps.declared {known last : List Spelling} {texts outs : List String}
    (h : Steps known texts outs last) {spelling : Spelling} (hmem : spelling ∈ last) :
    spelling ∈ known ∨ ∃ text ∈ texts, text ∈ outs ∧ Source.isIgnored text = false ∧
      Role.OfText text (.declares spelling) := by
  induction h with
  | nil => exact .inl hmem
  | @cons known next _ text out texts outs hstep _ ih =>
    rcases ih hmem with hnext | ⟨kept, hkept, hout, hdeclares⟩
    · cases hstep with
      | ignored | named | other => exact .inl hnext
      | declares hread hrole =>
        rcases List.mem_cons.1 hnext with rfl | hknown
        · exact .inr ⟨text, List.mem_cons_self, List.mem_cons_self, hread, hrole⟩
        · exact .inl hknown
    · exact .inr ⟨kept, List.mem_cons_of_mem _ hkept, List.mem_cons_of_mem _ hout, hdeclares⟩

theorem Step.subset {known next : List Spelling} {text out : String}
    (h : Step known text out next) : known ⊆ next := by
  cases h with
  | ignored | named | other => exact List.Subset.refl _
  | declares => exact List.subset_cons_self _ _

theorem Steps.subset {known last : List Spelling} {texts outs : List String}
    (h : Steps known texts outs last) : known ⊆ last := by
  induction h with
  | nil => exact List.Subset.refl _
  | cons hstep _ ih => exact List.Subset.trans hstep.subset ih

/-- What a text declares is known behind the texts. -/
theorem Steps.known_of_mem {known last : List Spelling} {texts outs : List String}
    (h : Steps known texts outs last) {text : String} (hmem : text ∈ texts) {spelling : Spelling}
    (hread : Source.isIgnored text = false) (hrole : Role.OfText text (.declares spelling)) :
    spelling ∈ last := by
  induction h with
  | nil => cases hmem
  | cons hstep hrest ih =>
    rcases List.mem_cons.1 hmem with rfl | hmem
    · apply hrest.subset
      cases hstep with
      | ignored hskip => simp [hread] at hskip
      | named _ hrole' | other _ hrole' => cases hrole.unique hrole'
      | declares _ hrole' =>
        cases hrole.unique hrole'
        exact List.mem_cons_self
    · exact ih hmem

/-! ## Spellings -/

/-- The words of a spelling are words of the notation. -/
structure Spelling.Legible (spelling : Spelling) : Prop where
  name : Token.IsWord spelling.name.toList
  type : Token.IsWord spelling.type.toList
  element : ∀ element ∈ spelling.element, Token.IsWord element.toList

theorem Role.ofShape_eq_declares {shape : List (Option String)} {spelling : Spelling}
    (h : ofShape shape = .declares spelling) :
    some spelling.name ∈ shape ∧ some spelling.type ∈ shape ∧
      ∀ element ∈ spelling.element, some element ∈ shape := by
  unfold ofShape at h
  split at h
  · split at h
    · cases h
    · cases h
      simp
  · split at h
    · cases h
      simp
    · cases h
  · cases h

theorem Role.OfText.legible {text : String} {spelling : Spelling}
    (h : Role.OfText text (.declares spelling)) : spelling.Legible := by
  obtain ⟨kinds, hlexes, hrole⟩ := h
  have hword : ∀ word, some word ∈ kinds.map Token.Kind.text? → Token.IsWord word.toList := by
    intro word hmem
    obtain ⟨kind, hkind, htext⟩ := List.mem_map.1 hmem
    cases kind with
    | word text =>
      cases htext
      exact hlexes.isWord hkind
    | arrow | endOfLine => cases htext
  obtain ⟨hname, htype, helement⟩ := Role.ofShape_eq_declares hrole
  exact ⟨hword _ hname, hword _ htype, fun element hmem => hword _ (helement element hmem)⟩

/-- The words of the line that a spelling gives. -/
def Spelling.kinds (spelling : Spelling) : List Token.Kind :=
  match spelling.element with
  | some element => [.word spelling.type, .arrow, .word element, .word "return"]
  | none => [.word spelling.type, .arrow, .word "return"]

theorem isWord_return : Token.IsWord "return".toList :=
  ⟨by decide, by decide⟩

theorem lexes_arrow {rest : List Char} {kinds : List Token.Kind} (h : Token.Lexes rest kinds) :
    Token.Lexes ('-' :: '>' :: ' ' :: rest) (.arrow :: kinds) :=
  .arrow (.gap (by decide) h)

theorem Spelling.lexes_returnLine {spelling : Spelling} (h : spelling.Legible) :
    Token.Lexes spelling.returnLine.toList spelling.kinds := by
  obtain ⟨name, type, element⟩ := spelling
  have hreturn := Token.Lexes.of_word isWord_return
  cases element with
  | none =>
    have hline := Token.Lexes.word_gap h.type (g := ' ') (by decide) (lexes_arrow hreturn)
    simpa [returnLine, kinds, Declaration.returnWord] using hline
  | some element =>
    have helement := Token.Lexes.word_gap (h.element element rfl) (g := ' ') (by decide) hreturn
    have hline := Token.Lexes.word_gap h.type (g := ' ') (by decide) (lexes_arrow helement)
    simpa [returnLine, kinds, Declaration.returnWord] using hline

theorem Spelling.oneLine_returnLine {spelling : Spelling} (h : spelling.Legible) :
    Text.OneLine spelling.returnLine := by
  have harrow : Text.OneLine " -> " := by decide
  have hblank : Text.OneLine " " := by decide
  have hreturn : Text.OneLine Declaration.returnWord := by decide
  have htype := h.type.oneLine
  unfold returnLine
  split
  · next element helement =>
    have helement := (h.element element helement).oneLine
    simp only [Text.oneLine_append]
    exact ⟨⟨⟨⟨htype, harrow⟩, helement⟩, hblank⟩, hreturn⟩
  · simp only [Text.oneLine_append]
    exact ⟨⟨htype, harrow⟩, hreturn⟩

theorem Steps.oneLine {known last : List Spelling} {texts outs : List String}
    (h : Steps known texts outs last) (htexts : ∀ text ∈ texts, Text.OneLine text)
    (hknown : ∀ spelling ∈ known, spelling.Legible) : ∀ out ∈ outs, Text.OneLine out := by
  induction h with
  | nil => simp
  | @cons known next _ text out _ _ hstep _ ih =>
    obtain ⟨htext, htexts⟩ := List.forall_mem_cons.1 htexts
    have hout : Text.OneLine out ∧ ∀ spelling ∈ next, spelling.Legible := by
      cases hstep with
      | ignored | other => exact ⟨htext, hknown⟩
      | named _ _ hfind =>
        exact ⟨Spelling.oneLine_returnLine (hknown _ (List.mem_of_find?_eq_some hfind)), hknown⟩
      | declares _ hrole => exact ⟨htext, List.forall_mem_cons.2 ⟨hrole.legible, hknown⟩⟩
    exact List.forall_mem_cons.2 ⟨hout.1, ih htexts hout.2⟩

/-! ## What spellings mean -/

/-- The words of a spelling name a type. -/
inductive Spelling.Means : Spelling → DataType → Prop
  | scalar {name word : String} {s : Scalar} : Kind.NamedBy word (.scalar s) →
      Means ⟨name, word, none⟩ (.scalar s)
  | composite {name word element : String} {c : Container} {s : Scalar} :
      Kind.NamedBy word (.container c) → Kind.NamedBy element (.scalar s) →
      Means ⟨name, word, some element⟩ (.composite c s)

theorem Spelling.Means.unique {spelling : Spelling} {type type' : DataType}
    (h : spelling.Means type) (h' : spelling.Means type') : type = type' := by
  cases h with
  | scalar hword =>
    cases h' with
    | scalar hword' =>
      cases hword.unique hword'
      rfl
  | composite hword helement =>
    cases h' with
    | composite hword' helement' =>
      cases hword.unique hword'
      cases helement.unique helement'
      rfl

theorem ne_returnWord_of_namedBy {word : String} {kind : Kind} (h : Kind.NamedBy word kind) :
    word ≠ Declaration.returnWord := by
  rintro rfl
  have hnone : Kind.ofWord? Declaration.returnWord = none := by decide
  rw [Kind.ofWord?_eq_some.2 h] at hnone
  cases hnone

/-- A clause is spelled as a declaration of its name and its type. -/
theorem role_of_spelled {clause : Clause} {kinds : List Token.Kind} (h : clause.Spelled kinds) :
    ∃ spelling, Role.ofShape (kinds.map Token.Kind.text?) = .declares spelling ∧
      spelling.name = clause.name ∧ spelling.Means clause.type := by
  cases h with
  | scalar hword | scalarResult hword =>
    exact ⟨_, if_neg (ne_returnWord_of_namedBy hword), rfl, .scalar hword⟩
  | composite hword helement | sized hword helement | compositeResult hword helement =>
    refine ⟨⟨_, _, some _⟩, ?_, rfl, .composite hword helement⟩
    simp [Token.Kind.text?, Role.ofShape, Kind.ofWord?_eq_some.2 hword]

theorem role_of_reads {clause : Clause} {text : String} (h : Clause.Reads text clause) :
    ∃ spelling, Role.OfText text (.declares spelling) ∧ spelling.name = clause.name ∧
      spelling.Means clause.type := by
  obtain ⟨kinds, hlexes, hspelled⟩ := h
  obtain ⟨spelling, hrole, hmeans⟩ := role_of_spelled hspelled
  exact ⟨spelling, ⟨kinds, hlexes, hrole⟩, hmeans⟩

/-- **The line in place of a named result** declares the result with the type that is meant. -/
theorem Spelling.reads_returnLine {spelling : Spelling} {type : DataType}
    (h : spelling.Legible) (hmeans : spelling.Means type) :
    Clause.Reads spelling.returnLine (.result type) := by
  refine ⟨spelling.kinds, lexes_returnLine h, ?_⟩
  cases hmeans with
  | scalar hword => exact .scalarResult hword
  | composite hword helement => exact .compositeResult hword helement

end Dialect

theorem Clause.Reads.unique {text : String} {clause clause' : Clause}
    (h : Clause.Reads text clause) (h' : Clause.Reads text clause') :
    clause.name = clause'.name ∧ clause.type = clause'.type := by
  obtain ⟨spelling, hrole, hname, hmeans⟩ := Dialect.role_of_reads h
  obtain ⟨spelling', hrole', hname', hmeans'⟩ := Dialect.role_of_reads h'
  cases hrole.unique hrole'
  exact ⟨hname.symm.trans hname', hmeans.unique hmeans'⟩

namespace Dialect

/-! ## Current texts -/

/-- A text that upgrading keeps, whatever is known. -/
def Current (text : String) : Prop :=
  Source.isIgnored text = true ∨
    ∃ role, Role.OfText text role ∧ ∀ name, role ≠ .returnsNamed name

theorem Current.step {text : String} (h : Current text) (known : List Spelling) :
    ∃ next, Step known text text next := by
  cases hskip : Source.isIgnored text with
  | true => exact ⟨known, .ignored hskip⟩
  | false =>
    obtain ⟨role, hrole, hunnamed⟩ := h.resolve_left (by simp [hskip])
    cases role with
    | returnsNamed name => exact absurd rfl (hunnamed name)
    | declares spelling => exact ⟨_, .declares hskip hrole⟩
    | other => exact ⟨_, .other hskip hrole⟩

theorem Steps.of_current {texts : List String} (h : ∀ text ∈ texts, Current text)
    (known : List Spelling) : ∃ last, Steps known texts texts last := by
  induction texts generalizing known with
  | nil => exact ⟨known, .nil⟩
  | cons text texts ih =>
    obtain ⟨htext, htexts⟩ := List.forall_mem_cons.1 h
    obtain ⟨next, hstep⟩ := htext.step known
    obtain ⟨last, hsteps⟩ := ih htexts next
    exact ⟨last, .cons hstep hsteps⟩

theorem Role.OfText.type_ne_return {text : String} {spelling : Spelling}
    (h : Role.OfText text (.declares spelling)) : spelling.type ≠ Declaration.returnWord := by
  obtain ⟨kinds, -, hshape⟩ := h
  unfold ofShape at hshape
  split at hshape
  · split at hshape
    · cases hshape
    · next hne =>
      cases hshape
      exact hne
  · split at hshape
    · next hword =>
      cases hshape
      exact ne_returnWord_of_namedBy (Kind.ofWord?_eq_some.1 hword)
    · cases hshape
  · cases hshape

/-- **The line in place of a named result** names no result itself. -/
theorem Spelling.current_returnLine {text : String} {spelling : Spelling}
    (h : Role.OfText text (.declares spelling)) : Current spelling.returnLine := by
  refine .inr ⟨_, ⟨_, lexes_returnLine h.legible, rfl⟩, fun name hname => ?_⟩
  have htype := h.type_ne_return
  obtain ⟨declared, type, element⟩ := spelling
  cases element with
  | none => simp [kinds, Token.Kind.text?, Role.ofShape, htype] at hname
  | some element =>
    simp only [kinds, Token.Kind.text?, Role.ofShape, List.map_cons, List.map_nil] at hname
    split at hname <;> cases hname

/-- A step gives a current text, if what is known was declared by texts. -/
theorem Step.current {known next : List Spelling} {text out : String} (h : Step known text out next)
    (hknown : ∀ spelling ∈ known, ∃ text, Role.OfText text (.declares spelling)) :
    Current out ∧ ∀ spelling ∈ next, ∃ text, Role.OfText text (.declares spelling) := by
  cases h with
  | ignored hskip => exact ⟨.inl hskip, hknown⟩
  | named _ _ hfind =>
    obtain ⟨_, hrole⟩ := hknown _ (List.mem_of_find?_eq_some hfind)
    exact ⟨Spelling.current_returnLine hrole, hknown⟩
  | declares _ hrole =>
    exact ⟨.inr ⟨_, hrole, by simp⟩, List.forall_mem_cons.2 ⟨⟨_, hrole⟩, hknown⟩⟩
  | other _ hrole => exact ⟨.inr ⟨_, hrole, by simp⟩, hknown⟩

/-- **What upgrading gives is current.** -/
theorem Steps.current {known last : List Spelling} {texts outs : List String}
    (h : Steps known texts outs last)
    (hknown : ∀ spelling ∈ known, ∃ text, Role.OfText text (.declares spelling)) :
    ∀ out ∈ outs, Current out := by
  induction h with
  | nil => simp
  | cons hstep _ ih =>
    obtain ⟨hout, hnext⟩ := hstep.current hknown
    exact List.forall_mem_cons.2 ⟨hout, ih hnext⟩

/-! ## Texts of a signature -/

/-- A declaration that the texts of a signature hold means the type that the signature gives
its name. -/
theorem means_of_role {texts : List String} {clauses : List Clause} {text : String}
    {spelling : Spelling} (hreads : Clause.ReadsAll texts clauses) (hmem : text ∈ texts)
    (hkept : Source.isIgnored text = false) (hrole : Role.OfText text (.declares spelling)) :
    ∃ clause ∈ clauses, spelling.name = clause.name ∧ spelling.Means clause.type := by
  obtain ⟨clause, hclause, hread⟩ := hreads.exists_clause hmem hkept
  obtain ⟨spelling', hrole', hname, hmeans⟩ := role_of_reads hread
  cases hrole.unique hrole'
  exact ⟨clause, hclause, hname, hmeans⟩

theorem current_of_readsAll {texts : List String} {clauses : List Clause}
    (h : Clause.ReadsAll texts clauses) : ∀ text ∈ texts, Current text := by
  intro text hmem
  cases hskip : Source.isIgnored text with
  | true => exact .inl hskip
  | false =>
    obtain ⟨clause, -, hread⟩ := h.exists_clause hmem hskip
    obtain ⟨spelling, hrole, -⟩ := role_of_reads hread
    exact .inr ⟨_, hrole, by simp⟩

theorem Steps.of_readsAll {texts : List String} {clauses : List Clause}
    (h : Clause.ReadsAll texts clauses) (known : List Spelling) :
    ∃ last, Steps known texts texts last :=
  of_current (current_of_readsAll h) known

/-- **A signature keeps its meaning** when its source is upgraded. -/
theorem upgrade_of_ofSource {source : String} {signature : Signature}
    (h : Signature.ofSource source = .ok signature) :
    ∃ upgraded, upgrade source = .ok upgraded ∧ Signature.ofSource upgraded = .ok signature := by
  have htexts := Signature.ofSource_iff_ofTexts.1 h
  obtain ⟨clauses, hreads, -⟩ := id htexts
  obtain ⟨last, hsteps⟩ := Steps.of_readsAll hreads []
  refine ⟨_, upgrade_eq_ok.2 ⟨_, last, hsteps, rfl⟩, ?_⟩
  exact (Signature.ofSource_intercalate (Source.texts_ne_nil source)
    (Source.oneLine_texts source)).2 htexts

/-! ## A named result in place of the result -/

theorem isIgnored_of_return {text : String} {kinds : List Token.Kind}
    (h : Token.Lexes text.toList (.word "return" :: kinds)) : Source.isIgnored text = false :=
  h.isIgnored_eq_false (c := 'r') rfl (by decide) (by decide)

/-- The text of a named result, with or without a carriage return. -/
theorem role_of_named {name : String} (h : Token.IsWord name.toList) {ending : String}
    (hending : ending ∈ ["", "\r"]) :
    Source.isIgnored ("return -> " ++ name ++ ending) = false ∧
      Role.OfText ("return -> " ++ name ++ ending) (.returnsNamed name) := by
  have hname := Token.Lexes.of_word h
  have hline := Token.Lexes.word_gap isWord_return (g := ' ') (by decide) (lexes_arrow hname)
  have hlexes : Token.Lexes ("return -> " ++ name ++ ending).toList
      [.word "return", .arrow, .word name] := by
    rcases List.mem_pair.1 hending with rfl | rfl
    · simpa using hline
    · simpa using hline.append_gap (g := '\r') (by decide)
  exact ⟨isIgnored_of_return hlexes, _, hlexes, rfl⟩

theorem oneLine_of_named {name : String} (h : Token.IsWord name.toList) {ending : String}
    (hending : ending ∈ ["", "\r"]) : Text.OneLine ("return -> " ++ name ++ ending) := by
  have hreturn : Text.OneLine "return -> " := by decide
  have hname := h.oneLine
  rcases List.mem_pair.1 hending with rfl | rfl <;>
    exact Text.oneLine_append.2 ⟨Text.oneLine_append.2 ⟨hreturn, hname⟩, by decide⟩

theorem Role.ofText_withoutReturn {text : String} {role : Role} :
    Role.OfText (Source.withoutReturn text) role ↔ Role.OfText text role := by
  simp only [OfText, Token.lexes_withoutReturn]

/-- What is known of a declared name means the type that the signature gives it. -/
theorem Steps.find?_of_reads {texts before outs : List String} {clauses : List Clause}
    {signature : Signature} {known : List Spelling} (h : Steps [] before outs known)
    (hreads : Clause.ReadsAll texts clauses)
    (hcompletes : ({} : Draft).Completes clauses signature) (hbefore : before ⊆ texts)
    {text : String} (hmem : text ∈ before) {input : Parameter}
    (hinput : Clause.Reads text (.input input)) :
    ∃ spelling, known.find? (fun spelling => spelling.name = input.name) = some spelling ∧
      spelling.Legible ∧ spelling.Means input.type := by
  obtain ⟨declared, hdeclared, hname, -⟩ := role_of_reads hinput
  have hknown := h.known_of_mem hmem hinput.isIgnored_eq_false hdeclared
  obtain ⟨spelling, hfind⟩ := Option.isSome_iff_exists.1
    (List.find?_isSome (p := fun spelling : Spelling => spelling.name = input.name).2
      ⟨declared, hknown, by simpa using hname⟩)
  have hspelling : spelling.name = input.name := by simpa using List.find?_some hfind
  -- The latest declaration of the name need not be on this line, but it is of the same type.
  rcases h.declared (List.mem_of_find?_eq_some hfind) with hnil | ⟨latest, hlatest, -, hkept, hrole⟩
  · cases hnil
  obtain ⟨clause, hclause, hclauseName, hmeans⟩ :=
    means_of_role hreads (hbefore hlatest) hkept hrole
  obtain ⟨clause', hclause', hread'⟩ :=
    hreads.exists_clause (hbefore hmem) hinput.isIgnored_eq_false
  obtain ⟨hname', htype'⟩ := hread'.unique hinput
  have htype : clause.type = input.type :=
    (hcompletes.type_eq hclause hclause'
      (hclauseName.symm.trans (hspelling.trans hname'.symm))).trans htype'
  exact ⟨spelling, hfind, hrole.legible, htype ▸ hmeans⟩

/-- A line that declares the result may be written in another way. -/
theorem ofTexts_replace {before after : List String} {text text' : String}
    {signature : Signature} (h : Signature.OfTexts (before ++ text :: after) signature)
    (htext : Clause.Reads text (.result signature.returns))
    (htext' : Clause.Reads text' (.result signature.returns)) :
    Signature.OfTexts (before ++ text' :: after) signature := by
  obtain ⟨clauses, hreads, hcompletes⟩ := h
  obtain ⟨first, rest, rfl, hfirst, hrest⟩ := hreads.of_append
  obtain ⟨clause, last, rfl, hread, hlast⟩ := hrest.of_cons htext.isIgnored_eq_false
  cases hcompletes.eq_result (by simp) (hread.unique htext).1
  exact ⟨_, hfirst.append (hlast.cons htext'), hcompletes⟩

/-- **A named result means the result.** -/
theorem upgrade_of_named {source named : String} {before after : List String}
    {result : String} {signature : Signature}
    (h : Signature.OfTexts (before ++ result :: after) signature)
    (hresult : Clause.Reads result (.result signature.returns))
    {declared : String} (hmem : declared ∈ before) {input : Parameter}
    (hdeclared : Clause.Reads declared (.input input)) (htype : input.type = signature.returns)
    (htexts : Source.texts source = before ++ named :: after)
    (hkept : Source.isIgnored named = false)
    (hrole : Role.OfText named (.returnsNamed input.name)) :
    ∃ upgraded, upgrade source = .ok upgraded ∧ Signature.ofSource upgraded = .ok signature := by
  obtain ⟨clauses, hreads, hcompletes⟩ := id h
  obtain ⟨_, _, -, hfirst, hrest⟩ := hreads.of_append
  obtain ⟨_, _, -, -, hlast⟩ := hrest.of_cons hresult.isIgnored_eq_false
  obtain ⟨known, hbefore⟩ := Steps.of_readsAll hfirst []
  obtain ⟨last, hafter⟩ := Steps.of_readsAll hlast known
  obtain ⟨spelling, hfind, hlegible, hmeans⟩ :=
    hbefore.find?_of_reads hreads hcompletes (List.subset_append_left _ _) hmem hdeclared
  have hsteps : Steps [] (Source.texts source) (before ++ spelling.returnLine :: after) last :=
    htexts ▸ hbefore.append (.cons (.named hkept hrole hfind) hafter)
  refine ⟨_, upgrade_eq_ok.2 ⟨_, last, hsteps, rfl⟩, ?_⟩
  have hlines := hsteps.oneLine (Source.oneLine_texts source) (by simp)
  rw [Signature.ofSource_intercalate (by simp) hlines]
  exact ofTexts_replace h hresult (spelling.reads_returnLine hlegible (htype ▸ hmeans))

/-! ## Named results -/

/-- **A named result that is read in the end names an input** of the type of the result. -/
theorem input_of_named {source upgraded named name : String} {signature : Signature}
    (hmem : named ∈ Source.texts source) (hkept : Source.isIgnored named = false)
    (hrole : Role.OfText named (.returnsNamed name)) (hupgrade : upgrade source = .ok upgraded)
    (h : Signature.ofSource upgraded = .ok signature) :
    ∃ input ∈ signature.inputs, input.name = name ∧ input.type = signature.returns := by
  obtain ⟨outs, last, hsteps, rfl⟩ := upgrade_eq_ok.1 hupgrade
  have hlines := hsteps.oneLine (Source.oneLine_texts source) (by simp)
  obtain ⟨texts, texts', htexts⟩ := List.append_of_mem hmem
  rw [htexts] at hsteps
  obtain ⟨before, after, known, rfl, hbefore, hafter⟩ := hsteps.of_append
  cases hafter with | @cons _ _ _ _ out _ rest hstep hrest => ?_
  -- the clauses of the upgraded texts are split where the texts are
  rw [Signature.ofSource_intercalate (by simp) hlines] at h
  obtain ⟨clauses, hreads, hcompletes⟩ := h
  obtain ⟨first, more, rfl, hfirst, hmore⟩ := hreads.of_append
  cases hstep with
  | ignored hskip => simp [hkept] at hskip
  | declares _ hrole' | other _ hrole' => cases hrole.unique hrole'
  | @named _ spelling _ hrole' hfind =>
    cases hrole.unique hrole'
    rcases hbefore.declared (List.mem_of_find?_eq_some hfind) with
      hnil | ⟨declared, -, hdeclared, hread, hspelling⟩
    · cases hnil
    obtain ⟨clause, hclause, hname, hmeans⟩ := means_of_role hfirst hdeclared hread hspelling
    have hline := Spelling.reads_returnLine hspelling.legible hmeans
    obtain ⟨written, _, rfl, hwritten, -⟩ := hmore.of_cons hline.isIgnored_eq_false
    obtain ⟨hwrittenName, htype⟩ := hwritten.unique hline
    -- the line written for it declares the result, and only one line does
    cases hcompletes.eq_result (by simp) hwrittenName
    obtain ⟨input, hinput, rfl⟩ := hcompletes.exists_input hclause
    have hfound : spelling.name = name := by simpa using List.find?_some hfind
    exact ⟨input, hinput, hname.symm.trans hfound, htype.symm⟩

/-! ## All sources -/

/-- **Upgrading preserves meaning.** A source that describes a signature describes it when it is
upgraded, and also when its result is named after an earlier input of the type of the result.
Conversely, a named result stands for the type of an input with that name, whenever what it is
upgraded to describes a signature. -/
theorem upgrade_preserves_meaning (source : String) :
    (∀ signature, Signature.ofSource source = .ok signature →
      (∃ upgraded, upgrade source = .ok upgraded ∧
        Signature.ofSource upgraded = .ok signature) ∧
      ∀ input ∈ signature.inputs, input.type = signature.returns →
        ∀ declared ∈ Source.lines source, ∀ result ∈ Source.lines source,
          declared.Says (.input input) → result.Says (.result signature.returns) →
          declared.number < result.number → ∀ ending ∈ ["", "\r"],
          ∃ upgraded,
            upgrade (Source.replaceLine source result.number
              ("return -> " ++ input.name ++ ending)) = .ok upgraded ∧
            Signature.ofSource upgraded = .ok signature) ∧
    ∀ line ∈ Source.lines source, ∀ tokens name, Token.ofLine line = .ok tokens →
      tokens.map (·.kind) = [.word "return", .arrow, .word name, .endOfLine] →
      ∀ upgraded signature, upgrade source = .ok upgraded →
        Signature.ofSource upgraded = .ok signature →
        ∃ input ∈ signature.inputs, input.name = name ∧ input.type = signature.returns := by
  refine ⟨fun signature h => ⟨upgrade_of_ofSource h, ?_⟩, ?_⟩
  · intro input _ htype declared hdeclared result hresult hsays hresultSays hlt ending hending
    have hinput := Line.says_iff.1 hsays
    obtain ⟨spelling, hspelling, hname, -⟩ := role_of_reads hinput
    have hname : spelling.name = input.name := hname
    have hword : Token.IsWord input.name.toList := hname ▸ hspelling.legible.name
    obtain ⟨hkept, hrole⟩ := role_of_named hword hending
    have hline := oneLine_of_named hword hending
    have htexts := Signature.ofSource_iff_ofTexts.1 h
    rw [Source.texts_split hresult] at htexts
    exact upgrade_of_named htexts (Line.says_iff.1 hresultSays)
      (Source.mem_take_texts hdeclared hlt) hinput htype
      (Source.texts_replaceLine_split hresult hline)
      (by rw [Source.isIgnored_withoutReturn, hkept]) (Role.ofText_withoutReturn.2 hrole)
  · intro line hline tokens name htokens hkinds upgraded signature hupgrade h
    have hlexes : Token.Lexes line.content.toList [.word "return", .arrow, .word name] :=
      Token.read_iff.1 ⟨tokens, htokens, hkinds⟩
    exact input_of_named (List.mem_map_of_mem hline) (isIgnored_of_return hlexes)
      ⟨_, hlexes, rfl⟩ hupgrade h

/-- An array is named as the result. -/
theorem upgrade_preserves_meaning_array :
    Signature.ofSource "array -> integer xs 3\narray -> integer return" =
      .ok ⟨[⟨"xs", .composite .array .integer, some 3⟩], .composite .array .integer⟩ ∧
    (∃ upgraded, upgrade "array -> integer xs 3\nreturn -> xs" = .ok upgraded ∧
      Signature.ofSource upgraded =
        .ok ⟨[⟨"xs", .composite .array .integer, some 3⟩], .composite .array .integer⟩) ∧
    ∃ input ∈ [(⟨"xs", .composite .array .integer, some 3⟩ : Parameter)],
      input.name = "xs" ∧ input.type = .composite .array .integer := by
  have harray : Kind.NamedBy "array" (.container .array) := Kind.ofWord?_eq_some.1 (by decide)
  have hinteger : Kind.NamedBy "integer" (.scalar .integer) := Kind.ofWord?_eq_some.1 (by decide)
  have hsize : Text.Word64 "3" 3 := Text.word64?_eq_some.1 (by decide)
  have hread : Signature.ofSource "array -> integer xs 3\narray -> integer return" =
      .ok ⟨[⟨"xs", .composite .array .integer, some 3⟩], .composite .array .integer⟩ := by
    decide +kernel
  have hnamed := ((upgrade_preserves_meaning
    "array -> integer xs 3\narray -> integer return").1 _ hread).2
    ⟨"xs", .composite .array .integer, some 3⟩ (by simp) rfl
    ⟨1, "array -> integer xs 3", ⟨0, 21⟩⟩ (by decide +kernel)
    ⟨2, "array -> integer return", ⟨22, 45⟩⟩ (by decide +kernel)
    ⟨[⟨.word "array", ⟨0, 5⟩⟩, ⟨.arrow, ⟨6, 8⟩⟩, ⟨.word "integer", ⟨9, 16⟩⟩,
      ⟨.word "xs", ⟨17, 19⟩⟩, ⟨.word "3", ⟨20, 21⟩⟩, ⟨.endOfLine, ⟨21, 21⟩⟩], _,
      by decide +kernel, rfl, .sized harray hinteger hsize⟩
    ⟨[⟨.word "array", ⟨22, 27⟩⟩, ⟨.arrow, ⟨28, 30⟩⟩, ⟨.word "integer", ⟨31, 38⟩⟩,
      ⟨.word "return", ⟨39, 45⟩⟩, ⟨.endOfLine, ⟨45, 45⟩⟩], _,
      by decide +kernel, rfl, .compositeResult harray hinteger⟩
    (by decide) "" (by decide)
  have hreplaced : Source.replaceLine "array -> integer xs 3\narray -> integer return" 2
      ("return -> " ++ "xs" ++ "") = "array -> integer xs 3\nreturn -> xs" := by
    decide +kernel
  rw [hreplaced] at hnamed
  obtain ⟨upgraded, hupgraded, hsignature⟩ := hnamed
  refine ⟨hread, ⟨upgraded, hupgraded, hsignature⟩, ?_⟩
  exact (upgrade_preserves_meaning "array -> integer xs 3\nreturn -> xs").2
    ⟨2, "return -> xs", ⟨22, 34⟩⟩ (by decide +kernel)
    [⟨.word "return", ⟨22, 28⟩⟩, ⟨.arrow, ⟨29, 31⟩⟩, ⟨.word "xs", ⟨32, 34⟩⟩,
      ⟨.endOfLine, ⟨34, 34⟩⟩] "xs" (by decide +kernel) rfl upgraded _ hupgraded hsignature

end Dialect

end StructuredCall
