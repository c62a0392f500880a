import StructuredCall.Proofs.Token
import StructuredCall.Proofs.Word
import StructuredCall.Signature.Declaration

/-!
# What a line says

A significant line has one of five forms. Here the forms are given by the tokens that spell
them, and reading a line is shown to find exactly these forms. The word for a size is not yet
read by `Declaration.ofLine`, so a declaration and a clause differ in it (`Declaration.Means`).
Where the line stands does not matter (`Line.says_iff`).
-/

namespace StructuredCall

/-- What one line says: a parameter, or the type of the result. -/
inductive Clause
  | input (parameter : Parameter)
  | result (type : DataType)

namespace Clause

/-- The words and arrows that spell a clause. -/
inductive Spelled : Clause → List Token.Kind → Prop
  | scalar {word name : String} {s : Scalar} : Kind.NamedBy word (.scalar s) →
      Spelled (.input ⟨name, .scalar s, none⟩) [.word word, .arrow, .word name]
  | scalarResult {word : String} {s : Scalar} : Kind.NamedBy word (.scalar s) →
      Spelled (.result (.scalar s)) [.word word, .arrow, .word "return"]
  | composite {word element name : String} {c : Container} {s : Scalar} :
      Kind.NamedBy word (.container c) → Kind.NamedBy element (.scalar s) →
      Spelled (.input ⟨name, .composite c s, none⟩)
        [.word word, .arrow, .word element, .word name]
  | sized {word element name size : String} {c : Container} {s : Scalar} {n : Nat} :
      Kind.NamedBy word (.container c) → Kind.NamedBy element (.scalar s) → Text.Word64 size n →
      Spelled (.input ⟨name, .composite c s, some n⟩)
        [.word word, .arrow, .word element, .word name, .word size]
  | compositeResult {word element : String} {c : Container} {s : Scalar} :
      Kind.NamedBy word (.container c) → Kind.NamedBy element (.scalar s) →
      Spelled (.result (.composite c s)) [.word word, .arrow, .word element, .word "return"]

def name : Clause → String
  | input parameter => parameter.name
  | result _ => "return"

def type : Clause → DataType
  | input parameter => parameter.type
  | result type => type

@[simp] theorem name_input (parameter : Parameter) : (input parameter).name = parameter.name := rfl

@[simp] theorem name_result (type : DataType) : (result type).name = "return" := rfl

@[simp] theorem type_input (parameter : Parameter) : (input parameter).type = parameter.type := rfl

@[simp] theorem type_result (type : DataType) : (result type).type = type := rfl

/-- The parameters that clauses declare, in order. -/
def inputs (clauses : List Clause) : List Parameter :=
  clauses.filterMap fun
    | input parameter => some parameter
    | result _ => none

/-- The types that clauses declare for the result, in order. -/
def results (clauses : List Clause) : List DataType :=
  clauses.filterMap fun
    | input _ => none
    | result type => some type

/-- A part that is taken out of clauses of one form is there when such a clause is. -/
theorem mem_filterMap_iff {α : Type} {part? : Clause → Option α} {make : α → Clause}
    (hpart : ∀ clause x, part? clause = some x ↔ clause = make x) {clauses : List Clause} {x : α} :
    x ∈ clauses.filterMap part? ↔ make x ∈ clauses := by
  simp only [List.mem_filterMap, hpart, exists_eq_right]

theorem mem_inputs {clauses : List Clause} {parameter : Parameter} :
    parameter ∈ inputs clauses ↔ .input parameter ∈ clauses :=
  mem_filterMap_iff fun clause x => by cases clause <;> simp

theorem mem_results {clauses : List Clause} {type : DataType} :
    type ∈ results clauses ↔ .result type ∈ clauses :=
  mem_filterMap_iff fun clause x => by cases clause <;> simp

@[simp] theorem inputs_nil : inputs [] = [] := rfl

@[simp] theorem inputs_input (parameter : Parameter) (clauses : List Clause) :
    inputs (.input parameter :: clauses) = parameter :: inputs clauses := rfl

@[simp] theorem inputs_result (type : DataType) (clauses : List Clause) :
    inputs (.result type :: clauses) = inputs clauses := rfl

@[simp] theorem results_nil : results [] = [] := rfl

@[simp] theorem results_input (parameter : Parameter) (clauses : List Clause) :
    results (.input parameter :: clauses) = results clauses := rfl

@[simp] theorem results_result (type : DataType) (clauses : List Clause) :
    results (.result type :: clauses) = type :: results clauses := rfl

theorem results_append (clauses clauses' : List Clause) :
    results (clauses ++ clauses') = results clauses ++ results clauses' :=
  List.filterMap_append

end Clause

/-- The tokens of a line before its end spell a clause. -/
def Line.Says (line : Line) (clause : Clause) : Prop :=
  ∃ tokens kinds, Token.ofLine line = .ok tokens ∧
    tokens.map (·.kind) = kinds ++ [.endOfLine] ∧ clause.Spelled kinds

/-- A text, wherever it stands as a line, says a clause. -/
def Clause.Reads (text : String) (clause : Clause) : Prop :=
  ∃ kinds, Token.Lexes text.toList kinds ∧ clause.Spelled kinds

/-- **What a line says is said by its text alone.** -/
theorem Line.says_iff {line : Line} {clause : Clause} :
    line.Says clause ↔ Clause.Reads line.content clause := by
  constructor
  · rintro ⟨tokens, kinds, htokens, hkinds, hspelled⟩
    exact ⟨kinds, Token.read_iff.1 ⟨tokens, htokens, hkinds⟩, hspelled⟩
  · rintro ⟨kinds, hlexes, hspelled⟩
    obtain ⟨tokens, htokens, hkinds⟩ := Token.read_iff.2 hlexes
    exact ⟨tokens, kinds, htokens, hkinds, hspelled⟩

namespace Clause

theorem reads_withoutReturn {text : String} {clause : Clause} :
    Reads (Source.withoutReturn text) clause ↔ Reads text clause := by
  simp only [Reads, Token.lexes_withoutReturn]

theorem Spelled.starts {clause : Clause} {kinds : List Token.Kind} (h : clause.Spelled kinds) :
    ∃ word kind rest, kinds = .word word :: rest ∧ Kind.NamedBy word kind := by
  cases h <;> exact ⟨_, _, _, rfl, by assumption⟩

/-- No text that says a clause is ignored. -/
theorem Reads.isIgnored_eq_false {text : String} {clause : Clause} (h : Reads text clause) :
    Source.isIgnored text = false := by
  obtain ⟨kinds, hlexes, hspelled⟩ := h
  obtain ⟨word, kind, rest, rfl, hnamed⟩ := hspelled.starts
  obtain ⟨c, letters, hword, hblank, hcomment⟩ := hnamed.first
  exact hlexes.isIgnored_eq_false hword hblank hcomment

end Clause

namespace Declaration

/-! ## Words on both sides of the arrow -/

/-- The words before and after the arrow make up a declaration. -/
inductive Worded : List Word → List Word → Declaration → Prop
  | scalar {type name : Word} {s : Scalar} : Kind.NamedBy type.text (.scalar s) →
      Worded [type] [name] (named name (.scalar s))
  | composite {type element name : Word} {c : Container} {s : Scalar} :
      Kind.NamedBy type.text (.container c) → Kind.NamedBy element.text (.scalar s) →
      Worded [type] [element, name] (named name (.composite c s))
  | sized {type element name size : Word} {c : Container} {s : Scalar} :
      Kind.NamedBy type.text (.container c) → Kind.NamedBy element.text (.scalar s) →
      Worded [type] [element, name, size] (.input name.text (.composite c s) (some size))

theorem element_eq_ok {line : Line} {word : Word} {s : Scalar} :
    element line word = .ok s ↔ Kind.NamedBy word.text (.scalar s) := by
  rw [← Kind.ofWord?_eq_some]
  unfold element
  cases h : Kind.ofWord? word.text with
  | none => simp
  | some kind => cases kind <;> simp [Kind.scalar?]

theorem worded_of_ofContainer {line : Line} {type : Word} {c : Container} {after : List Word}
    {d : Declaration} (htype : Kind.NamedBy type.text (.container c))
    (h : ofContainer line c after = .ok d) : Worded [type] after d := by
  match after with
  | [] => cases h
  | [word] =>
    simp only [ofContainer] at h
    split at h <;> cases h
  | word :: name :: rest =>
    obtain ⟨s, hs, h⟩ := Compiled.bind_eq_ok.1 h
    have helement := element_eq_ok.1 hs
    match rest with
    | [] =>
      cases h
      exact .composite htype helement
    | [size] =>
      cases h
      exact .sized htype helement
    | _ :: _ :: _ => cases h

theorem worded_of_ofWords {line : Line} {before after : List Word} {d : Declaration}
    (h : ofWords line before after = .ok d) : Worded before after d := by
  match before with
  | [] => cases h
  | [type] =>
    simp only [ofWords] at h
    cases hk : Kind.ofWord? type.text with
    | none => simp [hk] at h
    | some kind =>
      have htype := Kind.ofWord?_eq_some.1 hk
      cases kind with
      | container c =>
        rw [hk] at h
        exact worded_of_ofContainer htype h
      | scalar s =>
        rw [hk] at h
        match after with
        | [] => cases h
        | [name] =>
          cases h
          exact .scalar htype
        | _ :: _ :: _ => cases h
  | _ :: _ :: _ => cases h

theorem ofWords_of_worded (line : Line) {before after : List Word} {d : Declaration}
    (h : Worded before after d) : ofWords line before after = .ok d := by
  cases h with
  | scalar htype => simp [ofWords, Kind.ofWord?_eq_some.2 htype, ofScalar]
  | composite htype helement | sized htype helement =>
    simp only [ofWords, Kind.ofWord?_eq_some.2 htype, ofContainer, element_eq_ok.2 helement]
    rfl

theorem ofWords_eq_ok {line : Line} {before after : List Word} {d : Declaration} :
    ofWords line before after = .ok d ↔ Worded before after d :=
  ⟨worded_of_ofWords, ofWords_of_worded line⟩

/-! ## The tokens of a line -/

theorem words_append (before after : List Token) :
    words (before ++ after) = words before ++ words after := by
  simp [words]

@[simp] theorem words_endOfLine (span : Span) : words [⟨.endOfLine, span⟩] = [] := rfl

theorem kinds_eq_words {tokens : List Token} (ha : ∀ token ∈ tokens, token.kind ≠ .arrow)
    (he : ∀ token ∈ tokens, token.kind ≠ .endOfLine) :
    tokens.map (·.kind) = (words tokens).map (.word ·.text) := by
  induction tokens with
  | nil => rfl
  | cons token rest ih =>
    obtain ⟨ha, hrest⟩ := List.forall_mem_cons.1 ha
    obtain ⟨he, hend⟩ := List.forall_mem_cons.1 he
    obtain ⟨kind, span⟩ := token
    cases kind with
    | arrow => exact absurd rfl ha
    | endOfLine => exact absurd rfl he
    | word text => simpa [words, Token.word?] using ih hrest hend

theorem ofTokens_of_split (line : Line) {before after : List Token} {arrow : Token}
    (harrow : arrow.kind = .arrow) (hbefore : ∀ token ∈ before, token.kind ≠ .arrow)
    (hafter : ∀ token ∈ after, token.kind ≠ .arrow) :
    ofTokens line (before ++ arrow :: after) = ofWords line (words before) (words after) := by
  have htake : (before ++ arrow :: after).takeWhile (fun token => token.kind ≠ .arrow) =
      before := by
    rw [List.takeWhile_append_of_pos (by simpa using hbefore),
      List.takeWhile_cons_of_neg (by simp [harrow]), List.append_nil]
  have hdrop : (before ++ arrow :: after).drop (before.length + 1) = after := by
    simp [List.drop_append]
  have hcount : (before ++ arrow :: after).countP (fun token => token.kind = .arrow) = 1 := by
    rw [List.countP_append, List.countP_cons_of_pos (by simp [harrow]),
      List.countP_eq_zero.2 (by simpa using hbefore),
      List.countP_eq_zero.2 (by simpa using hafter)]
  unfold ofTokens
  simp only [htake, hdrop, hcount, ne_eq, not_true_eq_false, if_false]

theorem split_of_ofTokens {line : Line} {tokens : List Token} {d : Declaration}
    (h : ofTokens line tokens = .ok d) : ∃ before arrow after,
      tokens = before ++ arrow :: after ∧ arrow.kind = .arrow ∧
        (∀ token ∈ before, token.kind ≠ .arrow) ∧ ∀ token ∈ after, token.kind ≠ .arrow := by
  have hcount : tokens.countP (fun token => token.kind = .arrow) = 1 := by
    by_contra hne
    unfold ofTokens at h
    simp [hne] at h
  obtain ⟨arrow, hmem, harrow⟩ := List.countP_pos_iff.1 (by rw [hcount]; exact Nat.one_pos)
  obtain ⟨first, hfind⟩ := Option.isSome_iff_exists.1
    (List.find?_isSome (p := fun token : Token => token.kind = .arrow).2 ⟨arrow, hmem, harrow⟩)
  obtain ⟨hfirst, before, after, rfl, hbefore⟩ := List.find?_eq_some_iff_append.1 hfind
  have hbefore : ∀ token ∈ before, token.kind ≠ .arrow := by simpa using hbefore
  have hfirst : first.kind = .arrow := of_decide_eq_true hfirst
  refine ⟨before, first, after, rfl, hfirst, hbefore, ?_⟩
  rw [List.countP_append, List.countP_cons_of_pos (by simp [hfirst]),
    List.countP_eq_zero.2 (by simpa using hbefore)] at hcount
  have hzero : after.countP (fun token => token.kind = .arrow) = 0 := by omega
  simpa using List.countP_eq_zero.1 hzero

/-! ## Lines -/

/-- The declaration says what the clause says; the word for the size denotes the size. -/
inductive Means : Declaration → Clause → Prop
  | result {type : DataType} : Means (.returns type) (.result type)
  | input {name : String} {type : DataType} :
      Means (.input name type none) (.input ⟨name, type, none⟩)
  | sized {name : String} {type : DataType} {size : Word} {n : Nat} : Text.Word64 size.text n →
      Means (.input name type (some size)) (.input ⟨name, type, some n⟩)

theorem spelled_of_worded {before after : List Word} {d : Declaration} {clause : Clause}
    (h : Worded before after d) (hm : d.Means clause) :
    clause.Spelled (before.map (.word ·.text) ++ .arrow :: after.map (.word ·.text)) := by
  cases h with
  | @scalar type name s htype =>
    by_cases hname : name.text = returnWord
    · rw [named, if_pos hname] at hm
      cases hm
      simpa [hname, returnWord] using Clause.Spelled.scalarResult htype
    · rw [named, if_neg hname] at hm
      cases hm
      exact .scalar htype
  | @composite type element name c s htype helement =>
    by_cases hname : name.text = returnWord
    · rw [named, if_pos hname] at hm
      cases hm
      simpa [hname, returnWord] using Clause.Spelled.compositeResult htype helement
    · rw [named, if_neg hname] at hm
      cases hm
      exact .composite htype helement
  | sized htype helement =>
    cases hm with
    | sized hsize => exact .sized htype helement hsize

/-- **A line that is read says what is read.** -/
theorem says_of_ofLine {line : Line} {d : Declaration} {clause : Clause}
    (h : ofLine line = .ok d) (hm : d.Means clause) : line.Says clause := by
  obtain ⟨tokens, htokens, hd⟩ := Compiled.bind_eq_ok.1 h
  obtain ⟨body, span, rfl, hbody⟩ := Token.ended_of_ofLine htokens
  obtain ⟨before, arrow, after, hsplit, harrow, hbefore, hafter⟩ := split_of_ofTokens hd
  -- The end of the line is behind the arrow.
  obtain ⟨rest, rfl, rfl⟩ : ∃ rest, after = rest ++ [⟨.endOfLine, span⟩] ∧
      body = before ++ arrow :: rest := by
    rcases List.eq_nil_or_concat after with rfl | ⟨rest, last, rfl⟩
    · have := List.append_inj_right' hsplit rfl
      simp [← List.singleton_inj.1 this] at harrow
    · rw [List.concat_eq_append, ← List.cons_append, ← List.append_assoc] at hsplit
      obtain ⟨hb, hl⟩ := List.append_inj' hsplit rfl
      exact ⟨rest, by simp [← List.singleton_inj.1 hl], hb⟩
  rw [hsplit, ofTokens_of_split line harrow hbefore hafter, ofWords_eq_ok, words_append,
    words_endOfLine, List.append_nil] at hd
  refine ⟨_, _, htokens, ?_, spelled_of_worded hd hm⟩
  have hrest : ∀ token ∈ rest, token.kind ≠ .arrow := fun t ht => hafter t (by simp [ht])
  rw [← kinds_eq_words hbefore fun t ht => hbody t (by simp [ht]),
    ← kinds_eq_words hrest fun t ht => hbody t (by simp [ht])]
  simp [harrow]

theorem texts_of_kinds {tokens : List Token} {texts : List String}
    (h : tokens.map (·.kind) = texts.map .word ++ [.endOfLine]) :
    (words tokens).map (·.text) = texts := by
  induction texts generalizing tokens with
  | nil =>
    obtain ⟨last, _, rfl, hlast, h⟩ := List.map_eq_cons_iff.1 h
    obtain rfl := List.map_eq_nil_iff.1 h
    simp [words, Token.word?, hlast]
  | cons text texts ih =>
    obtain ⟨token, tokens, rfl, htoken, h⟩ := List.map_eq_cons_iff.1 h
    simpa [words, Token.word?, htoken] using ih h

/-- Tokens of a word, an arrow and more words make up what these words make up. -/
theorem ofTokens_of_kinds (line : Line) {tokens : List Token} {type : String}
    (after : List String) (h : tokens.map (·.kind) =
      .word type :: .arrow :: (after.map .word ++ [.endOfLine])) :
    ∃ w ws, w.text = type ∧ ws.map (·.text) = after ∧
      ofTokens line tokens = ofWords line [w] ws := by
  obtain ⟨first, tokens, rfl, hfirst, h⟩ := List.map_eq_cons_iff.1 h
  obtain ⟨arrow, tokens, rfl, harrow, h⟩ := List.map_eq_cons_iff.1 h
  have hplain : ∀ token ∈ tokens, token.kind ≠ .arrow := by
    intro token htoken hk
    have := h ▸ List.mem_map_of_mem (f := fun token : Token => token.kind) htoken
    simp [hk] at this
  have hbefore : ∀ token ∈ [first], token.kind ≠ .arrow := by simp [hfirst]
  have hsplit := ofTokens_of_split line harrow hbefore hplain
  refine ⟨⟨type, first.span⟩, words tokens, rfl, texts_of_kinds h, ?_⟩
  simpa [words, Token.word?, hfirst] using hsplit

/-- **What a line says is read**, unless the word for the result stands where an input has its
name. -/
theorem ofLine_of_says {line : Line} {clause : Clause} (h : line.Says clause)
    (hname : ∀ parameter, clause = .input parameter → parameter.name ≠ returnWord) :
    ∃ d, ofLine line = .ok d ∧ d.Means clause := by
  obtain ⟨tokens, kinds, htokens, hkinds, hspelled⟩ := h
  suffices ∃ d, ofTokens line tokens = .ok d ∧ d.Means clause by
    obtain ⟨d, hd, hm⟩ := this
    exact ⟨d, Compiled.bind_eq_ok.2 ⟨tokens, htokens, hd⟩, hm⟩
  cases hspelled with
  | @scalar type name s htype =>
    obtain ⟨w, ws, rfl, hws, heq⟩ := ofTokens_of_kinds line [name] hkinds
    obtain ⟨n, rfl, rfl⟩ : ∃ n : Word, ws = [n] ∧ n.text = name := by simpa using hws
    rw [heq]
    refine ⟨_, ofWords_of_worded line (.scalar htype), ?_⟩
    rw [named, if_neg (hname _ rfl)]
    exact .input
  | @scalarResult type s htype =>
    obtain ⟨w, ws, rfl, hws, heq⟩ := ofTokens_of_kinds line [returnWord] hkinds
    obtain ⟨n, rfl, hn⟩ : ∃ n : Word, ws = [n] ∧ n.text = returnWord := by simpa using hws
    rw [heq]
    refine ⟨_, ofWords_of_worded line (.scalar htype), ?_⟩
    rw [named, if_pos hn]
    exact .result
  | @composite type element name c s htype helement =>
    obtain ⟨w, ws, rfl, hws, heq⟩ := ofTokens_of_kinds line [element, name] hkinds
    obtain ⟨e, n, rfl, rfl, rfl⟩ :
        ∃ e n : Word, ws = [e, n] ∧ e.text = element ∧ n.text = name := by
      simpa [List.map_eq_cons_iff] using hws
    rw [heq]
    refine ⟨_, ofWords_of_worded line (.composite htype helement), ?_⟩
    rw [named, if_neg (hname _ rfl)]
    exact .input
  | @sized type element name size c s n htype helement hsize =>
    obtain ⟨w, ws, rfl, hws, heq⟩ :=
      ofTokens_of_kinds line [element, name, size] hkinds
    obtain ⟨e, n, z, rfl, rfl, rfl, rfl⟩ :
        ∃ e n z : Word, ws = [e, n, z] ∧ e.text = element ∧ n.text = name ∧ z.text = size := by
      simpa [List.map_eq_cons_iff] using hws
    rw [heq]
    -- a size makes it an input, whatever the name
    exact ⟨_, ofWords_of_worded line (.sized htype helement), .sized hsize⟩
  | @compositeResult type element c s htype helement =>
    obtain ⟨w, ws, rfl, hws, heq⟩ := ofTokens_of_kinds line [element, returnWord] hkinds
    obtain ⟨e, n, rfl, rfl, hn⟩ :
        ∃ e n : Word, ws = [e, n] ∧ e.text = element ∧ n.text = returnWord := by
      simpa [List.map_eq_cons_iff] using hws
    rw [heq]
    refine ⟨_, ofWords_of_worded line (.composite htype helement), ?_⟩
    rw [named, if_pos hn]
    exact .result

end Declaration

end StructuredCall
