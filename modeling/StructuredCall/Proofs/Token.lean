import Mathlib.Data.List.Basic
import StructuredCall.Proofs.Source
import StructuredCall.Token

/-!
# The tokens of a line

What every successful reading of a line gives: words and arrows, and after them the end of the
line, which occurs nowhere else.

Which words and arrows these are depends on the text of the line and not on its place. The
relation `Token.Lexes` says what they are without the places, and `Token.read_iff` that a line
is read exactly as its text lexes.
-/

namespace StructuredCall.Token

/-! ## The end of a line -/

/-- Tokens that end with the end of the line, which is not among the others. -/
def Ended (tokens : List Token) : Prop :=
  ∃ body span, tokens = body ++ [⟨.endOfLine, span⟩] ∧ ∀ token ∈ body, token.kind ≠ .endOfLine

theorem Ended.cons {token : Token} {tokens : List Token} (h : Ended tokens)
    (hk : token.kind ≠ .endOfLine) : Ended (token :: tokens) := by
  obtain ⟨body, span, rfl, hb⟩ := h
  exact ⟨token :: body, span, rfl, List.forall_mem_cons.2 ⟨hk, hb⟩⟩

theorem ended_of_scan {line : Line} {offset : Nat} {cs : List Char} {tokens : List Token}
    (h : scan line offset cs = .ok tokens) : Ended tokens := by
  fun_induction scan line offset cs generalizing tokens with
  | case1 offset =>
    obtain rfl : [⟨.endOfLine, ⟨offset, offset⟩⟩] = tokens := by simpa using h
    exact ⟨[], _, rfl, by simp⟩
  | case2 offset rest ih =>
    obtain ⟨more, hmore, rfl⟩ := Compiled.map_eq_ok.1 h
    exact (ih hmore).cons (by simp)
  | case3 offset c rest _ _ ih => exact ih h
  | case4 => cases h
  | case5 =>
    rename_i ih
    obtain ⟨more, hmore, rfl⟩ := Compiled.map_eq_ok.1 h
    exact (ih hmore).cons (by simp)

/-- **A line that is read ends once.** -/
theorem ended_of_ofLine {line : Line} {tokens : List Token} (h : ofLine line = .ok tokens) :
    Ended tokens :=
  ended_of_scan h

/-! ## Words -/

/-- Characters that are one whole word. -/
structure IsWord (word : List Char) : Prop where
  nonempty : word ≠ []
  whole : takeWord word = (word, [])

theorem takeWord_cons_of_ends {c : Char} (hc : endsWord c = true) (rest : List Char) :
    takeWord (c :: rest) = ([], c :: rest) := by
  have hdash : c ≠ '-' := by
    rintro rfl
    exact absurd hc (by decide)
  unfold takeWord
  split <;> simp_all

theorem takeWord_cons_of_ne {c : Char} (hdash : c ≠ '-') (hc : endsWord c = false)
    (rest : List Char) :
    takeWord (c :: rest) = (c :: (takeWord rest).1, (takeWord rest).2) := by
  rw [takeWord.eq_def]
  split <;> simp_all

/-- A character before which neither `- c` nor a lone dash was split off is no dash. -/
theorem ne_dash {c : Char} {rest : List Char} (hlone : c = '-' → rest ≠ [])
    (hpair : ∀ d more, c = '-' → rest ≠ d :: more) : c ≠ '-' := by
  intro hc
  cases rest with
  | nil => exact hlone hc rfl
  | cons d more => exact hpair d more hc rfl

theorem takeWord_idem (cs : List Char) : takeWord (takeWord cs).1 = ((takeWord cs).1, []) := by
  fun_induction takeWord cs with
  | case1 => rfl
  | case2 => rfl
  | case3 => rfl
  | case4 c rest hc ih => simp [takeWord, hc, ih]
  | case5 => rfl
  | case6 c rest hlone hpair hc ih =>
    rw [takeWord_cons_of_ne (ne_dash hlone hpair) (by simpa using hc), ih]

theorem isWord_of_takeWord {cs word rest : List Char} (h : takeWord cs = (word, rest))
    (hne : word ≠ []) : IsWord word := by
  refine ⟨hne, ?_⟩
  have hidem := takeWord_idem cs
  rwa [h] at hidem

theorem not_endsWord_of_mem_takeWord {cs : List Char} :
    ∀ c ∈ (takeWord cs).1, endsWord c = false := by
  fun_induction takeWord cs <;> simp_all [endsWord, isGap]

theorem IsWord.not_endsWord {word : List Char} (h : IsWord word) :
    ∀ c ∈ word, endsWord c = false := by
  have hall : ∀ c ∈ (takeWord word).1, endsWord c = false := not_endsWord_of_mem_takeWord
  rwa [h.whole] at hall

theorem IsWord.oneLine {word : String} (h : IsWord word.toList) : Text.OneLine word :=
  fun hmem => absurd (h.not_endsWord '\n' hmem) (by decide)

/-- What comes after a character that ends words has no part in the word before it. -/
theorem takeWord_append_cons {g : Char} (hg : endsWord g = true) (cs rest : List Char) :
    takeWord (cs ++ g :: rest) = ((takeWord cs).1, (takeWord cs).2 ++ g :: rest) := by
  fun_induction takeWord cs with
  | case1 => exact takeWord_cons_of_ends hg rest
  | case2 => simp [takeWord, hg]
  | case3 c more hc => simp [takeWord, hc]
  | case4 c more hc ih => simp [takeWord, hc, ih]
  | case5 c more _ _ hc => exact takeWord_cons_of_ends hc _
  | case6 c more hlone hpair hc ih =>
    rw [List.cons_append,
      takeWord_cons_of_ne (ne_dash hlone hpair) (by simpa using hc), ih]

/-! ## The text of a line -/

/-- The words and arrows of a text, each word as long as it can be. -/
inductive Lexes : List Char → List Kind → Prop
  | nil : Lexes [] []
  | arrow {rest : List Char} {kinds : List Kind} : Lexes rest kinds →
      Lexes ('-' :: '>' :: rest) (.arrow :: kinds)
  | gap {c : Char} {rest : List Char} {kinds : List Kind} : isGap c = true →
      Lexes rest kinds → Lexes (c :: rest) kinds
  | word {cs word rest : List Char} {kinds : List Kind} : takeWord cs = (word, rest) →
      word ≠ [] → Lexes rest kinds → Lexes cs (.word (String.ofList word) :: kinds)

theorem lexes_of_scan {line : Line} {offset : Nat} {cs : List Char} {tokens : List Token}
    (h : scan line offset cs = .ok tokens) :
    ∃ kinds, tokens.map (·.kind) = kinds ++ [.endOfLine] ∧ Lexes cs kinds := by
  fun_induction scan line offset cs generalizing tokens with
  | case1 offset =>
    obtain rfl : [⟨.endOfLine, ⟨offset, offset⟩⟩] = tokens := by simpa using h
    exact ⟨[], rfl, .nil⟩
  | case2 offset rest ih =>
    obtain ⟨more, hmore, rfl⟩ := Compiled.map_eq_ok.1 h
    obtain ⟨kinds, hkinds, hlexes⟩ := ih hmore
    exact ⟨.arrow :: kinds, by simp [hkinds], .arrow hlexes⟩
  | case3 offset c rest _ hc ih =>
    obtain ⟨kinds, hkinds, hlexes⟩ := ih h
    exact ⟨kinds, hkinds, .gap hc hlexes⟩
  | case4 => cases h
  | case5 =>
    rename_i hword stop ih
    obtain ⟨more, hmore, rfl⟩ := Compiled.map_eq_ok.1 h
    obtain ⟨kinds, hkinds, hlexes⟩ := ih hmore
    exact ⟨_ :: kinds, congrArg (_ :: ·) hkinds, .word hword (List.cons_ne_nil _ _) hlexes⟩

theorem scan_of_gap (line : Line) (offset : Nat) {c : Char} (hc : isGap c = true)
    (rest : List Char) :
    scan line offset (c :: rest) = scan line (offset + c.utf8Size) rest := by
  have hdash : c ≠ '-' := by
    rintro rfl
    exact absurd hc (by decide)
  rw [scan.eq_def]
  split <;> simp_all

theorem scan_of_word (line : Line) (offset : Nat) {cs word rest : List Char}
    (hword : takeWord cs = (word, rest)) (hne : word ≠ []) :
    scan line offset cs =
      (scan line (offset + Text.utf8Length word) rest).map
        (⟨.word (String.ofList word), ⟨offset, offset + Text.utf8Length word⟩⟩ :: ·) := by
  rw [scan.eq_def]
  split
  · simp_all [takeWord]
  · simp_all [takeWord]
  · next c more hno =>
    have hgap : isGap c = false := by
      by_contra hc
      have hends : endsWord c = true := by simp_all [endsWord]
      rw [takeWord_cons_of_ends hends] at hword
      exact hne (Prod.ext_iff.1 hword).1.symm
    rw [if_neg (by simp [hgap])]
    split
    · next hnone =>
      rw [hword] at hnone
      exact absurd (Prod.ext_iff.1 hnone).1 hne
    · next d letters after hsome =>
      rw [hword] at hsome
      cases hsome
      rfl

theorem scan_of_lexes (line : Line) {cs : List Char} {kinds : List Kind}
    (h : Lexes cs kinds) (offset : Nat) : ∃ tokens, scan line offset cs = .ok tokens ∧
      tokens.map (·.kind) = kinds ++ [.endOfLine] := by
  induction h generalizing offset with
  | nil => exact ⟨_, by rw [scan], rfl⟩
  | arrow _ ih =>
    obtain ⟨tokens, htokens, hkinds⟩ := ih (offset + 2)
    exact ⟨_, by rw [scan, htokens]; rfl, by simp [hkinds]⟩
  | gap hc _ ih =>
    rw [scan_of_gap line offset hc]
    exact ih _
  | word hword hne _ ih =>
    rw [scan_of_word line offset hword hne]
    obtain ⟨tokens, htokens, hkinds⟩ := ih _
    exact ⟨_, by rw [htokens]; rfl, by simp [hkinds]⟩

/-- **Reading a line** is lexing its text. -/
theorem read_iff {line : Line} {kinds : List Kind} :
    (∃ tokens, ofLine line = .ok tokens ∧ tokens.map (·.kind) = kinds ++ [.endOfLine]) ↔
      Lexes line.content.toList kinds := by
  constructor
  · rintro ⟨tokens, htokens, hkinds⟩
    obtain ⟨kinds', hkinds', hlexes⟩ := lexes_of_scan htokens
    rw [hkinds, List.append_left_inj] at hkinds'
    exact hkinds' ▸ hlexes
  · intro h
    exact scan_of_lexes line h _

theorem Lexes.unique {cs : List Char} {kinds others : List Kind} (h : Lexes cs kinds)
    (h' : Lexes cs others) : kinds = others := by
  obtain ⟨tokens, htokens, hkinds⟩ := scan_of_lexes default h 0
  obtain ⟨tokens', htokens', hothers⟩ := scan_of_lexes default h' 0
  rw [htokens] at htokens'
  cases htokens'
  rwa [hkinds, List.append_left_inj] at hothers

theorem endsWord_of_isGap {g : Char} (hg : isGap g = true) : endsWord g = true := by
  simp [endsWord, hg]

theorem Lexes.append_gap {g : Char} (hg : isGap g = true) {cs : List Char} {kinds : List Kind}
    (h : Lexes cs kinds) : Lexes (cs ++ [g]) kinds := by
  induction h with
  | nil => exact .gap hg .nil
  | arrow _ ih => exact .arrow ih
  | gap hc _ ih => exact .gap hc ih
  | @word cs _ _ _ hword hne _ ih =>
    have htake := takeWord_append_cons (endsWord_of_isGap hg) cs []
    rw [hword] at htake
    exact .word htake hne ih

theorem Lexes.of_append_gap {g : Char} (hg : isGap g = true) {cs : List Char}
    {kinds : List Kind} (h : Lexes (cs ++ [g]) kinds) : Lexes cs kinds := by
  generalize htext : cs ++ [g] = text at h
  induction h generalizing cs with
  | nil => simp at htext
  | arrow hrest ih =>
    match cs with
    | [] => simp at htext
    | [_] =>
      obtain ⟨rfl, rfl, rfl⟩ : _ = '-' ∧ g = '>' ∧ _ = [] := by simpa using htext
      -- a `>` that is the end of an arrow is no gap
      exact absurd hg (by decide)
    | _ :: _ :: cs =>
      obtain ⟨rfl, rfl, rfl⟩ : _ = '-' ∧ _ = '>' ∧ cs ++ [g] = _ := by simpa using htext
      exact .arrow (ih rfl)
  | gap hc hrest ih =>
    match cs with
    | [] =>
      obtain ⟨rfl, rfl⟩ : g = _ ∧ [] = _ := by simpa using htext
      cases hrest with
      | nil => exact .nil
      | word hword hne _ => exact absurd (congrArg Prod.fst hword).symm hne
    | _ :: cs =>
      obtain ⟨rfl, rfl⟩ : _ = _ ∧ cs ++ [g] = _ := by simpa using htext
      exact .gap hc (ih rfl)
  | word hword hne hrest ih =>
    subst htext
    -- a gap ends words, so the last one is as long without it
    rw [takeWord_append_cons (endsWord_of_isGap hg)] at hword
    obtain ⟨rfl, rfl⟩ := Prod.ext_iff.1 hword
    exact .word rfl hne (ih rfl)

/-- A gap at the end of a text is no part of its tokens. -/
theorem lexes_append_gap {g : Char} (hg : isGap g = true) {cs : List Char} {kinds : List Kind} :
    Lexes (cs ++ [g]) kinds ↔ Lexes cs kinds :=
  ⟨Lexes.of_append_gap hg, Lexes.append_gap hg⟩

theorem lexes_withoutReturn {text : String} {kinds : List Kind} :
    Lexes (Source.withoutReturn text).toList kinds ↔ Lexes text.toList kinds := by
  rcases Source.withoutReturn_cases text with heq | heq
  · rw [heq]
  · rw [heq, lexes_append_gap (by decide)]

theorem Lexes.of_word {word : List Char} (h : IsWord word) :
    Lexes word [.word (String.ofList word)] :=
  .word h.whole h.nonempty .nil

/-- A word before a gap is the first token. -/
theorem Lexes.word_gap {word : List Char} (h : IsWord word) {g : Char} (hg : isGap g = true)
    {cs : List Char} {kinds : List Kind} (hrest : Lexes cs kinds) :
    Lexes (word ++ g :: cs) (.word (String.ofList word) :: kinds) := by
  have htake := takeWord_append_cons (endsWord_of_isGap hg) word cs
  rw [h.whole] at htake
  exact .word htake h.nonempty (.gap hg hrest)

theorem Lexes.isWord {cs : List Char} {kinds : List Kind} (h : Lexes cs kinds) {text : String}
    (hmem : .word text ∈ kinds) : IsWord text.toList := by
  induction h with
  | nil => cases hmem
  | arrow _ ih | gap _ _ ih => exact ih (by simpa using hmem)
  | word hword hne _ ih =>
    rcases List.mem_cons.1 hmem with heq | hmem
    · cases heq
      rw [String.toList_ofList]
      exact isWord_of_takeWord hword hne
    · exact ih hmem

/-- Nothing but gaps is before the first word. -/
theorem Lexes.eq_gaps_append {cs : List Char} {text : String} {kinds : List Kind}
    (h : Lexes cs (.word text :: kinds)) :
    ∃ gaps rest, cs = gaps ++ text.toList ++ rest ∧ ∀ g ∈ gaps, isGap g = true := by
  generalize hall : Kind.word text :: kinds = all at h
  induction h with
  | nil | arrow _ _ => cases hall
  | @gap c _ _ hc _ ih =>
    obtain ⟨gaps, rest, rfl, hgaps⟩ := ih hall
    exact ⟨c :: gaps, rest, by simp, List.forall_mem_cons.2 ⟨hc, hgaps⟩⟩
  | @word cs word rest _ hword _ _ =>
    cases hall
    refine ⟨[], rest, ?_, by simp⟩
    have happend := takeWord_append cs
    rw [hword] at happend
    simpa using happend.symm

theorem isBlank_of_isGap {g : Char} (hg : isGap g = true) : Text.isBlank g = true := by
  simp only [isGap, Bool.or_eq_true, decide_eq_true_eq] at hg
  rcases hg with ((rfl | rfl) | rfl) | rfl <;> decide

theorem Lexes.isIgnored_eq_false {text word : String} {kinds : List Kind} {c : Char}
    {letters : List Char} (h : Lexes text.toList (.word word :: kinds))
    (hword : word.toList = c :: letters) (hblank : Text.isBlank c = false) (hcomment : c ≠ '#') :
    Source.isIgnored text = false := by
  obtain ⟨gaps, rest, htext, hgaps⟩ := h.eq_gaps_append
  rw [hword, List.append_assoc, List.cons_append] at htext
  exact Source.isIgnored_eq_false htext (fun g hg => isBlank_of_isGap (hgaps g hg)) hblank hcomment

end StructuredCall.Token
