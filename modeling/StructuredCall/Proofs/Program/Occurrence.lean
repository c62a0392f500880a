import Mathlib.Data.List.Infix
import StructuredCall.Proofs.Program.Lines
import StructuredCall.Proofs.Program.Names

/-!
# Occurrences in a text

How often a text occurs in a program is counted in parts: line by line, and a line between the parts
that it is put together from. Counting starts anew behind a part that does not end in a piece of the
text (`Text.occurrences_append`), and at every character that the text does not have
(`Text.occurrences_append_cons`).

**Stems.** The texts that are looked for begin with the same stem. A part in which the stem does not
occur is `Silent`. Behind an `Edge` the stem cannot be half way through, so what comes next is
counted on its own, and a `Cut` also keeps apart what stands in front of it. A line that `Carries` a
text has it between edges, and has the stem as often as that text.

Main results: `Text.occurrences_pieces`, `Text.Carries.occurrences` and `Writer.exists_lines_run`.
-/

namespace StructuredCall

namespace Text

/-! ## Counting -/

/-- How often a text occurs in another; occurrences may overlap. -/
def occurrences (needle : List Char) : List Char → Nat
  | [] => 0
  | c :: cs => (if needle.isPrefixOf (c :: cs) then 1 else 0) + occurrences needle cs

/-- The text does not begin at the end of the other one and go on behind it. -/
def Closed (needle cs : List Char) : Prop :=
  ∀ suffix, suffix <:+ cs → suffix <+: needle → suffix = [] ∨ suffix = needle

instance (needle cs : List Char) : Decidable (Closed needle cs) :=
  decidable_of_iff (∀ suffix ∈ cs.tails, suffix <+: needle → suffix = [] ∨ suffix = needle)
    (forall_congr' fun suffix => by rw [List.mem_tails])

section Counting

variable {needle : List Char}

protected theorem Closed.nil : Closed needle [] :=
  fun _ hsuffix _ => .inl (List.suffix_nil.1 hsuffix)

theorem suffix_append_cases {suffix cs ds : List Char} (h : suffix <:+ cs ++ ds) :
    suffix <:+ ds ∨ ∃ front, front <:+ cs ∧ suffix = front ++ ds := by
  rcases List.suffix_or_suffix_of_suffix h (List.suffix_append cs ds) with hshort | ⟨front, rfl⟩
  · exact .inl hshort
  · obtain ⟨more, hmore⟩ := h
    rw [← List.append_assoc] at hmore
    exact .inr ⟨front, ⟨more, List.append_cancel_right hmore⟩, rfl⟩

theorem Closed.append {cs ds : List Char} (h : Closed needle cs) (h' : Closed needle ds) :
    Closed needle (cs ++ ds) := by
  intro suffix hsuffix hneedle
  rcases suffix_append_cases hsuffix with hds | ⟨front, hfront, rfl⟩
  · exact h' suffix hds hneedle
  · rcases h front hfront ((List.prefix_append front ds).trans hneedle) with rfl | rfl
    · exact h' ds List.suffix_rfl hneedle
    · exact .inr (hneedle.eq_of_length_le (by simp))

theorem Closed.append_cons {ds : List Char} (h : Closed needle ds) {c : Char} (hc : c ∉ needle)
    (cs : List Char) : Closed needle (cs ++ c :: ds) := by
  intro suffix hsuffix hneedle
  have hmem : c ∉ suffix := fun hmem => hc (hneedle.subset hmem)
  rcases suffix_append_cases hsuffix with hds | ⟨front, -, rfl⟩
  · rcases List.suffix_cons_iff.1 hds with rfl | hds
    · simp at hmem
    · exact h suffix hds hneedle
  · simp at hmem

/-- What begins in front does not go on behind. -/
theorem occurrences_append_of {before behind : List Char}
    (h : ∀ suffix, suffix <:+ before → suffix ≠ [] → needle <+: suffix ++ behind →
      needle <+: suffix) :
    occurrences needle (before ++ behind) =
      occurrences needle before + occurrences needle behind := by
  induction before with
  | nil => rw [List.nil_append, occurrences.eq_1, Nat.zero_add]
  | cons c before ih =>
    have hprefix : needle.isPrefixOf (c :: (before ++ behind)) =
        needle.isPrefixOf (c :: before) := by
      rw [Bool.eq_iff_iff, List.isPrefixOf_iff_prefix, List.isPrefixOf_iff_prefix]
      exact ⟨h _ List.suffix_rfl (List.cons_ne_nil c before),
        fun hneedle => hneedle.trans (List.prefix_append _ behind)⟩
    rw [List.cons_append, occurrences, hprefix,
      ih fun suffix hsuffix => h suffix (hsuffix.trans (List.suffix_cons c before)), occurrences,
      Nat.add_assoc]

/-- Behind a closed text, counting starts anew. -/
theorem occurrences_append {before : List Char} (h : Closed needle before) (behind : List Char) :
    occurrences needle (before ++ behind) =
      occurrences needle before + occurrences needle behind := by
  refine occurrences_append_of fun suffix hsuffix hne hneedle => ?_
  rcases List.prefix_or_prefix_of_prefix hneedle (List.prefix_append suffix behind) with
    hshort | hlong
  · exact hshort
  · -- the needle would begin at the end of `before` and go on behind it
    exact ((h suffix hsuffix hlong).resolve_left hne) ▸ List.prefix_rfl

/-- Counting starts anew at a character that the text does not have. -/
theorem occurrences_append_cons {c : Char} (hc : c ∉ needle) (before behind : List Char) :
    occurrences needle (before ++ c :: behind) =
      occurrences needle before + occurrences needle (c :: behind) := by
  refine occurrences_append_of fun suffix _ _ hneedle => ?_
  rcases List.prefix_or_prefix_of_prefix hneedle (List.prefix_append suffix (c :: behind)) with
    hshort | ⟨more, rfl⟩
  · exact hshort
  · rw [List.prefix_append_right_inj] at hneedle
    cases more with
    | nil => simp
    | cons d more =>
      obtain rfl : d = c := (List.cons_prefix_cons.1 hneedle).1
      simp at hc

theorem occurrences_eq_zero {m : Char} (hm : m ∈ needle) {cs : List Char} (h : m ∉ cs) :
    occurrences needle cs = 0 := by
  induction cs with
  | nil => rfl
  | cons c cs ih =>
    have hprefix : ¬ needle.isPrefixOf (c :: cs) = true := fun hprefix =>
      h ((List.isPrefixOf_iff_prefix.1 hprefix).subset hm)
    rw [occurrences, if_neg hprefix, ih (List.not_mem_of_not_mem_cons h)]

/-- What is on one line is counted line by line. -/
theorem occurrences_pieces (hne : needle ≠ []) (hfeed : '\n' ∉ needle) (cs : List Char) :
    occurrences needle cs = ((pieces '\n' cs).map (occurrences needle)).sum := by
  by_cases hmem : '\n' ∈ cs
  · obtain ⟨line, rest, hcs, -⟩ := List.eq_append_cons_of_mem hmem
    have hend : occurrences needle ('\n' :: rest) = occurrences needle rest := by
      have hprefix : ¬ needle.isPrefixOf ('\n' :: rest) = true := by
        obtain ⟨c, needle, rfl⟩ := List.exists_cons_of_ne_nil hne
        rw [List.isPrefixOf_iff_prefix, List.cons_prefix_cons]
        exact fun h => hfeed (h.1 ▸ List.mem_cons_self)
      rw [occurrences, if_neg hprefix, Nat.zero_add]
    rw [hcs, occurrences_append_cons hfeed, hend, pieces_append, List.map_append, List.sum_append,
      occurrences_pieces hne hfeed line, occurrences_pieces hne hfeed rest]
  · simp [pieces_of_not_mem hmem]
termination_by cs.length
decreasing_by
  all_goals
    rw [hcs, List.length_append, List.length_cons]
    omega

theorem one_le_occurrences (hne : needle ≠ []) {cs : List Char} (h : needle <:+: cs) :
    1 ≤ occurrences needle cs := by
  obtain ⟨before, behind, rfl⟩ := h
  induction before with
  | nil =>
    obtain ⟨d, needle, rfl⟩ := List.exists_cons_of_ne_nil hne
    have hprefix : (d :: needle).isPrefixOf (d :: (needle ++ behind)) = true :=
      List.isPrefixOf_iff_prefix.2 (List.prefix_append (d :: needle) behind)
    simp only [List.nil_append, List.cons_append, occurrences, hprefix, if_true]
    omega
  | cons x before ih =>
    simp only [List.cons_append, occurrences]
    omega

theorem occurrences_le {stem : List Char} (h : stem <+: needle) (cs : List Char) :
    occurrences needle cs ≤ occurrences stem cs := by
  induction cs with
  | nil => exact Nat.le_refl 0
  | cons c cs ih =>
    simp only [occurrences, List.isPrefixOf_iff_prefix]
    by_cases hn : needle <+: c :: cs
    · simp [hn, h.trans hn, ih]
    · simp only [hn, if_false]
      omega

/-- Two texts with one stem that cannot stand in the same place occur together at most as often as
the stem. -/
theorem occurrences_add_le {stem needle' : List Char} (h : stem <+: needle)
    (h' : stem <+: needle') (hapart : ∀ cs, needle <+: cs → ¬ needle' <+: cs) (cs : List Char) :
    occurrences needle cs + occurrences needle' cs ≤ occurrences stem cs := by
  induction cs with
  | nil => exact Nat.le_refl 0
  | cons c cs ih =>
    simp only [occurrences, List.isPrefixOf_iff_prefix]
    have hfirst : (if needle <+: c :: cs then 1 else 0) + (if needle' <+: c :: cs then 1 else 0) ≤
        if stem <+: c :: cs then 1 else 0 := by
      by_cases hn : needle <+: c :: cs
      · simp [hn, hapart _ hn, h.trans hn]
      · by_cases hn' : needle' <+: c :: cs
        · simp [hn, hn', h'.trans hn']
        · simp [hn, hn']
    omega

end Counting

/-! ## Texts without the stem -/

/-- A text on one line in which the stem does not occur. -/
structure Silent (stem cs : List Char) : Prop where
  absent : occurrences stem cs = 0
  oneLine : '\n' ∉ cs

/-- A silent text that is closed. -/
structure Edge (stem cs : List Char) : Prop extends Silent stem cs where
  closed : Closed stem cs

/-- An edge that begins with a character that the stem does not have. -/
structure Cut (stem cs : List Char) : Prop extends Edge stem cs where
  first : ∃ c ∈ cs.head?, c ∉ stem

/-- A text on one line that does not have a character. -/
structure Lacks (m : Char) (s : String) : Prop where
  letter : m ∉ s.toList
  oneLine : OneLine s

section Lacking

variable {m : Char}

theorem lacks_ofList {cs : List Char} (h : m ∉ cs ∧ '\n' ∉ cs) : Lacks m (String.ofList cs) := by
  constructor
  · rw [String.toList_ofList]
    exact h.1
  · rw [OneLine, String.toList_ofList]
    exact h.2

theorem Lacks.append {s t : String} (h : Lacks m s) (h' : Lacks m t) : Lacks m (s ++ t) :=
  ⟨by simp [h.letter, h'.letter], by simp [h.oneLine, h'.oneLine]⟩

theorem Lacks.fill {template value : String} (h : Lacks m template) (h' : Lacks m value) :
    Lacks m (fill template value) := by
  refine ⟨?_, oneLine_fill h.oneLine h'.oneLine⟩
  rw [Text.fill, String.toList_ofList]
  exact fun hmem => (mem_fillChars hmem).elim h'.letter h.letter

end Lacking

section Silence

variable {stem : List Char}

instance (cs : List Char) : Decidable (Silent stem cs) :=
  decidable_of_iff (occurrences stem cs = 0 ∧ '\n' ∉ cs) ⟨fun h => ⟨h.1, h.2⟩, fun h => ⟨h.1, h.2⟩⟩

instance (cs : List Char) : Decidable (Edge stem cs) :=
  decidable_of_iff (Silent stem cs ∧ Closed stem cs) ⟨fun h => ⟨h.1, h.2⟩, fun h => ⟨h.1, h.2⟩⟩

instance (cs : List Char) : Decidable (Cut stem cs) :=
  decidable_of_iff (Edge stem cs ∧ cs.head?.any (· ∉ stem) = true) <| by
    simp only [Option.any_eq_true, decide_eq_true_eq]
    exact ⟨fun h => ⟨h.1, h.2⟩, fun h => ⟨h.1, h.2⟩⟩

theorem silent_ofList {cs : List Char} (h : Silent stem cs) :
    Silent stem (String.ofList cs).toList := by
  rwa [String.toList_ofList]

theorem edge_ofList {cs : List Char} (h : Edge stem cs) : Edge stem (String.ofList cs).toList := by
  rwa [String.toList_ofList]

theorem cut_ofList {cs : List Char} (h : Cut stem cs) : Cut stem (String.ofList cs).toList := by
  rwa [String.toList_ofList]

protected theorem Edge.nil : Edge stem [] :=
  ⟨⟨rfl, List.not_mem_nil⟩, .nil⟩

/-- The stem does not occur where one of its characters does not. -/
theorem Lacks.silent {m : Char} {s : String} (h : Lacks m s) (hm : m ∈ stem) :
    Silent stem s.toList :=
  ⟨occurrences_eq_zero hm h.letter, h.oneLine⟩

theorem Edge.append_silent {s t : String} (h : Edge stem s.toList) (h' : Silent stem t.toList) :
    Silent stem (s ++ t).toList := by
  rw [String.toList_append]
  refine ⟨?_, by simp [h.oneLine, h'.oneLine]⟩
  rw [occurrences_append h.closed, h.absent, h'.absent]

theorem Edge.append {s t : String} (h : Edge stem s.toList) (h' : Edge stem t.toList) :
    Edge stem (s ++ t).toList := by
  refine ⟨h.append_silent h'.toSilent, ?_⟩
  rw [String.toList_append]
  exact h.closed.append h'.closed

/-- Whatever is silent may stand in front of a cut. -/
theorem Silent.append_cut {s t : String} (h : Silent stem s.toList) (h' : Cut stem t.toList) :
    Edge stem (s ++ t).toList := by
  obtain ⟨c, hc, hcut⟩ := h'.first
  obtain ⟨rest, hrest⟩ : ∃ rest, t.toList = c :: rest := List.head?_eq_some_iff.1 hc
  -- a stem that begins in `s` would have to go on over `c`; what begins behind it is in `t`
  have hclosed : Closed stem rest := fun suffix hsuffix =>
    h'.closed suffix (hrest ▸ hsuffix.trans (List.suffix_cons c rest))
  have hoccurrences : occurrences stem (s ++ t).toList = 0 := by
    rw [String.toList_append, hrest, occurrences_append_cons hcut, ← hrest, h.absent, h'.absent]
  refine ⟨⟨hoccurrences, by simp [h.oneLine, h'.oneLine]⟩, ?_⟩
  rw [String.toList_append, hrest]
  exact hclosed.append_cons hcut s.toList

theorem Silent.between {s : String} (h : Silent stem s.toList) {front back : List Char}
    (hfront : Edge stem front) (hback : Cut stem back) :
    Edge stem (String.ofList front ++ s ++ String.ofList back).toList :=
  ((edge_ofList hfront).append_silent h).append_cut (cut_ofList hback)

theorem silent_intercalate {separator : String} (hcut : Cut stem separator.toList)
    {parts : List String} (h : ∀ part ∈ parts, Silent stem part.toList) :
    Silent stem (separator.intercalate parts).toList := by
  rw [String.toList_intercalate]
  refine Text.intercalate_induction Edge.nil.toSilent (fun hpart hrest => ?_)
    (List.forall_mem_map.2 h)
  simpa using ((silent_ofList hpart).append_cut hcut).append_silent (silent_ofList hrest)

end Silence

/-! ## Texts that carry another -/

/-- The token is somewhere on a line, between edges. -/
def Carries (stem : List Char) (token line : String) : Prop :=
  ∃ before behind, line = before ++ token ++ behind ∧ Edge stem before.toList ∧
    Edge stem behind.toList

namespace Carries

variable {stem : List Char} {token line : String}

protected theorem refl (token : String) : Carries stem token token :=
  ⟨"", "", by simp, .nil, .nil⟩

theorem ahead {before : String} (hbefore : Edge stem before.toList)
    (h : Carries stem token line) : Carries stem token (before ++ line) := by
  obtain ⟨before', behind, rfl, hbefore', hbehind⟩ := h
  exact ⟨before ++ before', behind, by simp [String.append_assoc], hbefore.append hbefore', hbehind⟩

theorem behind {behind : String} (h : Carries stem token line) (hbehind : Edge stem behind.toList) :
    Carries stem token (line ++ behind) := by
  obtain ⟨before, behind', rfl, hbefore, hbehind'⟩ := h
  exact ⟨before, behind' ++ behind, by simp [String.append_assoc], hbefore, hbehind'.append hbehind⟩

/-- A line that carries a token has the stem as often as the token. -/
theorem occurrences (h : Carries stem token line) (hclosed : Closed stem token.toList) :
    occurrences stem line.toList = occurrences stem token.toList := by
  obtain ⟨before, behind, rfl, hbefore, hbehind⟩ := h
  rw [String.toList_append, String.toList_append, List.append_assoc,
    occurrences_append hbefore.closed, occurrences_append hclosed, hbefore.absent, hbehind.absent,
    Nat.zero_add, Nat.add_zero]

theorem isInfix (h : Carries stem token line) : token.toList <:+: line.toList := by
  obtain ⟨before, behind, rfl, -, -⟩ := h
  exact ⟨before.toList, behind.toList, by simp⟩

theorem oneLine (h : Carries stem token line) (htoken : OneLine token) : OneLine line := by
  obtain ⟨before, behind, rfl, hbefore, hbehind⟩ := h
  exact oneLine_append.2 ⟨oneLine_append.2 ⟨hbefore.oneLine, htoken⟩, hbehind.oneLine⟩

end Carries

end Text

/-! ## Lines -/

/-- A step that writes lines with a property. -/
def Step.Writes (p : String → Prop) : Step → Prop
  | .line text => p text
  | .block _ => False
  | .blank | .indent | .dedent => True

theorem Step.Writes.imp {p q : String → Prop} {step : Step} (h : step.Writes p)
    (hpq : ∀ text, p text → q text) : step.Writes q := by
  cases step with
  | line text => exact hpq text h
  | block text => exact h
  | blank | indent | dedent => trivial

/-- Steps without blocks have the property if the placed lines have it. -/
theorem Step.writes_of_placed {p : String → Prop} {q : List Char → Prop}
    (hpq : ∀ text : String, q text.toList → p text) (depth : Nat) {steps : List Step}
    {lines : List (Nat × List Char)} (h : placed depth steps = lines)
    (hblock : steps.all fun | .block _ => false | _ => true) (hlines : ∀ line ∈ lines, q line.2) :
    ∀ step ∈ steps, step.Writes p := by
  subst h
  induction steps generalizing depth with
  | nil => simp
  | cons step steps ih =>
    rw [List.all_cons, Bool.and_eq_true] at hblock
    rw [List.forall_mem_cons]
    cases step with
    | line text =>
      obtain ⟨htext, hlines⟩ := List.forall_mem_cons.1 hlines
      exact ⟨hpq text htext, ih _ hblock.2 hlines⟩
    | block text => exact absurd hblock.1 (by simp)
    | blank | indent | dedent => exact ⟨trivial, ih _ hblock.2 hlines⟩

namespace Writer

/-- Lines without line feeds are the pieces of the text, up to the end. -/
theorem pieces_text_of_oneLine {writer : Writer} (h : ∀ line ∈ writer.lines, Text.OneLine line) :
    Text.pieces '\n' writer.text.toList = writer.lines.map String.toList ++ [[]] := by
  rw [pieces_text, List.map_eq_flatMap]
  exact congrArg (· ++ [[]])
    (List.flatMap_congr fun line hline => Text.pieces_of_not_mem (h line hline))

theorem exists_lines_run {p : String → Prop} (hempty : p "") {indentUnit : String}
    {steps : List Step}
    (h : ∀ step ∈ steps, step.Writes fun text => ∀ depth, p (indented indentUnit depth text))
    (writer : Writer) (hunit : writer.indentUnit = indentUnit) :
    ∃ more, (writer.run steps).lines = writer.lines ++ more ∧ ∀ line ∈ more, p line := by
  induction steps generalizing writer with
  | nil => exact ⟨[], (List.append_nil _).symm, by simp⟩
  | cons step steps ih =>
    obtain ⟨hstep, hsteps⟩ := List.forall_mem_cons.1 h
    obtain ⟨more, hmore, hlines⟩ :=
      ih hsteps (writer.step step) ((indentUnit_step writer step).trans hunit)
    have hfirst : ∃ first, (writer.step step).lines = writer.lines ++ first ∧
        ∀ line ∈ first, p line := by
      cases step with
      | line text =>
        refine ⟨[indented writer.indentUnit writer.depth text], rfl, ?_⟩
        rw [hunit]
        exact List.forall_mem_singleton.2 (hstep _)
      | block text => exact hstep.elim
      -- whether it is written depends on the lines above
      | blank =>
        rw [step, blank]
        split
        · exact ⟨[], (List.append_nil _).symm, by simp⟩
        · exact ⟨[""], rfl, List.forall_mem_singleton.2 hempty⟩
      | indent | dedent => exact ⟨[], (List.append_nil _).symm, by simp⟩
    obtain ⟨first, hfirst, hfirstLines⟩ := hfirst
    refine ⟨first ++ more, ?_, List.forall_mem_append.2 ⟨hfirstLines, hlines⟩⟩
    show ((writer.step step).run steps).lines = _
    rw [hmore, hfirst, List.append_assoc]

end Writer

end StructuredCall
