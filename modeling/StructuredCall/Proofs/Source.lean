import StructuredCall.Source.Line

/-!
# The texts of a source

A source is split into the texts of its lines, and lines that are joined are split again into
the same texts (`Source.texts_intercalate`), up to a carriage return at the end of each. Which
lines are ignored depends on their texts, and not on the carriage return.
-/

namespace StructuredCall

/-! ## Pieces -/

namespace Text

theorem pieces_eq_splitOn (sep : Char) (cs : List Char) : pieces sep cs = cs.splitOn sep := by
  induction cs with
  | nil => rfl
  | cons c cs ih =>
    rw [List.splitOn_cons_eq_if_modifyHead, pieces, ih]
    obtain ⟨p, ps, hp⟩ := List.exists_cons_of_ne_nil (List.splitOn_ne_nil sep cs)
    simp [hp]

theorem pieces_append (sep : Char) (xs ys : List Char) :
    pieces sep (xs ++ sep :: ys) = pieces sep xs ++ pieces sep ys := by
  simp only [pieces_eq_splitOn]
  exact List.splitOn_append_cons_self xs ys

theorem pieces_of_not_mem {sep : Char} {cs : List Char} (h : sep ∉ cs) : pieces sep cs = [cs] := by
  rw [pieces_eq_splitOn]
  exact List.splitOn_eq_singleton h

theorem not_mem_of_mem_pieces {sep : Char} {cs piece : List Char} (h : piece ∈ pieces sep cs) :
    sep ∉ piece := by
  induction cs generalizing piece with
  | nil => simp_all [pieces]
  | cons c cs ih =>
    obtain ⟨p, ps, hp⟩ := List.exists_cons_of_ne_nil (pieces_ne_nil sep cs)
    rw [hp] at ih
    rw [pieces, hp] at h
    split at h
    · rcases List.mem_cons.1 h with rfl | h
      · simp
      · exact ih h
    · next hc =>
      rcases List.mem_cons.1 h with rfl | h
      · simpa [Ne.symm hc] using ih List.mem_cons_self
      · exact ih (List.mem_cons_of_mem _ h)

/-- A text without a line feed. -/
def OneLine (s : String) : Prop :=
  '\n' ∉ s.toList

instance (s : String) : Decidable (OneLine s) :=
  inferInstanceAs (Decidable ('\n' ∉ s.toList))

@[simp] theorem oneLine_append {s t : String} : OneLine (s ++ t) ↔ OneLine s ∧ OneLine t := by
  simp [OneLine, not_or]

/-! ## White space at the ends -/

theorem dropEndWhile_cons {p : Char → Bool} {c : Char} (hc : p c = false) (cs : List Char) :
    ∃ rest, dropEndWhile p (c :: cs) = c :: rest := by
  rw [dropEndWhile, List.reverse_cons, List.dropWhile_append]
  split
  · exact ⟨[], by simp [hc]⟩
  · exact ⟨_, by rw [List.reverse_append, List.reverse_singleton, List.singleton_append]⟩

theorem trimChars_append {blank : Char} (hblank : isBlank blank = true) (cs : List Char) :
    trimChars (cs ++ [blank]) = trimChars cs := by
  unfold trimChars dropEndWhile
  rw [List.dropWhile_append]
  split
  · next h =>
    have hnil : cs.dropWhile isBlank = [] := by simpa using h
    simp [hnil, hblank]
  · simp [hblank]

theorem dropWhile_blank {before cs : List Char} (hbefore : before.all isBlank = true) :
    (before ++ cs).dropWhile isBlank = cs.dropWhile isBlank :=
  List.dropWhile_append_of_pos (List.all_eq_true.1 hbefore)

theorem dropEndWhile_blank {cs after : List Char} (hafter : after.all isBlank = true) :
    dropEndWhile isBlank (cs ++ after) = dropEndWhile isBlank cs := by
  rw [dropEndWhile, List.reverse_append, dropWhile_blank (by simpa using hafter), dropEndWhile]

/-- A text that neither starts nor ends with white space. -/
structure Tight (cs : List Char) : Prop where
  first : ∀ c ∈ cs.head?, isBlank c = false
  last : ∀ c ∈ cs.getLast?, isBlank c = false

theorem dropWhile_of_head {cs : List Char} (h : ∀ c ∈ cs.head?, isBlank c = false) :
    cs.dropWhile isBlank = cs := by
  cases cs with
  | nil => rfl
  | cons c cs => rw [List.dropWhile_cons_of_neg (by simp [h c rfl])]

theorem dropEndWhile_of_getLast {cs : List Char} (h : ∀ c ∈ cs.getLast?, isBlank c = false) :
    dropEndWhile isBlank cs = cs := by
  rw [dropEndWhile, dropWhile_of_head (by simpa using h), List.reverse_reverse]

theorem Tight.trimChars_eq {cs : List Char} (h : Tight cs) : trimChars cs = cs := by
  rw [trimChars, dropWhile_of_head h.first, dropEndWhile_of_getLast h.last]

/-- White space around a text is removed, and nothing else. -/
theorem Tight.trim_around {s before after : String} (h : Tight s.toList)
    (hbefore : isBlankText before = true) (hafter : isBlankText after = true) :
    trim (before ++ s ++ after) = s := by
  have hchars : trimChars (before ++ s ++ after).toList = s.toList := by
    rw [String.toList_append, String.toList_append, trimChars, List.append_assoc,
      dropWhile_blank hbefore]
    cases hs : s.toList with
    | nil =>
      have hnil : after.toList.dropWhile isBlank = [] := by
        rw [← List.append_nil after.toList, dropWhile_blank hafter]
        rfl
      simp [hnil, dropEndWhile]
    | cons c cs =>
      have hc : isBlank c = false := h.first c (by simp [hs])
      rw [List.cons_append, List.dropWhile_cons_of_neg (by simp [hc]), ← List.cons_append, ← hs,
        dropEndWhile_blank hafter, dropEndWhile_of_getLast h.last]
  rw [trim, hchars, String.ofList_toList]

end Text

namespace Source

/-! ## The texts of the lines -/

/-- The texts of the lines, in order. -/
def texts (source : String) : List String :=
  (lines source).map (·.content)

/-- A text without one carriage return at its end. -/
def withoutReturn (text : String) : String :=
  String.ofList (dropCarriageReturn text.toList)

theorem withoutReturn_cases (text : String) :
    withoutReturn text = text ∨ text.toList = (withoutReturn text).toList ++ ['\r'] := by
  unfold withoutReturn dropCarriageReturn
  split
  · next h =>
    obtain ⟨cs, hcs⟩ := List.getLast?_eq_some_iff.1 h
    exact .inr (by simp [hcs])
  · exact .inl (by simp)

theorem contents_numbered (number offset : Nat) (ps : List (List Char)) :
    (numbered number offset ps).map (·.content) =
      ps.map fun piece => withoutReturn (String.ofList piece) := by
  induction ps generalizing number offset with
  | nil => rfl
  | cons piece ps ih => simp [numbered, ih, withoutReturn]

theorem texts_eq (source : String) :
    texts source =
      (Text.pieces '\n' source.toList).map fun piece => withoutReturn (String.ofList piece) :=
  contents_numbered _ _ _

theorem texts_ne_nil (source : String) : texts source ≠ [] := by
  simp [texts_eq, Text.pieces_ne_nil]

theorem oneLine_withoutReturn {text : String} (h : Text.OneLine text) :
    Text.OneLine (withoutReturn text) := by
  rcases withoutReturn_cases text with heq | heq
  · rwa [heq]
  · rw [Text.OneLine, heq] at h
    exact fun hmem => h (List.mem_append_left _ hmem)

theorem oneLine_texts (source : String) : ∀ text ∈ texts source, Text.OneLine text := by
  intro text h
  rw [texts_eq, List.mem_map] at h
  obtain ⟨piece, hpiece, rfl⟩ := h
  apply oneLine_withoutReturn
  rw [Text.OneLine, String.toList_ofList]
  exact Text.not_mem_of_mem_pieces hpiece

theorem pieces_intercalate {outs : List String} (hne : outs ≠ [])
    (h : ∀ out ∈ outs, Text.OneLine out) :
    Text.pieces '\n' ("\n".intercalate outs).toList = outs.map String.toList := by
  have hsplit : ∀ piece ∈ outs.map String.toList, '\n' ∉ piece := by
    exact List.forall_mem_map.2 h
  rw [Text.pieces_eq_splitOn, String.toList_intercalate]
  exact List.splitOn_intercalate '\n' hsplit (by simpa using hne)

/-- **Joined lines are split again**, up to a carriage return at the end of each. -/
theorem texts_intercalate {outs : List String} (hne : outs ≠ [])
    (h : ∀ out ∈ outs, Text.OneLine out) :
    texts ("\n".intercalate outs) = outs.map withoutReturn := by
  rw [texts_eq, pieces_intercalate hne h, List.map_map]
  exact List.map_congr_left fun out _ => by simp

/-! ## Ignored texts -/

/-- Whether a line with this text declares nothing. -/
def isIgnored (text : String) : Bool :=
  Line.isIgnored ⟨0, text, ⟨0, 0⟩⟩

theorem texts_significant (source : String) :
    (significant source).map (·.content) = (texts source).filter (!isIgnored ·) := by
  rw [texts, List.filter_map]
  rfl

theorem isIgnored_content (line : Line) : isIgnored line.content = line.isIgnored := rfl

theorem isIgnored_withoutReturn (text : String) :
    isIgnored (withoutReturn text) = isIgnored text := by
  rcases withoutReturn_cases text with heq | heq
  · rw [heq]
  · have hblank : Text.isBlank '\r' = true := by decide
    simp only [isIgnored, Line.isIgnored, heq, Text.trimChars_append hblank]

/-- A text is not ignored when the first character that is not blank opens no comment. -/
theorem isIgnored_eq_false {text : String} {blanks rest : List Char} {c : Char}
    (htext : text.toList = blanks ++ c :: rest) (hblanks : ∀ b ∈ blanks, Text.isBlank b = true)
    (hblank : Text.isBlank c = false) (hcomment : c ≠ '#') : isIgnored text = false := by
  have hdrop : text.toList.dropWhile Text.isBlank = c :: rest := by
    rw [htext, List.dropWhile_append_of_pos hblanks, List.dropWhile_cons_of_neg (by simp [hblank])]
  obtain ⟨more, hmore⟩ := Text.dropEndWhile_cons hblank rest
  simp [isIgnored, Line.isIgnored, Text.trimChars, hdrop, hmore, hcomment]

/-! ## One line in place of another -/

/-- A source with a text in place of one of its lines; lines count from one. -/
def replaceLine (source : String) (number : Nat) (text : String) : String :=
  "\n".intercalate
    (((Text.pieces '\n' source.toList).map String.ofList).set (number - 1) text)

theorem texts_replaceLine (source : String) (number : Nat) {text : String}
    (h : Text.OneLine text) :
    texts (replaceLine source number text) =
      (texts source).set (number - 1) (withoutReturn text) := by
  have hne : ((Text.pieces '\n' source.toList).map String.ofList).set (number - 1) text ≠ [] := by
    simp [Text.pieces_ne_nil]
  rw [replaceLine, texts_intercalate hne, List.map_set, texts_eq, List.map_map]
  · rfl
  · intro out hout
    rcases List.mem_or_eq_of_mem_set hout with hout | rfl
    · obtain ⟨piece, hpiece, rfl⟩ := List.mem_map.1 hout
      rw [Text.OneLine, String.toList_ofList]
      exact Text.not_mem_of_mem_pieces hpiece
    · exact h

theorem getElem?_numbered {number offset : Nat} {ps : List (List Char)} {line : Line}
    (h : line ∈ numbered number offset ps) :
    number ≤ line.number ∧ (numbered number offset ps)[line.number - number]? = some line := by
  induction ps generalizing number offset with
  | nil => cases h
  | cons piece ps ih =>
    rcases List.mem_cons.1 h with rfl | h
    · simp [numbered]
    · obtain ⟨hle, hline⟩ := ih h
      have hsub : line.number - number = line.number - (number + 1) + 1 := by omega
      exact ⟨by omega, by rw [numbered, hsub, List.getElem?_cons_succ, hline]⟩

theorem getElem?_texts {source : String} {line : Line} (h : line ∈ lines source) :
    (texts source)[line.number - 1]? = some line.content := by
  rw [texts, List.getElem?_map, lines, (getElem?_numbered h).2]
  rfl

/-- The texts of a source around one of its lines. -/
theorem texts_split {source : String} {line : Line} (h : line ∈ lines source) :
    texts source = (texts source).take (line.number - 1) ++
      line.content :: (texts source).drop (line.number - 1 + 1) := by
  obtain ⟨hlt, hline⟩ := List.getElem?_eq_some_iff.1 (getElem?_texts h)
  rw [← hline, List.getElem_cons_drop, List.take_append_drop]

theorem texts_replaceLine_split {source text : String} {line : Line} (h : line ∈ lines source)
    (htext : Text.OneLine text) :
    texts (replaceLine source line.number text) = (texts source).take (line.number - 1) ++
      withoutReturn text :: (texts source).drop (line.number - 1 + 1) := by
  obtain ⟨hlt, -⟩ := List.getElem?_eq_some_iff.1 (getElem?_texts h)
  rw [texts_replaceLine source line.number htext, List.set_eq_take_append_cons_drop, if_pos hlt]

theorem mem_take_texts {source : String} {before line : Line} (h : before ∈ lines source)
    (hlt : before.number < line.number) :
    before.content ∈ (texts source).take (line.number - 1) := by
  have hone : 1 ≤ before.number := (getElem?_numbered h).1
  have htake : ((texts source).take (line.number - 1))[before.number - 1]? =
      some before.content := by
    rw [List.getElem?_take_of_lt (by omega), getElem?_texts h]
  exact List.mem_of_getElem? htake

end Source

end StructuredCall
