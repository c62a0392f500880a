import StructuredCall.Proofs.Token

/-!
# Places in a source

A span counts bytes from the start of the source. Here the counting is related to the text: the
lines of a source stand where `lineAfter` says, given the lines before them as they are written
(`Source.lines_eq_append`), and the tokens of a line stand where their texts are found
(`Token.marks_of_ofLine`).
-/

namespace StructuredCall

/-! ## Bytes -/

theorem Text.utf8Length_eq (cs : List Char) :
    utf8Length cs = (String.ofList cs).utf8ByteSize := by
  induction cs with
  | nil => rfl
  | cons c cs ih =>
    rw [utf8Length, ih, String.ofList_cons, String.utf8ByteSize_append,
      String.utf8ByteSize_singleton]

namespace Span

/-- The bytes of a span are those of `part`, in a text whose first byte is at `offset`. -/
def Marks (span : Span) (offset : Nat) (text part : String) : Prop :=
  ∃ left right, text = left ++ part ++ right ∧
    span.start = offset + left.utf8ByteSize ∧ span.stop = span.start + part.utf8ByteSize

section

variable {span : Span} {offset : Nat} {text part : String}

theorem marks_front (offset : Nat) (part right : String) :
    Marks ⟨offset, offset + part.utf8ByteSize⟩ offset (part ++ right) part :=
  ⟨"", right, by simp, by simp, rfl⟩

theorem marks_whole (offset : Nat) (text : String) :
    Marks ⟨offset, offset + text.utf8ByteSize⟩ offset text text := by
  simpa using marks_front offset text ""

theorem Marks.append_left (left : String)
    (h : span.Marks (offset + left.utf8ByteSize) text part) :
    span.Marks offset (left ++ text) part := by
  obtain ⟨before, right, rfl, hstart, hstop⟩ := h
  refine ⟨left ++ before, right, by simp only [String.append_assoc], ?_, hstop⟩
  rw [hstart, String.utf8ByteSize_append, Nat.add_assoc]

theorem Marks.append_right (right : String) (h : span.Marks offset text part) :
    span.Marks offset (text ++ right) part := by
  obtain ⟨left, after, rfl, hplace⟩ := h
  exact ⟨left, after ++ right, by simp only [String.append_assoc], hplace⟩

theorem Marks.within (h : span.Marks offset text part) :
    offset ≤ span.start ∧ span.start ≤ span.stop ∧ span.stop ≤ offset + text.utf8ByteSize := by
  obtain ⟨left, right, rfl, hstart, hstop⟩ := h
  simp only [String.utf8ByteSize_append]
  omega

end

end Span

/-! ## Lines -/

namespace Source

/-- The lines as they are written, carriage returns included. -/
def written (source : String) : List String :=
  (Text.pieces '\n' source.toList).map String.ofList

theorem intercalate_written (source : String) : "\n".intercalate (written source) = source := by
  rw [← String.toList_inj, String.toList_intercalate, written, List.map_map]
  simpa [Function.comp_def] using Text.intercalate_pieces '\n' source.toList

/-- **Joined lines are written again.** -/
theorem written_intercalate {raws : List String} (hne : raws ≠ [])
    (h : ∀ raw ∈ raws, Text.OneLine raw) : written ("\n".intercalate raws) = raws := by
  rw [written, pieces_intercalate hne h]
  simp [Function.comp_def]

theorem oneLine_of_mem_written {source raw : String} (h : raw ∈ written source) :
    Text.OneLine raw := by
  obtain ⟨piece, hpiece, rfl⟩ := List.mem_map.1 h
  rw [Text.OneLine, String.toList_ofList]
  exact Text.not_mem_of_mem_pieces hpiece

/-- Written lines with a line feed after each. -/
def closed (raws : List String) : String :=
  String.join (raws.map (· ++ "\n"))

theorem intercalate_append (earlier : List String) (raw : String) (later : List String) :
    ∃ rest, "\n".intercalate (earlier ++ raw :: later) = closed earlier ++ raw ++ rest := by
  induction earlier with
  | nil =>
    cases later with
    | nil => exact ⟨"", by simp [closed]⟩
    | cons next later =>
      exact ⟨"\n" ++ "\n".intercalate (next :: later), by
        simp [closed, String.intercalate_cons_cons, String.append_assoc]⟩
  | cons first earlier ih =>
    obtain ⟨rest, hrest⟩ := ih
    obtain ⟨second, more, hmore⟩ := List.exists_cons_of_ne_nil
      (show earlier ++ raw :: later ≠ [] by simp)
    refine ⟨rest, ?_⟩
    rw [List.cons_append, hmore, String.intercalate_cons_cons, ← hmore, hrest]
    simp [closed, String.append_assoc]

/-- The first byte of a line, which follows the lines before it. -/
def lineStart (source : String) (number : Nat) : Nat :=
  (closed ((written source).take (number - 1))).utf8ByteSize

/-- The whole of the line that an error is about. -/
def wholeLine (source : String) (line : Line) : Line :=
  let start := lineStart source line.number
  line.narrow ⟨start, start + line.content.utf8ByteSize⟩

/-- The line that is written as `raw` after the lines `earlier`. -/
def lineAfter (earlier : List String) (raw : String) : Line :=
  let start := (closed earlier).utf8ByteSize
  let content := withoutReturn raw
  ⟨earlier.length + 1, content, ⟨start, start + content.utf8ByteSize⟩⟩

/-- The lines that are written as `raws` at the start of a source. -/
def linesOf (raws : List String) : List Line :=
  numbered 1 0 (raws.map String.toList)

theorem lines_eq (source : String) : lines source = linesOf (written source) := by
  simp [lines, linesOf, written, Function.comp_def]

theorem numbered_append (number offset : Nat) (before after : List (List Char)) :
    numbered number offset (before ++ after) = numbered number offset before ++
      numbered (number + before.length)
        (offset + (closed (before.map String.ofList)).utf8ByteSize) after := by
  induction before generalizing number offset with
  | nil => simp [numbered, closed]
  | cons piece before ih =>
    have hnumber : number + 1 + before.length = number + (before.length + 1) := by omega
    have hoffset : offset + Text.utf8Length piece + 1 +
          (closed (before.map String.ofList)).utf8ByteSize =
        offset + (closed ((piece :: before).map String.ofList)).utf8ByteSize := by
      simp only [closed, List.map_cons, String.join_cons, String.utf8ByteSize_append,
        Text.utf8Length_eq, show "\n".utf8ByteSize = 1 from rfl]
      omega
    rw [List.cons_append, numbered, ih, hnumber, hoffset, numbered]
    rfl

theorem linesOf_append (earlier : List String) (raw : String) (later : List String) :
    ∃ rest, linesOf (earlier ++ raw :: later) =
      linesOf earlier ++ lineAfter earlier raw :: rest := by
  simp only [linesOf, List.map_append, List.map_cons, numbered_append, List.map_map,
    Function.comp_def, String.ofList_toList, List.map_id', numbered]
  refine ⟨_, congrArg _ (congrArg₂ _ ?_ rfl)⟩
  simp only [lineAfter, withoutReturn, Text.utf8Length_eq, List.length_map, Nat.zero_add,
    Nat.add_comm 1]

theorem length_linesOf (raws : List String) : (linesOf raws).length = raws.length := by
  have hcontents := congrArg List.length (contents_numbered 1 0 (raws.map String.toList))
  simpa [linesOf] using hcontents

/-- **A line of a source stands after the lines before it**, as these are written. -/
theorem linesOf_eq_append {raws : List String} {before after : List Line} {line : Line}
    (h : linesOf raws = before ++ line :: after) : ∃ earlier raw later,
      raws = earlier ++ raw :: later ∧ before = linesOf earlier ∧ line = lineAfter earlier raw := by
  have hlt : before.length < raws.length := by
    rw [← length_linesOf, h]
    simp
  have hraws : raws = raws.take before.length ++ raws[before.length] ::
      raws.drop (before.length + 1) := by
    rw [List.getElem_cons_drop, List.take_append_drop]
  obtain ⟨rest, hrest⟩ := linesOf_append (raws.take before.length) raws[before.length]
    (raws.drop (before.length + 1))
  rw [← hraws, h] at hrest
  have hlength : before.length = (linesOf (raws.take before.length)).length := by
    rw [length_linesOf, List.length_take, Nat.min_eq_left (by omega)]
  obtain ⟨hbefore, hline⟩ := List.append_inj hrest hlength
  exact ⟨_, _, _, hraws, hbefore, (List.cons.inj hline).1⟩

theorem mem_lines_iff {source : String} {line : Line} : line ∈ lines source ↔ ∃ earlier raw later,
    written source = earlier ++ raw :: later ∧ line = lineAfter earlier raw := by
  rw [lines_eq]
  constructor
  · intro h
    obtain ⟨before, after, hlines⟩ := List.append_of_mem h
    obtain ⟨earlier, raw, later, hwritten, -, hline⟩ := linesOf_eq_append hlines
    exact ⟨earlier, raw, later, hwritten, hline⟩
  · rintro ⟨earlier, raw, later, hwritten, rfl⟩
    obtain ⟨rest, hrest⟩ := linesOf_append earlier raw later
    rw [hwritten, hrest]
    exact List.mem_append_right _ List.mem_cons_self

/-- What is marked on a line is marked in the source. -/
theorem marks_of_lineAfter {source raw part : String} {earlier later : List String} {span : Span}
    (hwritten : written source = earlier ++ raw :: later)
    (h : span.Marks (closed earlier).utf8ByteSize (withoutReturn raw) part) :
    span.Marks 0 source part := by
  obtain ⟨rest, hrest⟩ := intercalate_append earlier raw later
  rw [← hwritten, intercalate_written] at hrest
  obtain ⟨cut, hcut⟩ : ∃ cut, raw = withoutReturn raw ++ cut := by
    rcases withoutReturn_cases raw with heq | heq
    · exact ⟨"", by simp [heq]⟩
    · exact ⟨"\r", by simpa [← String.toList_inj] using heq⟩
  generalize withoutReturn raw = content at h hcut
  subst hcut
  have hsource : source = closed earlier ++ (content ++ (cut ++ rest)) := by
    simpa only [String.append_assoc] using hrest
  rw [hsource]
  refine Span.Marks.append_left _ (Span.Marks.append_right _ ?_)
  simpa using h

end Source

/-! ## Tokens -/

namespace Token

def Kind.text : Kind → String
  | .arrow => "->"
  | .word text => text
  | .endOfLine => ""

/-- The token is where its text is, in a text whose first byte is at `offset`. -/
def Stands (token : Token) (offset : Nat) (text : String) : Prop :=
  token.span.Marks offset text token.kind.text

/-- What reading a text finds: tokens where their texts are, or a character that starts no
token, where this character is. -/
def Located (line : Line) (offset : Nat) (text : String) : Compiled (List Token) → Prop
  | .ok tokens => ∀ token ∈ tokens, token.Stands offset text
  | .error e => ∃ c span, e = .malformed (.unexpectedCharacter c) (line.narrow span) ∧
      span.Marks offset text (String.singleton c)

variable {line : Line} {offset : Nat} {left text : String} {result : Compiled (List Token)}

theorem Located.append_left
    (h : Located line (offset + left.utf8ByteSize) text result) :
    Located line offset (left ++ text) result := by
  cases result with
  | ok tokens => exact fun token hmem => (h token hmem).append_left left
  | error e =>
    obtain ⟨c, span, he, hmarks⟩ := h
    exact ⟨c, span, he, hmarks.append_left left⟩

theorem Located.cons {kind : Kind} (hkind : kind.text = left)
    (h : Located line (offset + left.utf8ByteSize) text result) :
    Located line offset (left ++ text)
      (result.map (⟨kind, ⟨offset, offset + left.utf8ByteSize⟩⟩ :: ·)) := by
  have hrest := h.append_left
  cases result with
  | ok tokens =>
    refine List.forall_mem_cons.2 ⟨?_, hrest⟩
    subst hkind
    exact Span.marks_front offset kind.text text
  | error e => exact hrest

theorem located_scan (line : Line) (offset : Nat) (cs : List Char) :
    Located line offset (String.ofList cs) (scan line offset cs) := by
  fun_induction scan line offset cs with
  | case1 offset =>
    simp only [Located, List.mem_singleton, forall_eq]
    exact Span.marks_whole offset ""
  | case2 offset rest ih =>
    have htext : String.ofList ('-' :: '>' :: rest) = "->" ++ String.ofList rest := by
      simp [← String.toList_inj]
    rw [htext]
    exact Located.cons rfl ih
  | case3 offset c rest _ _ ih =>
    rw [String.ofList_cons]
    exact Located.append_left (by simpa using ih)
  | case4 offset c rest =>
    refine ⟨c, _, rfl, ?_⟩
    rw [String.ofList_cons, ← String.utf8ByteSize_singleton]
    exact Span.marks_front offset _ _
  | case5 offset c rest _ _ d word after htake stop ih =>
    have htext : String.ofList (c :: rest) = String.ofList (d :: word) ++ String.ofList after := by
      rw [← String.ofList_append, ← takeWord_append (c :: rest), htake]
    rw [htext]
    simp only [stop, Text.utf8Length_eq] at ih ⊢
    exact Located.cons rfl ih

/-- **A line is read where it stands.** -/
theorem located_ofLine (line : Line) :
    Located line line.span.start line.content (ofLine line) := by
  simpa [ofLine] using located_scan line line.span.start line.content.toList

end Token

end StructuredCall
