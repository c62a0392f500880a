import StructuredCall.Proofs.Place

/-!
# Tiling of a source

A source is made up of its lines and their ends, and a line that is read is made up of its tokens
and gaps. Nothing is lost and nothing is in two places: the lines stand one behind the other, joined
with the ends that are written (`Source.ends`) they are the source, and the same holds of the tokens
of a line with the gaps between them.

The relation `Token.Tiles` goes through a line from the left, as the reader does, and says where
every token stands (`Token.tiles_scan`). That the tokens are in order, within the line and around
all that is no gap is read off it.

Main result: `Source.tokens_tile`.
-/

namespace StructuredCall

/-- The span has a byte. -/
def Span.Holds (span : Span) (place : Nat) : Prop :=
  span.start ≤ place ∧ place < span.stop

/-! ## The tokens of a line -/

namespace Token

/-- Tokens and gaps make up a text whose first byte is at `offset`. -/
inductive Tiles : Nat → List Char → List Token → Prop
  | nil {offset : Nat} : Tiles offset [] [⟨.endOfLine, ⟨offset, offset⟩⟩]
  | gap {offset : Nat} {c : Char} {rest : List Char} {tokens : List Token} : isGap c = true →
    Tiles (offset + c.utf8Size) rest tokens → Tiles offset (c :: rest) tokens
  | token {offset : Nat} {kind : Kind} {text rest : List Char} {tokens : List Token} :
    kind.text.toList = text → text ≠ [] → (∀ c ∈ text, isGap c = false) →
    Tiles (offset + Text.utf8Length text) rest tokens →
    Tiles offset (text ++ rest) (⟨kind, ⟨offset, offset + Text.utf8Length text⟩⟩ :: tokens)

theorem not_isGap_of_mem_takeWord {cs word rest : List Char} (h : takeWord cs = (word, rest)) :
    ∀ c ∈ word, isGap c = false := by
  intro c hc
  have hmem : c ∈ (takeWord cs).1 := by rwa [h]
  have hends : endsWord c = false := not_endsWord_of_mem_takeWord c hmem
  simp_all [endsWord]

/-- **A line that is read is tiled.** -/
theorem tiles_scan {line : Line} {offset : Nat} {cs : List Char} {tokens : List Token}
    (h : scan line offset cs = .ok tokens) : Tiles offset cs tokens := by
  fun_induction scan line offset cs generalizing tokens with
  | case1 offset =>
    cases h
    exact .nil
  | case2 offset rest ih =>
    obtain ⟨more, hmore, rfl⟩ := Compiled.map_eq_ok.1 h
    have harrow : Kind.arrow.text.toList = ['-', '>'] := rfl
    exact .token harrow (by simp) (by simp [isGap]) (ih hmore)
  | case3 offset c rest _ hgap ih => exact .gap hgap (ih h)
  | case4 => cases h
  | case5 offset c rest _ _ d word after htake =>
    rename_i ih
    obtain ⟨more, hmore, rfl⟩ := Compiled.map_eq_ok.1 h
    have htext : c :: rest = d :: word ++ after := by
      rw [← takeWord_append (c :: rest), htake]
    rw [htext]
    exact .token (by simp [Kind.text]) (by simp) (not_isGap_of_mem_takeWord htake) (ih hmore)

namespace Tiles

variable {offset : Nat} {cs : List Char} {tokens : List Token}

theorem utf8Length_pos {text : List Char} (h : text ≠ []) : 0 < Text.utf8Length text := by
  cases text with
  | nil => exact absurd rfl h
  | cons c cs =>
    have hpos := c.utf8Size_pos
    simp only [Text.utf8Length]
    omega

theorem utf8Length_append (cs ds : List Char) :
    Text.utf8Length (cs ++ ds) = Text.utf8Length cs + Text.utf8Length ds := by
  simp [Text.utf8Length_eq]

theorem within (h : Tiles offset cs tokens) : ∀ token ∈ tokens, offset ≤ token.span.start ∧
    token.span.start ≤ token.span.stop ∧ token.span.stop ≤ offset + Text.utf8Length cs := by
  induction h with
  | nil => simp [Text.utf8Length]
  | gap _ _ ih =>
    intro token hmem
    have htoken := ih token hmem
    simp only [Text.utf8Length]
    omega
  | token _ _ _ _ ih =>
    rw [utf8Length_append]
    refine List.forall_mem_cons.2 ⟨⟨Nat.le_refl _, by simp, by simp⟩, fun token hmem => ?_⟩
    have htoken := ih token hmem
    omega

theorem ordered (h : Tiles offset cs tokens) :
    tokens.Pairwise fun token later => token.span.stop ≤ later.span.start := by
  induction h with
  | nil => simp
  | gap _ _ ih => exact ih
  | token _ _ _ hrest ih => exact List.pairwise_cons.2 ⟨fun later h => (hrest.within later h).1, ih⟩

theorem ended (h : Tiles offset cs tokens) :
    ∃ body, tokens = body ++
        [⟨.endOfLine, ⟨offset + Text.utf8Length cs, offset + Text.utf8Length cs⟩⟩] ∧
      ∀ token ∈ body, token.kind ≠ .endOfLine ∧ token.span.start < token.span.stop := by
  induction h with
  | nil => exact ⟨[], by simp [Text.utf8Length], by simp⟩
  | gap _ _ ih =>
    obtain ⟨body, rfl, hbody⟩ := ih
    exact ⟨body, by simp [Text.utf8Length, Nat.add_assoc], hbody⟩
  | @token _ kind text rest _ htext hne _ _ ih =>
    obtain ⟨body, rfl, hbody⟩ := ih
    refine ⟨_ :: body, by rw [utf8Length_append, ← Nat.add_assoc]; rfl, ?_⟩
    refine List.forall_mem_cons.2 ⟨⟨?_, Nat.lt_add_of_pos_right (utf8Length_pos hne)⟩, hbody⟩
    rintro rfl
    exact hne (by rw [← htext]; rfl)

/-- A character of two texts one behind the other is in one of them. -/
theorem append_eq_append_cons {text rest left right : List Char} {c : Char}
    (h : text ++ rest = left ++ c :: right) :
    (∃ more, text = left ++ c :: more) ∨
      ∃ more, left = text ++ more ∧ rest = more ++ c :: right := by
  rcases List.append_eq_append_iff.1 h with ⟨more, hleft, hrest⟩ | ⟨more, htext, hmore⟩
  · exact .inr ⟨more, hleft, hrest⟩
  · rcases List.cons_eq_append_iff.1 hmore with ⟨rfl, hrest⟩ | ⟨inner, rfl, -⟩
    · exact .inr ⟨[], by simpa using htext.symm, hrest⟩
    · exact .inl ⟨inner, htext⟩

/-- **A character is a gap exactly if no token has it.** -/
theorem gap_iff (h : Tiles offset cs tokens) {left right : List Char} {c : Char}
    (hcs : cs = left ++ c :: right) : isGap c = true ↔
      ∀ token ∈ tokens, ¬ token.span.Holds (offset + Text.utf8Length left) := by
  induction h generalizing left with
  | nil => simp at hcs
  | @gap offset d rest tokens hgap hrest ih =>
    cases left with
    | nil =>
      obtain ⟨rfl, rfl⟩ : d = c ∧ rest = right := by simpa using hcs
      refine ⟨fun _ token hmem hholds => ?_, fun _ => hgap⟩
      have hafter := (hrest.within token hmem).1
      have hpos := d.utf8Size_pos
      simp only [Span.Holds, Text.utf8Length] at hholds
      omega
    | cons first left =>
      obtain ⟨rfl, hleft⟩ := List.cons.inj hcs
      rw [ih hleft, Text.utf8Length, Nat.add_assoc]
  | @token offset kind text rest tokens _ _ hgapless hrest ih =>
    rcases append_eq_append_cons hcs with ⟨more, rfl⟩ | ⟨more, rfl, hrest'⟩
    · -- The first token has the character.
      have hgap : isGap c = false := hgapless c (by simp)
      simp only [hgap, Bool.false_eq_true, List.forall_mem_cons, false_iff, not_and, Span.Holds,
        utf8Length_append, Text.utf8Length]
      have hpos := c.utf8Size_pos
      omega
    · have hbehind : ¬ Span.Holds ⟨offset, offset + Text.utf8Length text⟩
          (offset + (Text.utf8Length text + Text.utf8Length more)) := by
        simp only [Span.Holds]
        omega
      rw [ih hrest', List.forall_mem_cons, utf8Length_append, and_iff_right hbehind, Nat.add_assoc]

end Tiles

/-- The tokens of a line of a source: what is in front of, between and behind them is gaps. -/
structure Tiling (source : String) (line : Line) (tokens : List Token) : Prop where
  ordered : tokens.Pairwise fun token later => token.span.stop ≤ later.span.start
  within : ∀ token ∈ tokens, line.span.start ≤ token.span.start ∧
    token.span.start ≤ token.span.stop ∧ token.span.stop ≤ line.span.stop
  /-- The bytes of a token in the source are its text. -/
  texts : ∀ token ∈ tokens, token.span.Marks 0 source token.kind.text
  /-- A character is a gap exactly if no token has it. -/
  gaps : ∀ left c right, line.content.toList = left ++ c :: right → (isGap c = true ↔
    ∀ token ∈ tokens, ¬ token.span.Holds (line.span.start + Text.utf8Length left))
  /-- The end of the line, and no other token, is an end of a line, and it alone is empty. -/
  ended : ∃ body, tokens = body ++ [⟨.endOfLine, ⟨line.span.stop, line.span.stop⟩⟩] ∧
    ∀ token ∈ body, token.kind ≠ .endOfLine ∧ token.span.start < token.span.stop

end Token

/-! ## The lines of a source -/

namespace Source

/-- The carriage return that is no part of a line's content, where there is one. -/
def removedReturn (raw : String) : String :=
  if raw.toList.getLast? = some '\r' then "\r" else ""

/-- The ends of written lines. There is no line feed behind the last of them. -/
def endsOf : List String → List String
  | [] => []
  | [raw] => [removedReturn raw]
  | raw :: rest => (removedReturn raw ++ "\n") :: endsOf rest

/-- The ends of the lines of a source, as they are written. -/
def ends (source : String) : List String :=
  endsOf (written source)

theorem withoutReturn_append (raw : String) : withoutReturn raw ++ removedReturn raw = raw := by
  rw [← String.toList_inj, String.toList_append, withoutReturn, dropCarriageReturn, removedReturn]
  split
  · next h =>
    obtain ⟨cs, hcs⟩ := List.getLast?_eq_some_iff.1 h
    simp [hcs]
  · simp

theorem join_endsOf {raws : List String} (h : raws ≠ []) :
    String.join (List.zipWith (· ++ ·) (raws.map withoutReturn) (endsOf raws)) =
      "\n".intercalate raws := by
  fun_induction endsOf raws with
  | case1 => exact absurd rfl h
  | case2 raw => simp [withoutReturn_append]
  | case3 raw rest hrest ih =>
    obtain ⟨next, more, rfl⟩ := List.exists_cons_of_ne_nil fun hnil => hrest hnil
    rw [String.intercalate_cons_cons, ← ih (List.cons_ne_nil _ _), List.map_cons,
      List.zipWith_cons_cons, String.join_cons, ← String.append_assoc, withoutReturn_append]

/-- **The lines with their ends are the source.** -/
theorem join_ends (source : String) :
    String.join (List.zipWith (fun line ending => line.content ++ ending) (lines source)
      (ends source)) = source := by
  have hcontents : (lines source).map (·.content) = (written source).map withoutReturn := by
    rw [lines_eq, linesOf, contents_numbered, List.map_map]
    simp [Function.comp_def]
  have hne : written source ≠ [] := by simp [written, Text.pieces_ne_nil]
  have hjoin := join_endsOf hne
  rwa [← hcontents, List.zipWith_map_left, intercalate_written] at hjoin

theorem marks_content {source : String} {line : Line} (h : line ∈ lines source) :
    line.span.Marks 0 source line.content := by
  obtain ⟨earlier, raw, later, hwritten, rfl⟩ := mem_lines_iff.1 h
  exact marks_of_lineAfter hwritten (Span.marks_whole _ _)

theorem tiling_of_ofLine {source : String} {line : Line} {tokens : List Token}
    (hline : line ∈ lines source) (h : Token.ofLine line = .ok tokens) :
    Token.Tiling source line tokens := by
  have htiles := Token.tiles_scan h
  have hlocated := Token.located_ofLine line
  obtain ⟨earlier, raw, later, hwritten, rfl⟩ := mem_lines_iff.1 hline
  have hstop : (lineAfter earlier raw).span.stop = (lineAfter earlier raw).span.start +
      Text.utf8Length (lineAfter earlier raw).content.toList := by
    simp [lineAfter, Text.utf8Length_eq]
  rw [h] at hlocated
  constructor
  case ordered => exact htiles.ordered
  case within => rw [hstop]; exact htiles.within
  case texts => exact fun token hmem => marks_of_lineAfter hwritten (hlocated token hmem)
  case gaps => exact fun left c right hcontent => htiles.gap_iff hcontent
  case ended => rw [hstop]; exact htiles.ended

/-- **A source is tiled by its lines and their ends, and a line that is read by its tokens and
gaps.** -/
theorem tokens_tile (source : String) :
    String.join (List.zipWith (fun line ending => line.content ++ ending) (lines source)
      (ends source)) = source ∧
    ∀ line ∈ lines source, line.span.Marks 0 source line.content ∧
      ∀ tokens, Token.ofLine line = .ok tokens → Token.Tiling source line tokens :=
  ⟨join_ends source, fun _ hline =>
    ⟨marks_content hline, fun _ hread => tiling_of_ofLine hline hread⟩⟩

/-- Both kinds of line ends, a letter of two bytes and an arrow between words. -/
theorem tokens_tile_of_returns :
    let line : Line := ⟨2, "\tñ->-1 ", ⟨3, 11⟩⟩
    let tokens : List Token :=
      [⟨.word "ñ", ⟨4, 6⟩⟩, ⟨.arrow, ⟨6, 8⟩⟩, ⟨.word "-1", ⟨8, 10⟩⟩, ⟨.endOfLine, ⟨11, 11⟩⟩]
    line ∈ lines "#\r\n\tñ->-1 \n\r" ∧ Token.ofLine line = .ok tokens ∧
      ends "#\r\n\tñ->-1 \n\r" = ["\r\n", "\n", "\r"] ∧
      Token.Tiling "#\r\n\tñ->-1 \n\r" line tokens := by
  intro line tokens
  have hline : line ∈ lines "#\r\n\tñ->-1 \n\r" := by decide +kernel
  have hread : Token.ofLine line = .ok tokens := by decide +kernel
  exact ⟨hline, hread, by decide +kernel, ((tokens_tile _).2 line hline).2 tokens hread⟩

end Source

end StructuredCall
