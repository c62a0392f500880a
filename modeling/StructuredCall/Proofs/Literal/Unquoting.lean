import StructuredCall.Proofs.Literal.Quoting

/-!
# Reading quoted texts

Languages read a quoted text from behind its first mark, one character after another. A backslash
is read together with the character behind it, and the two stand for one character; any other
character stands for itself, up to the mark. An `Unquoting` says what stands for what.

Reading undoes a quoting if each character is written as something that is read as the character
(`Quoting.UndoneBy`). Then a reader cannot get out of step with the writer, whatever the text is: it
has read a character whenever the writer has written one, so every mark that it meets inside is
behind a backslash that waits for it.

Main results: `Text.reads_quoted_iff` for all marks, and `Target.Php.reads_stringLiteral`, where
dollar signs must be escaped too.
-/

namespace StructuredCall

/-- How quoted texts are read: the mark at their end, what a character behind a backslash stands
for, and which other characters do not stand for themselves. -/
structure Unquoting where
  mark : Char
  escape : Char → Option Char
  special : Char → Bool := fun _ => false

namespace Unquoting

/-- Reads up to the mark: the text, and what is behind the mark. -/
def read? (u : Unquoting) : List Char → Option (List Char × List Char)
  | [] => none
  | ['\\'] => none
  | '\\' :: d :: rest =>
    (u.escape d).bind fun c => (u.read? rest).map fun (text, behind) => (c :: text, behind)
  | c :: rest =>
    if c = u.mark then some ([], rest)
    else if u.special c then none
    else (u.read? rest).map fun (text, behind) => (c :: text, behind)

/-- Whether the last character is a backslash that waits for the character behind it. -/
def endsEscaping (cs : List Char) : Bool :=
  cs.foldl (fun waits c => !waits && c = '\\') false

/-- A quoted text is read as a text. It begins with the mark. Reading on ends with its last
character, whatever follows. Of the marks behind the first one all but the last are escaped, and so
are all special characters. -/
structure Reads (u : Unquoting) (quoted text : List Char) : Prop where
  opens : quoted.head? = some u.mark
  ends : ∀ behind, u.read? (quoted.tail ++ behind) = some (text, behind)
  marks : ∀ before after, quoted.tail = before ++ u.mark :: after →
    (endsEscaping before = true ↔ after ≠ [])
  specials : ∀ before c after, u.special c = true → quoted.tail = before ++ c :: after →
    endsEscaping before = true

/-! ## One character -/

/-- The character stands for itself. -/
structure Bare (u : Unquoting) (c : Char) : Prop where
  notBackslash : c ≠ '\\'
  notMark : c ≠ u.mark
  notSpecial : u.special c = false

/-- What is written for a character is read as the character. -/
inductive Undoes (u : Unquoting) (c : Char) : List Char → Prop
  | itself (bare : u.Bare c) : Undoes u c [c]
  | escaped {d : Char} (stands : u.escape d = some c) : Undoes u c ['\\', d]

variable {u : Unquoting} {c : Char} {written : List Char}

theorem read?_mark (h : u.mark ≠ '\\') (rest : List Char) :
    u.read? (u.mark :: rest) = some ([], rest) := by
  rw [read?, if_pos rfl]
  · exact fun hmark => absurd hmark h
  · exact fun _ _ hmark => absurd hmark h

/-- Reading takes in what is written for a character. -/
theorem Undoes.read?_append (h : u.Undoes c written) (rest : List Char) :
    u.read? (written ++ rest) =
      (u.read? rest).map fun (text, behind) => (c :: text, behind) := by
  cases h with
  | itself bare =>
    have hspecial : ¬u.special c = true := by simp [bare.notSpecial]
    rw [List.singleton_append, read?, if_neg bare.notMark, if_neg hspecial]
    · exact fun hc => absurd hc bare.notBackslash
    · exact fun _ _ hc => absurd hc bare.notBackslash
  | escaped stands =>
    rw [List.cons_append, List.singleton_append, read?, stands, Option.bind_some]

theorem Undoes.endsEscaping_append (h : u.Undoes c written) (cs : List Char) :
    endsEscaping (written ++ cs) = endsEscaping cs := by
  cases h with
  | itself bare => simp [endsEscaping, bare.notBackslash]
  | escaped => simp [endsEscaping]

/-- A character that does not stand for itself is escaped where it is written. -/
theorem Undoes.escaped_or_behind (h : u.Undoes c written) {x : Char} (hbackslash : x ≠ '\\')
    (hbare : ¬u.Bare x) {rest before after : List Char}
    (hsplit : written ++ rest = before ++ x :: after) :
    endsEscaping before = true ∨ ∃ more, before = written ++ more ∧ rest = more ++ x :: after := by
  cases h with
  | itself bare =>
    cases before with
    | nil =>
      cases hsplit
      exact absurd bare hbare
    | cons d more =>
      cases hsplit
      exact .inr ⟨more, rfl, rfl⟩
  | escaped =>
    match before with
    | [] =>
      cases hsplit
      exact absurd rfl hbackslash
    | [_] =>
      cases hsplit
      exact .inl rfl
    | _ :: _ :: more =>
      cases hsplit
      exact .inr ⟨more, rfl, rfl⟩

end Unquoting

/-! ## All characters -/

namespace Quoting

/-- Reading undoes the quoting. -/
structure UndoneBy (q : Quoting) (u : Unquoting) : Prop where
  mark : u.mark = q.mark
  written : ∀ c, u.Undoes c (q.write c)
  markNotBackslash : u.mark ≠ '\\'
  markNotSpecial : u.special u.mark = false
  backslashNotSpecial : u.special '\\' = false

namespace UndoneBy

open Unquoting (endsEscaping)

variable {q : Quoting} {u : Unquoting} (h : q.UndoneBy u)
include h

theorem read?_chars (cs behind : List Char) :
    u.read? (cs.flatMap q.write ++ u.mark :: behind) = some (cs, behind) := by
  induction cs with
  | nil => exact Unquoting.read?_mark h.markNotBackslash behind
  | cons c cs ih =>
    rw [List.flatMap_cons, List.append_assoc, (h.written c).read?_append, ih, Option.map_some]

theorem endsEscaping_chars (cs : List Char) : endsEscaping (cs.flatMap q.write) = false := by
  induction cs with
  | nil => rfl
  | cons c cs ih => rw [List.flatMap_cons, (h.written c).endsEscaping_append, ih]

/-- In a text everything that does not stand for itself is escaped. -/
theorem endsEscaping_of_split {x : Char} (hbackslash : x ≠ '\\') (hbare : ¬u.Bare x)
    {cs before after : List Char} (hsplit : cs.flatMap q.write = before ++ x :: after) :
    endsEscaping before = true := by
  induction cs generalizing before with
  | nil => simp at hsplit
  | cons c cs ih =>
    rw [List.flatMap_cons] at hsplit
    rcases (h.written c).escaped_or_behind hbackslash hbare hsplit with hends | ⟨more, rfl, hrest⟩
    · exact hends
    · rw [(h.written c).endsEscaping_append]
      exact ih hrest

theorem reads_chars (cs : List Char) : u.Reads (q.chars cs) cs := by
  have hchars : q.chars cs = u.mark :: (cs.flatMap q.write ++ [u.mark]) := by
    rw [h.mark]
    rfl
  have htail : (q.chars cs).tail = cs.flatMap q.write ++ [u.mark] := by rw [hchars, List.tail_cons]
  have hmark : ¬u.Bare u.mark := fun hbare => hbare.notMark rfl
  -- what stands before the last mark is in the text
  have hinside : ∀ {before after : List Char} {x : Char}, (q.chars cs).tail = before ++ x :: after →
      after ≠ [] → ∃ more, cs.flatMap q.write = before ++ x :: more := by
    intro before after x hsplit hafter
    obtain ⟨more, last, rfl⟩ := (List.eq_nil_or_concat after).resolve_left hafter
    rw [htail, List.concat_eq_append, ← List.cons_append, ← List.append_assoc] at hsplit
    exact ⟨more, (List.append_inj' hsplit rfl).1⟩
  refine ⟨by rw [hchars, List.head?_cons], fun behind => ?_, fun before after hsplit => ?_, ?_⟩
  · rw [htail, List.append_assoc, List.singleton_append, h.read?_chars]
  · constructor
    · rintro hends rfl
      rw [htail] at hsplit
      rw [← (List.append_inj' hsplit rfl).1, h.endsEscaping_chars] at hends
      cases hends
    · intro hafter
      obtain ⟨more, hmore⟩ := hinside hsplit hafter
      exact h.endsEscaping_of_split h.markNotBackslash hmark hmore
  · intro before c after hspecial hsplit
    have hbackslash : c ≠ '\\' := by
      rintro rfl
      rw [h.backslashNotSpecial] at hspecial
      cases hspecial
    have hafter : after ≠ [] := by
      rintro rfl
      rw [htail] at hsplit
      obtain ⟨-, hlast⟩ := List.append_inj' hsplit rfl
      obtain rfl : u.mark = c := by simpa using hlast
      rw [h.markNotSpecial] at hspecial
      cases hspecial
    obtain ⟨more, hmore⟩ := hinside hsplit hafter
    refine h.endsEscaping_of_split hbackslash (fun hbare => ?_) hmore
    rw [hbare.notSpecial] at hspecial
    cases hspecial

/-- **Reading undoes quoting**, for every text. -/
theorem reads (s : String) : u.Reads (q.text s).toList s.toList := by
  rw [toList_text]
  exact h.reads_chars s.toList

end UndoneBy

end Quoting

/-! ## Any mark -/

namespace Unquoting

/-- Behind a backslash, a backslash and the mark stand for themselves, and letters for a line feed,
a carriage return and a tab. -/
def plain (mark : Char) : Unquoting where
  mark := mark
  escape d :=
    if d = '\\' then some '\\'
    else if d = 'n' then some '\n'
    else if d = 'r' then some '\r'
    else if d = 't' then some '\t'
    else if d = mark then some mark
    else none

/-- The characters that stand for something else behind a backslash, or are the backslash. -/
def reserved : List Char :=
  ['\\', 'n', 'r', 't']

theorem undoes_quotedChar {mark : Char} (h : mark ∉ reserved) (c : Char) :
    (plain mark).Undoes c (Text.quotedChar mark c) := by
  unfold Text.quotedChar
  split_ifs with hbackslash hfeed hreturn htab hmark
  · exact .escaped (by rw [hbackslash]; rfl)
  · exact .escaped (by rw [hfeed]; rfl)
  · exact .escaped (by rw [hreturn]; rfl)
  · exact .escaped (by rw [htab]; rfl)
  · subst hmark
    simp only [reserved, List.mem_cons, List.not_mem_nil, or_false, not_or] at h
    refine .escaped ?_
    simp [plain, h]
  · exact .itself ⟨hbackslash, hmark, rfl⟩

end Unquoting

theorem Quoting.undoneBy_plain {mark : Char} (h : mark ∉ Unquoting.reserved) :
    (plain mark).UndoneBy (.plain mark) where
  mark := rfl
  written := Unquoting.undoes_quotedChar h
  markNotBackslash := by
    rintro rfl
    exact h List.mem_cons_self
  markNotSpecial := rfl
  backslashNotSpecial := rfl

/-- **The quotings that reading undoes.** With a mark, all texts are read back from between the
marks exactly if the mark is not one of the characters that are reserved for escapes. -/
theorem Text.reads_quoted_iff (mark : Char) :
    (∀ text : String, (Unquoting.plain mark).Reads (quoted mark text).toList text.toList) ↔
      mark ∉ Unquoting.reserved := by
  constructor
  · intro hreads hmark
    simp only [Unquoting.reserved, List.mem_cons, List.not_mem_nil, or_false] at hmark
    rcases hmark with rfl | rfl | rfl | rfl
    · exact absurd ((hreads "").ends []) (by decide)
    · exact absurd ((hreads "n").ends []) (by decide)
    · exact absurd ((hreads "r").ends []) (by decide)
    · exact absurd ((hreads "t").ends []) (by decide)
  · intro hmark text
    exact (Quoting.undoneBy_plain hmark).reads text

/-! ## Dollar signs -/

/-- A dollar sign does not stand for itself, and it does behind a backslash. -/
def Unquoting.dollar : Unquoting where
  mark := '"'
  escape d := if d = '$' then some '$' else (plain '"').escape d
  special c := c = '$'

theorem Quoting.undoneBy_dollar : dollar.UndoneBy .dollar where
  mark := rfl
  written c := by
    simp only [dollar]
    split_ifs with hdollar
    · exact .escaped (by rw [hdollar]; rfl)
    · have hplain := @Unquoting.undoes_quotedChar '"' (by decide) c
      generalize Text.quotedChar '"' c = written at hplain
      cases hplain with
      | itself bare =>
        exact .itself ⟨bare.notBackslash, bare.notMark, decide_eq_false hdollar⟩
      | @escaped d stands =>
        refine .escaped ?_
        have hd : d ≠ '$' := by
          rintro rfl
          cases stands
        simpa [Unquoting.dollar, hd] using stands
  markNotBackslash := by decide
  markNotSpecial := rfl
  backslashNotSpecial := rfl

/-- **String literals of PHP are read back.** Every text is read back from its literal, which ends
at its last character, and every dollar sign in it is escaped. -/
theorem Target.Php.reads_stringLiteral (text : String) :
    Unquoting.dollar.Reads (stringLiteral text).toList text.toList := by
  rw [← Quoting.text_dollar]
  exact Quoting.undoneBy_dollar.reads text

end StructuredCall
