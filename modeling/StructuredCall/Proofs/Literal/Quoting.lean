import Mathlib.Logic.Function.Basic
import Mathlib.Tactic.SplitIfs
import StructuredCall.Target.Php

/-!
# Quoting

A quoted text is a text between two marks, in which every character is written on its own: as
itself, or as a backslash and one more character. So no mark inside ends it, and what stands
behind it is told apart from it (`Quoting.Sound.read`).

The quotings of the target languages are `Quoting.plain`, with one mark or another, and
`Quoting.dollar`, in which a dollar sign is escaped too.
-/

namespace StructuredCall

/-- How a text is quoted: the mark at both ends, and how each character is written. -/
structure Quoting where
  mark : Char
  write : Char → List Char

namespace Quoting

def chars (q : Quoting) (cs : List Char) : List Char :=
  q.mark :: cs.flatMap q.write ++ [q.mark]

def text (q : Quoting) (s : String) : String :=
  String.ofList (q.chars s.toList)

@[simp] theorem toList_text (q : Quoting) (s : String) : (q.text s).toList = q.chars s.toList := by
  simp [text]

theorem text_ne_empty (q : Quoting) (s : String) : q.text s ≠ "" := by
  simp [text, chars]

/-- The form of a character between marks: itself, or two characters of which the first is a
backslash. No line break is in it. -/
inductive Written (mark c : Char) : List Char → Prop
  | itself (notMark : c ≠ mark) (notBackslash : c ≠ '\\') (notFeed : c ≠ '\n')
    (notReturn : c ≠ '\r') : Written mark c [c]
  | escaped (d : Char) (notFeed : d ≠ '\n') (notReturn : d ≠ '\r') : Written mark c ['\\', d]

/-- Different characters are written differently, and each in one of the two forms. -/
structure Sound (q : Quoting) : Prop where
  isMark : q.mark = '"' ∨ q.mark = '\''
  written : ∀ c, Written q.mark c (q.write c)
  injective : Function.Injective q.write

/-! ## Reading -/

namespace Sound

variable {q : Quoting} (hq : q.Sound)
include hq

theorem mark_ne : q.mark ≠ '\\' ∧ q.mark ≠ '\n' ∧ q.mark ≠ '\r' := by
  rcases hq.isMark with h | h <;> rw [h] <;> decide

theorem write_ne_mark (c : Char) (r s : List Char) : q.write c ++ r ≠ q.mark :: s := by
  intro h
  have hw := hq.written c
  generalize q.write c = w at h hw
  cases hw with
  | itself notMark => exact notMark (List.cons.inj h).1
  | escaped d => exact hq.mark_ne.1 (List.cons.inj h).1.symm

theorem write_append {c d : Char} {r s : List Char} (h : q.write c ++ r = q.write d ++ s) :
    c = d ∧ r = s := by
  suffices hw : q.write c = q.write d by
    rw [hw] at h
    exact ⟨hq.injective hw, List.append_cancel_left h⟩
  have hc := hq.written c
  have hd := hq.written d
  generalize q.write c = v at h hc ⊢
  generalize q.write d = w at h hd ⊢
  cases hc with
  | itself _ notBackslash => cases hd <;> simp_all
  | escaped => cases hd <;> simp_all [eq_comm]

/-- **A quoted text is told apart from what follows it.** -/
theorem read {cs ds r s : List Char} (h : q.chars cs ++ r = q.chars ds ++ s) :
    cs = ds ∧ r = s := by
  replace h : cs.flatMap q.write ++ q.mark :: r = ds.flatMap q.write ++ q.mark :: s := by
    simpa [chars] using h
  induction cs generalizing ds with
  | nil =>
    cases ds with
    | nil => simpa using h
    | cons d ds =>
      simp only [List.flatMap_nil, List.nil_append, List.flatMap_cons, List.append_assoc] at h
      exact absurd h.symm (hq.write_ne_mark d _ _)
  | cons c cs ih =>
    cases ds with
    | nil =>
      simp only [List.flatMap_nil, List.nil_append, List.flatMap_cons, List.append_assoc] at h
      exact absurd h (hq.write_ne_mark c _ _)
    | cons d ds =>
      simp only [List.flatMap_cons, List.append_assoc] at h
      obtain ⟨rfl, hrest⟩ := hq.write_append h
      obtain ⟨rfl, rfl⟩ := ih hrest
      exact ⟨rfl, rfl⟩

end Sound

/-! ## The quotings of the languages -/

/-- Only what the form needs is escaped. -/
def plain (mark : Char) : Quoting :=
  ⟨mark, Text.quotedChar mark⟩

/-- A dollar sign is escaped too. -/
def dollar : Quoting :=
  ⟨'"', fun c => if c = '$' then ['\\', '$'] else Text.quotedChar '"' c⟩

theorem text_dollar (s : String) : dollar.text s = Target.Php.stringLiteral s := by
  have hwrite : ∀ c, (Text.quotedChar '"' c).flatMap (fun d => if d = '$' then ['\\', '$'] else [d])
      = dollar.write c := by
    intro c
    simp only [dollar, Text.quotedChar]
    split_ifs <;> simp_all
  apply String.ext
  simp [Target.Php.stringLiteral, Text.escapeDollars, Text.quoted, Text.quotedChars, chars,
    List.flatMap_assoc, hwrite, dollar]

/-- The character that is written in some way. `n`, `r` and `t` stand for others only behind a
backslash. -/
def readChar : List Char → Char
  | [c] => c
  | [_, 'n'] => '\n'
  | [_, 'r'] => '\r'
  | [_, 't'] => '\t'
  | [_, c] => c
  | _ => default

theorem readChar_quotedChar {mark : Char} (h : mark = '"' ∨ mark = '\'') (c : Char) :
    readChar (Text.quotedChar mark c) = c := by
  unfold Text.quotedChar
  split_ifs with hb hf hr ht hm
  · exact hb.symm
  · exact hf.symm
  · exact hr.symm
  · exact ht.symm
  · subst hm
    rcases h with rfl | rfl <;> rfl
  · rfl

theorem written_quotedChar (mark c : Char) :
    Written mark c (Text.quotedChar mark c) := by
  unfold Text.quotedChar
  split_ifs with hb hf hr ht hm
  · exact .escaped '\\' (by decide) (by decide)
  · exact .escaped 'n' (by decide) (by decide)
  · exact .escaped 'r' (by decide) (by decide)
  · exact .escaped 't' (by decide) (by decide)
  · exact .escaped c hf hr
  · exact .itself hm hb hf hr

theorem sound_plain {mark : Char} (h : mark = '"' ∨ mark = '\'') : (plain mark).Sound :=
  ⟨h, written_quotedChar mark, Function.LeftInverse.injective (readChar_quotedChar h)⟩

theorem sound_dollar : dollar.Sound where
  isMark := .inl rfl
  written c := by
    simp only [dollar]
    split_ifs
    · exact .escaped '$' (by decide) (by decide)
    · exact written_quotedChar _ c
  injective := by
    refine Function.LeftInverse.injective (g := readChar) fun c => ?_
    simp only [dollar]
    split_ifs with h
    · exact h.symm
    · exact readChar_quotedChar (.inl rfl) c

end Quoting

end StructuredCall
