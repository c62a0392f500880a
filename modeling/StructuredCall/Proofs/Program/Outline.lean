import Mathlib.Data.List.Forall2
import StructuredCall.Layout
import StructuredCall.Proofs.Source

/-!
# Outlines

The steps of a program are the same for all data, up to some lines that hold data. An outline says
which steps are the same, and has a slot in place of each other line. Writing an outline gives
lines that are fixed or have a slot; that can be said before any data is there, because what a
writer does next depends on a line only through its being empty, and a line in a slot never is.

**Filling.** `Slotted.Fills` relates an outline to steps, and its lines to lines of text, as long
as what is in a slot is right for the slot. The writers of an outline and of its steps go along with
each other (`Ruling.Matches.step`, `Ruling.Matches.run`).

Main result: `layout_fills` — the lines of all programs with one outline have one template.
-/

namespace StructuredCall

/-! ## Lines of text -/

/-- Lines, each with a line feed behind it, are split again; nothing stands behind the last one. -/
theorem Writer.pieces_text (writer : Writer) : Text.pieces '\n' writer.text.toList =
    writer.lines.flatMap (fun line => Text.pieces '\n' line.toList) ++ [[]] := by
  unfold text
  induction writer.lines with
  | nil => rfl
  | cons line lines ih =>
    rw [List.map_cons, String.join_cons, String.toList_append, String.toList_append,
      List.append_assoc, List.flatMap_cons, List.append_assoc, ← ih]
    exact Text.pieces_append '\n' _ _

theorem Writer.foldl_line (writer : Writer) (texts : List String) :
    texts.foldl Writer.line writer = { writer with
      lines := writer.lines ++ texts.map (Writer.indented writer.indentUnit writer.depth) } := by
  induction texts generalizing writer with
  | nil => simp
  | cons text texts ih => simp [ih, Writer.line]

theorem Writer.indentUnit_step (writer : Writer) (step : Step) :
    (writer.step step).indentUnit = writer.indentUnit := by
  cases step with
  | block text => rw [Writer.step, Writer.foldl_line]
  | blank =>
    rw [Writer.step, Writer.blank]
    split <;> rfl
  | _ => rfl

theorem Writer.indentUnit_run (writer : Writer) (steps : List Step) :
    (writer.run steps).indentUnit = writer.indentUnit := by
  induction steps generalizing writer with
  | nil => rfl
  | cons step steps ih =>
    show ((writer.step step).run steps).indentUnit = _
    rw [ih, indentUnit_step]

/-! ## Slots -/

/-- Something that is fixed, or a slot for it. -/
inductive Slotted (σ α : Type)
  | fixed (a : α)
  | slot (s : σ)

/-- What is there is fixed, or right for its slot. -/
inductive Slotted.Fills {σ α : Type} (holds : σ → α → Prop) : Slotted σ α → α → Prop
  | fixed (a : α) : Fills holds (.fixed a) a
  | slot {s : σ} {a : α} (h : holds s a) : Fills holds (.slot s) a

theorem Slotted.fills_fixed {σ α : Type} (holds : σ → α → Prop) (xs : List α) :
    List.Forall₂ (Fills holds) (xs.map .fixed) xs := by
  rw [List.forall₂_map_left_iff]
  exact List.forall₂_same.2 fun x _ => .fixed x

/-- The slot, where there is one. -/
def Slotted.slot? {σ α : Type} : Slotted σ α → Option σ
  | .fixed _ => none
  | .slot s => some s

/-- Where there is a slot, something right for it stands there. -/
theorem Slotted.exists_of_slot {σ α : Type} {holds : σ → α → Prop} {parts : List (Slotted σ α)}
    {xs : List α} (h : List.Forall₂ (Fills holds) parts xs) {index : Nat} {s : σ}
    (hslot : parts[index]?.bind slot? = some s) : ∃ x, xs[index]? = some x ∧ holds s x := by
  induction h generalizing index with
  | nil => cases hslot
  | cons hx _ ih =>
    cases index with
    | zero =>
      cases hx with
      | fixed => cases hslot
      | slot hholds =>
        cases hslot
        exact ⟨_, rfl, hholds⟩
    | succ index => exact ih hslot

theorem Slotted.eq_of_no_slot {σ α : Type} {holds holds' : σ → α → Prop}
    {parts : List (Slotted σ α)} {xs ys : List α} (hxs : List.Forall₂ (Fills holds) parts xs)
    (hys : List.Forall₂ (Fills holds') parts ys) {index : Nat}
    (hslot : parts[index]?.bind slot? = none) : xs[index]? = ys[index]? := by
  induction hxs generalizing ys index with
  | nil =>
    cases hys
    rfl
  | cons hx _ ih =>
    cases hys with
    | cons hy hys =>
      cases index with
      | zero =>
        cases hx with
        | fixed =>
          cases hy
          rfl
        | slot => cases hslot
      | succ index => exact ih hys hslot

section Filling

variable {σ : Type} (holds : σ → String → Prop)

/-- A step that writes the line of a slot. -/
def HoldsStep (s : σ) (step : Step) : Prop :=
  ∃ text, holds s text ∧ step = .line text

/-- The line of a slot, behind its indentation. -/
def HoldsLine (indentUnit : String) (s : σ) (line : String) : Prop :=
  ∃ depth text, holds s text ∧ line = String.join (List.replicate depth indentUnit) ++ text

/-- The characters of the line of a slot. -/
def HoldsPiece (indentUnit : String) (s : σ) (cs : List Char) : Prop :=
  ∃ line, HoldsLine holds indentUnit s line ∧ cs = line.toList

variable {holds}

theorem HoldsPiece.imp {holds' : σ → String → Prop} (h : ∀ s text, holds s text → holds' s text)
    {indentUnit : String} {s : σ} {cs : List Char} (hcs : HoldsPiece holds indentUnit s cs) :
    HoldsPiece holds' indentUnit s cs := by
  obtain ⟨line, ⟨depth, text, htext, hline⟩, hcs⟩ := hcs
  exact ⟨line, ⟨depth, text, h s text htext, hline⟩, hcs⟩

end Filling

/-! ## Writing an outline -/

/-- Written lines with slots among them, at a depth of indentation. -/
structure Ruling (σ : Type) where
  depth : Nat := 0
  lines : List (Slotted σ String) := []

namespace Ruling

variable {σ : Type}

/-- Whether the lines end in an empty one. A line in a slot is not empty and has no line feed. -/
def endsBlank (ruling : Ruling σ) : Bool :=
  match ruling.lines.reverse with
  | [] => false
  | .slot _ :: _ => false
  | [.fixed last] => Writer.endsLine last
  | .fixed last :: _ => last.isEmpty || Writer.endsLine last

/-- Writes fixed lines. -/
def fixed (ruling : Ruling σ) (lines : List String) : Ruling σ :=
  { ruling with lines := ruling.lines ++ lines.map .fixed }

def step (indentUnit : String) (ruling : Ruling σ) : Slotted σ Step → Ruling σ
  | .slot s => { ruling with lines := ruling.lines ++ [.slot s] }
  | .fixed (.line text) => ruling.fixed [Writer.indented indentUnit ruling.depth text]
  | .fixed (.block text) =>
    ruling.fixed ((blockLines text).map (Writer.indented indentUnit ruling.depth))
  | .fixed .blank => if ruling.lines.isEmpty || ruling.endsBlank then ruling else ruling.fixed [""]
  | .fixed .indent => { ruling with depth := ruling.depth + 1 }
  | .fixed .dedent => { ruling with depth := ruling.depth - 1 }

def run (indentUnit : String) (ruling : Ruling σ) (outline : List (Slotted σ Step)) : Ruling σ :=
  outline.foldl (step indentUnit) ruling

/-- The pieces of one line. -/
def pieces : Slotted σ String → List (Slotted σ (List Char))
  | .fixed line => (Text.pieces '\n' line.toList).map .fixed
  | .slot s => [.slot s]

/-- The lines of the text, as far as they are fixed. -/
def template (ruling : Ruling σ) : List (Slotted σ (List Char)) :=
  ruling.lines.flatMap pieces ++ [.fixed []]

end Ruling

/-! ## Going along -/

namespace Ruling

variable {σ : Type} {holds : σ → String → Prop} {ruling : Ruling σ} {writer : Writer}

/-- A writer is where the writing of the outline is, and its lines fill those of the outline. -/
structure Matches (holds : σ → String → Prop) (ruling : Ruling σ) (writer : Writer) : Prop where
  depth : writer.depth = ruling.depth
  lines : List.Forall₂ (Slotted.Fills (HoldsLine holds writer.indentUnit)) ruling.lines writer.lines

theorem Matches.fixed (h : ruling.Matches holds writer) (lines : List String) :
    (ruling.fixed lines).Matches holds { writer with lines := writer.lines ++ lines } :=
  ⟨h.depth, List.rel_append h.lines (Slotted.fills_fixed _ lines)⟩

/-- The text of a slot is not empty and has no line feed. -/
def Plain (holds : σ → String → Prop) : Prop :=
  ∀ ⦃s text⦄, holds s text → text ≠ "" ∧ Text.OneLine text

variable (hplain : Plain holds)
include hplain

theorem Plain.not_blank {s : σ} {indentUnit line : String} (h : HoldsLine holds indentUnit s line) :
    line.isEmpty = false ∧ Writer.endsLine line = false := by
  obtain ⟨depth, text, htext, rfl⟩ := h
  obtain ⟨hne, honeLine⟩ := hplain htext
  refine ⟨by simp [hne], decide_eq_false fun hlast => honeLine ?_⟩
  have hchars : text.toList ≠ [] := by simpa using hne
  rw [String.toList_append, List.getLast?_append_of_ne_nil _ hchars] at hlast
  exact List.mem_of_getLast? hlast

theorem Plain.oneLine {s : σ} {indentUnit line : String} (hunit : Text.OneLine indentUnit)
    (h : HoldsLine holds indentUnit s line) : Text.OneLine line := by
  obtain ⟨depth, text, htext, rfl⟩ := h
  refine Text.oneLine_append.2 ⟨?_, (hplain htext).2⟩
  induction depth with
  | zero => exact (by decide : Text.OneLine "")
  | succ depth ih =>
    rw [List.replicate_succ, String.join_cons]
    exact Text.oneLine_append.2 ⟨hunit, ih⟩

theorem Matches.endsBlank_eq (h : ruling.Matches holds writer) :
    writer.endsBlank = ruling.endsBlank := by
  have hlines := List.forall₂_reverse_iff.2 h.lines
  unfold Writer.endsBlank endsBlank
  generalize writer.lines.reverse = lines at hlines
  generalize ruling.lines.reverse = parts at hlines
  cases hlines with
  | nil => rfl
  | @cons part line parts lines hline hlines =>
    cases hline with
    | slot hholds =>
      obtain ⟨hempty, hends⟩ := hplain.not_blank hholds
      cases lines <;> simp [hempty, hends]
    | fixed => cases hlines <;> rfl

theorem Matches.step (h : ruling.Matches holds writer) {part : Slotted σ Step} {step : Step}
    (hstep : part.Fills (HoldsStep holds) step) :
    (ruling.step writer.indentUnit part).Matches holds (writer.step step) := by
  cases hstep with
  | slot hholds =>
    obtain ⟨text, htext, rfl⟩ := hholds
    -- an empty line would not be indented
    have hne : text.isEmpty = false := by simpa using (hplain htext).1
    refine ⟨h.depth, List.rel_append h.lines (.cons (.slot ⟨writer.depth, text, htext, ?_⟩) .nil)⟩
    simp [Writer.indented, hne]
  | fixed =>
    cases step with
    | line text =>
      rw [Ruling.step, ← h.depth]
      exact h.fixed _
    | block text =>
      rw [Ruling.step, ← h.depth, Writer.step, Writer.foldl_line]
      exact h.fixed _
    | blank =>
      -- whether an empty line is written does not depend on what is in the slots
      have hempty : writer.lines.isEmpty = ruling.lines.isEmpty := by
        rw [Bool.eq_iff_iff, List.isEmpty_iff_length_eq_zero, List.isEmpty_iff_length_eq_zero,
          h.lines.length_eq]
      rw [Ruling.step, Writer.step, Writer.blank, hempty, h.endsBlank_eq hplain]
      split
      · exact h
      · exact h.fixed [""]
    | indent => exact ⟨congrArg (· + 1) h.depth, h.lines⟩
    | dedent => exact ⟨congrArg (· - 1) h.depth, h.lines⟩

theorem Matches.run (h : ruling.Matches holds writer) {outline : List (Slotted σ Step)}
    {steps : List Step} (hsteps : List.Forall₂ (Slotted.Fills (HoldsStep holds)) outline steps) :
    (ruling.run writer.indentUnit outline).Matches holds (writer.run steps) := by
  induction hsteps generalizing ruling writer with
  | nil => exact h
  | @cons part step _ _ hstep _ ih =>
    have hnext := h.step hplain hstep
    rw [← writer.indentUnit_step step] at hnext
    rw [run, List.foldl_cons, ← writer.indentUnit_step step]
    exact ih hnext

/-- Where an outline has a slot, the text has one line, and it is the one of the slot. -/
theorem Matches.template (h : ruling.Matches holds writer)
    (hunit : Text.OneLine writer.indentUnit) :
    List.Forall₂ (Slotted.Fills (HoldsPiece holds writer.indentUnit)) ruling.template
      (Text.pieces '\n' writer.text.toList) := by
  rw [Writer.pieces_text]
  refine List.rel_append (List.rel_flatMap h.lines ?_) (.cons (.fixed _) .nil)
  intro part line hline
  cases hline with
  | fixed => exact Slotted.fills_fixed _ _
  | slot hholds =>
    have hpieces := Text.pieces_of_not_mem (hplain.oneLine hunit hholds)
    simp only [pieces, hpieces]
    exact .cons (.slot ⟨line, hholds, rfl⟩) .nil

end Ruling

/-- **The lines of all programs with one outline have one template.** -/
theorem layout_fills {σ : Type} {indentUnit : String} (hunit : Text.OneLine indentUnit)
    (outline : List (Slotted σ Step)) :
    ∃ template : List (Slotted σ (List Char)), ∀ holds : σ → String → Prop, Ruling.Plain holds →
      ∀ steps, List.Forall₂ (Slotted.Fills (HoldsStep holds)) outline steps →
        List.Forall₂ (Slotted.Fills (HoldsPiece holds indentUnit)) template
          (Text.pieces '\n' (layout indentUnit steps).toList) := by
  refine ⟨(Ruling.run indentUnit {} outline).template, fun holds hplain steps hsteps => ?_⟩
  have hstart : Ruling.Matches holds {} { indentUnit } := ⟨rfl, .nil⟩
  have h := (hstart.run hplain hsteps).template hplain
  rw [Writer.indentUnit_run] at h
  exact h hunit

end StructuredCall
