/-!
# Pieces of texts

The pieces of a text between the occurrences of one character; joining them with the character
gives the text back (`intercalate_pieces`). A template is a text in which the hole, the digit zero
in braces, stands for a value. Filling replaces every hole from left to right; holes that the value
itself holds are left alone.
-/

namespace StructuredCall.Text

/-! ## Splitting -/

/-- The pieces between the occurrences of `sep`; there is always at least one. -/
def pieces (sep : Char) : List Char → List (List Char)
  | [] => [[]]
  | c :: cs =>
    if c = sep then [] :: pieces sep cs
    else
      match pieces sep cs with
      | [] => [[c]]
      | p :: ps => (c :: p) :: ps

theorem pieces_ne_nil (sep : Char) (cs : List Char) : pieces sep cs ≠ [] := by
  cases cs with
  | nil => simp [pieces]
  | cons c cs =>
    unfold pieces
    split
    · simp
    · split <;> simp

theorem intercalate_pieces (sep : Char) (cs : List Char) :
    [sep].intercalate (pieces sep cs) = cs := by
  induction cs with
  | nil => simp [pieces, List.intercalate]
  | cons c cs ih =>
    obtain ⟨p, ps, hp⟩ := List.exists_cons_of_ne_nil (pieces_ne_nil sep cs)
    rw [hp] at ih
    unfold pieces
    split
    · next h => cases ps <;> simp_all [List.intercalate]
    · cases ps <;> simp_all [List.intercalate]

/-- What holds of parts that are joined holds of the whole. -/
theorem intercalate_induction {α : Type} {P : List α → Prop} {separator : List α} (nil : P [])
    (join : ∀ {part rest : List α}, P part → P rest → P (part ++ separator ++ rest))
    {parts : List (List α)} (h : ∀ part ∈ parts, P part) : P (separator.intercalate parts) := by
  induction parts with
  | nil => exact nil
  | cons part parts ih =>
    obtain ⟨hpart, hparts⟩ := List.forall_mem_cons.1 h
    cases parts with
    | nil => simpa [List.intercalate] using hpart
    | cons next parts => simpa [List.intercalate] using join hpart (ih hparts)

/-- The length of a text in UTF-8. -/
def utf8Length : List Char → Nat
  | [] => 0
  | c :: cs => c.utf8Size + utf8Length cs

/-! ## Templates -/

/-- Characters with `value` in every hole. -/
def fillChars (value : List Char) : List Char → List Char
  | '\x7b' :: '0' :: '\x7d' :: rest => value ++ fillChars value rest
  | c :: rest => c :: fillChars value rest
  | [] => []

/-- A template with `value` in every hole. -/
def fill (template value : String) : String :=
  String.ofList (fillChars value.toList template.toList)

end StructuredCall.Text
