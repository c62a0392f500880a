import StructuredCall.Proofs.Literal.Enclosure
import StructuredCall.Proofs.Program.Names

/-!
# Callees

A callee of a text is an identifier that is called or that a member is taken of: it is not behind a
dot, and a parenthesis or a dot is right behind it. A `CalleeReader` finds the callees in one pass.
Like a `Scan` it knows quoted literals, and what is in them is no code; in code it keeps the word
that is being read until the character behind the word decides about it.

**Composing.** A text `CallsApart` some names when a reader finds them in it and is back at its
start behind it, so that what follows is read on its own. It `Calls` them when the reader is in the
middle of a word at most; then a text has to follow that ends the word (`EndsWord`).

Main result: `Language.calls_literalText`. The data of a test case calls nothing in JavaScript:
words and numbers are no callees, and quoted texts are skipped whatever is in them.
-/

namespace StructuredCall

open Name (isTail isIdentifier)

/-! ## Reading -/

/-- A reading of code for its callees. -/
structure CalleeReader where
  place : Place := .code
  /-- Whether the word is behind a dot. -/
  member : Bool := false
  /-- The word that is being read. -/
  word : List Char := []
  found : List String := []
deriving DecidableEq

namespace CalleeReader

/-- What is found when a character ends the word. The word has letters, digits and underscores, so
it is an identifier if it does not start with a digit. -/
def named (reader : CalleeReader) (c : Char) : List String :=
  if (c = '(' || c = '.') && !reader.member && reader.word.head?.any Name.isHead then
    [String.ofList reader.word]
  else []

def step (reader : CalleeReader) (c : Char) : CalleeReader :=
  match reader.place with
  | .escaped mark => { reader with place := .quoted mark }
  | .quoted mark =>
    if c = '\\' then { reader with place := .escaped mark }
    else if c = mark then { reader with place := .code }
    else reader
  | .code =>
    if isTail c then { reader with word := reader.word ++ [c] }
    else
      { place := if c = '"' ∨ c = '\'' then .quoted c else .code
        member := c = '.'
        found := reader.found ++ reader.named c }

def read (reader : CalleeReader) (cs : List Char) : CalleeReader :=
  cs.foldl step reader

end CalleeReader

/-- The callees of a text, in order. -/
def callees (cs : List Char) : List String :=
  (({} : CalleeReader).read cs).found

/-- Text behind which a reader is in code and has found the names. -/
structure Calls (cs : List Char) (names : List String) : Prop where
  place : (({} : CalleeReader).read cs).place = .code
  callees : callees cs = names

/-- Text behind which a reader starts again and has found the names. -/
def CallsApart (cs : List Char) (names : List String) : Prop :=
  ({} : CalleeReader).read cs = { found := names }

instance (cs : List Char) (names : List String) : Decidable (CallsApart cs names) :=
  inferInstanceAs (Decidable (_ = _))

instance (cs : List Char) (names : List String) : Decidable (Calls cs names) :=
  decidable_of_iff (_ ∧ _) ⟨fun ⟨place, callees⟩ => ⟨place, callees⟩,
    fun ⟨place, callees⟩ => ⟨place, callees⟩⟩

example : callees "const n = Array.from(xs.keys, (x) => f(\"g(\"));".toList =
    ["Array", "xs", "f"] := by
  decide +kernel

namespace CalleeReader

@[simp] theorem read_nil (reader : CalleeReader) : reader.read [] = reader := rfl

theorem read_cons (reader : CalleeReader) (c : Char) (cs : List Char) :
    reader.read (c :: cs) = (reader.step c).read cs := rfl

theorem read_append (reader : CalleeReader) (xs ys : List Char) :
    reader.read (xs ++ ys) = (reader.read xs).read ys :=
  List.foldl_append

/-- A reader that has found something. -/
def after (reader : CalleeReader) (names : List String) : CalleeReader :=
  { reader with found := names ++ reader.found }

theorem step_after (reader : CalleeReader) (names : List String) (c : Char) :
    (reader.after names).step c = (reader.step c).after names := by
  obtain ⟨place, member, word, found⟩ := reader
  cases place with
  | escaped mark => rfl
  | quoted mark =>
    simp only [after, step]
    split_ifs <;> rfl
  | code =>
    simp only [after, step]
    split_ifs <;> simp only [List.append_assoc] <;> rfl

theorem read_after (reader : CalleeReader) (names : List String) (cs : List Char) :
    (reader.after names).read cs = (reader.read cs).after names := by
  induction cs generalizing reader with
  | nil => rfl
  | cons c cs ih => rw [read_cons, read_cons, step_after, ih]

/-- Letters and digits in code belong to the word. -/
theorem read_word {reader : CalleeReader} (hplace : reader.place = .code) {cs : List Char}
    (h : ∀ c ∈ cs, isTail c = true) :
    reader.read cs = { reader with word := reader.word ++ cs } := by
  induction cs generalizing reader with
  | nil => simp
  | cons c cs ih =>
    obtain ⟨hc, hcs⟩ := List.forall_mem_cons.1 h
    have hstep : reader.step c = { reader with word := reader.word ++ [c] } := by
      simp [step, hplace, hc]
    have hrest : ({ reader with word := reader.word ++ [c] } : CalleeReader).read cs =
        { reader with word := reader.word ++ [c] ++ cs } := ih hplace hcs
    rw [read_cons, hstep, hrest, List.append_assoc]
    rfl

end CalleeReader

/-! ## Composing -/

/-- Text that ends a word in front of it, makes no callee of it, and calls nothing itself. -/
structure EndsWord (cs : List Char) : Prop where
  first : cs.head?.any (fun c => !isTail c && c ∉ ['(', '.', '"', '\'']) = true
  rest : CallsApart cs.tail []

instance (cs : List Char) : Decidable (EndsWord cs) :=
  decidable_of_iff (_ ∧ _) ⟨fun ⟨first, rest⟩ => ⟨first, rest⟩, fun ⟨first, rest⟩ => ⟨first, rest⟩⟩

namespace CallsApart

variable {xs ys : List Char} {names more : List String}

theorem calls (h : CallsApart xs names) : Calls xs names :=
  ⟨by rw [h], by rw [StructuredCall.callees, h]⟩

theorem read_append (h : CallsApart xs names) (ys : List Char) :
    ({} : CalleeReader).read (xs ++ ys) = (({} : CalleeReader).read ys).after names := by
  rw [CalleeReader.read_append, h, ← CalleeReader.read_after, CalleeReader.after, List.append_nil]

theorem nil : CallsApart [] [] := rfl

theorem literal (h : CallsApart xs names) : CallsApart (String.ofList xs).toList names := by
  rwa [String.toList_ofList]

theorem append (hx : CallsApart xs names) (hy : CallsApart ys more) :
    CallsApart (xs ++ ys) (names ++ more) := by
  rw [CallsApart, hx.read_append, hy]
  rfl

theorem append_calls (hx : CallsApart xs names) (hy : Calls ys more) :
    Calls (xs ++ ys) (names ++ more) := by
  constructor
  · rw [hx.read_append]
    exact hy.place
  · rw [StructuredCall.callees, hx.read_append]
    exact congrArg (names ++ ·) hy.callees

theorem flatMap {α : Type} {items : List α} {text : α → List Char} {found : α → List String}
    (h : ∀ item ∈ items, CallsApart (text item) (found item)) :
    CallsApart (items.flatMap text) (items.flatMap found) := by
  induction items with
  | nil => exact nil
  | cons item items ih =>
    obtain ⟨hitem, hitems⟩ := List.forall_mem_cons.1 h
    exact hitem.append (ih hitems)

end CallsApart

theorem EndsWord.literal {cs : List Char} (h : EndsWord cs) :
    EndsWord (String.ofList cs).toList := by
  rwa [String.toList_ofList]

namespace Calls

variable {cs : List Char} {names : List String}

theorem literal (h : Calls cs names) : Calls (String.ofList cs).toList names := by
  rwa [String.toList_ofList]

theorem ended (h : Calls cs names) {rest : List Char} (hrest : EndsWord rest) :
    CallsApart (cs ++ rest) names := by
  cases rest with
  | nil => cases hrest.first
  | cons c rest =>
    obtain ⟨hfirst, hrest⟩ := hrest
    simp only [List.head?_cons, Option.any_some, Bool.and_eq_true, Bool.not_eq_true',
      decide_eq_true_eq, List.mem_cons, List.not_mem_nil, or_false, not_or] at hfirst
    obtain ⟨htail, hparen, hdot, hdouble, hsingle⟩ := hfirst
    have hfirst : CallsApart (cs ++ [c]) names := by
      rw [CallsApart, CalleeReader.read_append, CalleeReader.read_cons, CalleeReader.read_nil]
      simp [CalleeReader.step, CalleeReader.named, h.place, htail, hparen, hdot, hdouble, hsingle]
      exact h.callees
    rw [List.append_cons]
    simpa using hfirst.append hrest

theorem append_word (h : Calls cs names) {rest : List Char} (hrest : ∀ c ∈ rest, isTail c = true) :
    Calls (cs ++ rest) names := by
  constructor
  · rw [CalleeReader.read_append, CalleeReader.read_word h.place hrest]
    exact h.place
  · rw [StructuredCall.callees, CalleeReader.read_append, CalleeReader.read_word h.place hrest]
    exact h.callees

theorem of_word (h : ∀ c ∈ cs, isTail c = true) : Calls cs [] :=
  CallsApart.nil.calls.append_word h

theorem of_name {name : String} (h : isIdentifier name) : Calls name.toList [] :=
  of_word fun _ => Name.isTail_of_mem h

theorem intercalate {parts : List (List Char)} (h : ∀ part ∈ parts, Calls part []) :
    Calls ([',', ' '].intercalate parts) [] := by
  refine Text.intercalate_induction (P := (Calls · [])) CallsApart.nil.calls
    (fun {part _} hpart hrest => ?_) h
  have hcomma : CallsApart (part ++ [',', ' ']) [] := hpart.ended (by decide)
  exact hcomma.append_calls hrest

end Calls

/-! ## Data -/

/-- Inside of a quoted text a reader finds nothing. -/
theorem Quoting.Sound.read_write {q : Quoting} (hq : q.Sound) (cs : List Char) :
    ({ place := .quoted q.mark } : CalleeReader).read (cs.flatMap q.write) =
      { place := .quoted q.mark } := by
  induction cs with
  | nil => rfl
  | cons c cs ih =>
    have hwrite : ({ place := .quoted q.mark } : CalleeReader).read (q.write c) =
        { place := .quoted q.mark } := by
      have hw := hq.written c
      have hmark := hq.mark_ne.1
      generalize q.write c = w at hw
      cases hw with
      | itself notMark notBackslash =>
        simp [CalleeReader.read, CalleeReader.step, notMark, notBackslash]
      | escaped d => simp [CalleeReader.read, CalleeReader.step]
    rw [List.flatMap_cons, CalleeReader.read_append, hwrite, ih]

/-- **A quoted text calls nothing**, whatever it holds. -/
theorem Quoting.Sound.callsApart {q : Quoting} (hq : q.Sound) (s : String) :
    CallsApart (q.text s).toList [] := by
  have hopen : ({} : CalleeReader).step q.mark = { place := .quoted q.mark } := by
    rcases hq.isMark with h | h <;> rw [h] <;> rfl
  have hclose : ({ place := .quoted q.mark } : CalleeReader).read [q.mark] = {} := by
    simp [CalleeReader.read, CalleeReader.step, hq.mark_ne.1]
  rw [toList_text, CallsApart, chars, List.cons_append, CalleeReader.read_cons, hopen,
    CalleeReader.read_append, hq.read_write, hclose]

theorem Name.isTail_of_isDigit {c : Char} (h : Text.isDigit c = true) :
    isTail c = true ∧ isHead c = false := by
  simp only [Text.isDigit, Bool.and_eq_true, decide_eq_true_eq] at h
  have hle (a b : Char) : a ≤ b ↔ a.toNat ≤ b.toNat := UInt32.le_iff_toNat_le
  have hne : c ≠ '_' := by
    rintro rfl
    exact absurd h.2 (by decide)
  simp only [isTail, isHead, hle, Bool.or_eq_true, Bool.and_eq_true, decide_eq_true_eq,
    Bool.or_eq_false_iff, Bool.and_eq_false_iff, decide_eq_false_iff_not, hne, Char.reduceToNat,
    or_false, not_false_eq_true, and_true]
  omega

theorem CalleeReader.named_digits {reader : CalleeReader}
    (h : ∀ c ∈ reader.word, Text.isDigit c = true) (c : Char) : reader.named c = [] := by
  have hfirst : reader.word.head?.any Name.isHead = false := by
    cases hword : reader.word with
    | nil => rfl
    | cons first rest => exact (Name.isTail_of_isDigit (h first (by simp [hword]))).2
  simp [named, hfirst]

/-- **A number calls nothing**: the words in it are digits. -/
theorem calls_of_numeric {cs : List Char} (h : ∀ c ∈ cs, Text.Numeric c) : Calls cs [] := by
  suffices hread : ∀ reader : CalleeReader, reader.place = .code →
      (∀ c ∈ reader.word, Text.isDigit c = true) →
      (reader.read cs).place = .code ∧ (reader.read cs).found = reader.found by
    obtain ⟨hplace, hfound⟩ := hread {} rfl (by simp)
    exact ⟨hplace, hfound⟩
  induction cs with
  | nil => exact fun reader hplace _ => ⟨hplace, rfl⟩
  | cons c cs ih =>
    obtain ⟨hc, hcs⟩ := List.forall_mem_cons.1 h
    intro reader hplace hword
    rw [CalleeReader.read_cons]
    rcases hc with hdigit | hmark
    · have hstep : reader.step c = { reader with word := reader.word ++ [c] } := by
        simp [CalleeReader.step, hplace, (Name.isTail_of_isDigit hdigit).1]
      rw [hstep]
      exact ih hcs _ hplace (List.forall_mem_append.2 ⟨hword, List.forall_mem_singleton.2 hdigit⟩)
    · have hstep : reader.step c = { member := c = '.', found := reader.found } := by
        have htail : isTail c = false := by
          rcases hmark with rfl | rfl <;> decide
        have hquote : ¬(c = '"' ∨ c = '\'') := by
          rcases hmark with rfl | rfl <;> decide
        simp [CalleeReader.step, hplace, htail, hquote, CalleeReader.named_digits hword]
      rw [hstep]
      exact ih hcs _ rfl (by simp)

theorem calls_natText (n : Nat) : Calls (Text.natText n).toList [] :=
  calls_of_numeric fun c hc =>
    .inl (Text.isDigit_of_mem_natDigits (by simpa [Text.natText] using hc))

theorem calls_intText (n : Int) : Calls (Text.intText n).toList [] :=
  calls_of_numeric fun c hc => Text.numeric_of_mem_intDigits (by simpa [Text.intText] using hc)

/-! ## Literals -/

/-- What the literal of a type calls. -/
def DataType.literalCallees : DataType → List String
  | .composite .set _ => ["Set"]
  | _ => []

namespace Language

theorem calls_scalarText {s : Scalar} {value : ScalarValue} (h : value.HasScalar s) :
    Calls (javaScript.spelling.scalarText s value).toList [] := by
  have hreal {x : Binary64} (hx : x.isFinite = true) : Calls x.literalText.toList [] :=
    calls_of_numeric fun c hc => Binary64.numeric_of_mem_literalText hx hc
  cases h with
  | @integer n =>
    show Calls (({} : Frame).around (Text.intText n)).toList []
    rw [Frame.around_empty]
    exact calls_intText n
  | @long n =>
    show Calls ((⟨"", "n"⟩ : Frame).around (Text.intText n)).toList []
    rw [Frame.around_behind, String.toList_append]
    have hsuffix : isIdentifier "n" := by decide
    exact (calls_intText n).append_word fun _ => Name.isTail_of_mem hsuffix
  | @float x finite | @double x finite =>
    show Calls (({} : Frame).around x.literalText).toList []
    rw [Frame.around_empty]
    exact hreal finite
  | boolean b => cases b <;> exact Calls.of_name (by decide)
  | character => exact ((javaScript.spelling_char_sound).callsApart _).calls
  | string => exact ((javaScript.spelling_string_sound).callsApart _).calls

theorem calls_entryText {e : Scalar} {entry : String × ScalarValue} (h : entry.2.HasScalar e) :
    Calls (javaScript.spelling.entryText e entry).toList [] := by
  have hkey := javaScript.spelling_string_sound.callsApart entry.1
  have hbetween : CallsApart ": ".toList [] := by decide
  have hentry := (hkey.append hbetween).append_calls (calls_scalarText h)
  show Calls (({} : Frame).around _).toList []
  rw [Frame.around_empty, String.toList_append, String.toList_append]
  exact hentry

/-- A composite calls the constructor of sets, and otherwise nothing. -/
theorem calls_compositeText (c : Container) (e : Scalar) {items : List String}
    (h : ∀ item ∈ items, Calls item.toList []) :
    Calls (javaScript.spelling.compositeText c e items).toList
      (DataType.composite c e).literalCallees := by
  have hinner : Calls (", ".intercalate items).toList [] := by
    rw [String.toList_intercalate]
    exact Calls.intercalate (by simpa using h)
  have hframe : CallsApart (javaScript.spelling.composite c e).before.toList
      (DataType.composite c e).literalCallees ∧
        EndsWord (javaScript.spelling.composite c e).behind.toList := by
    cases c with
    | array => exact (by decide : CallsApart "[".toList [] ∧ EndsWord "]".toList)
    | map => exact (by decide : CallsApart "\x7b".toList [] ∧ EndsWord "\x7d".toList)
    | set => exact (by decide : CallsApart "new Set([".toList ["Set"] ∧ EndsWord "])".toList)
  have htext : javaScript.spelling.compositeText c e items =
      (javaScript.spelling.composite c e).around (", ".intercalate items) := by
    cases items with
    | nil => rfl
    | cons item items => exact Spelling.compositeText_bare rfl
  rw [htext, Frame.around, String.toList_append, String.toList_append, List.append_assoc]
  simpa using (hframe.1.append (hinner.ended hframe.2)).calls

/-- **Test data calls nothing** but the constructor of a set. -/
theorem calls_literalText {type : DataType} {literal : Literal} (h : literal.HasType type) :
    Calls (javaScript.spelling.literalText type literal).toList type.literalCallees := by
  cases h with
  | scalar typed => exact calls_scalarText typed
  | array typed | set typed =>
    refine calls_compositeText _ _ fun item hitem => ?_
    obtain ⟨value, hvalue, rfl⟩ := List.mem_map.1 hitem
    exact calls_scalarText (typed value hvalue)
  | map typed =>
    refine calls_compositeText _ _ fun item hitem => ?_
    obtain ⟨entry, hentry, rfl⟩ := List.mem_map.1 hitem
    exact calls_entryText (typed entry hentry)

end Language

end StructuredCall
