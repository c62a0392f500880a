import Mathlib.Data.List.Nodup
import StructuredCall.Proofs.Literal.Spelling

/-!
# Reading literals back

A literal determines its value: two values of a type whose scalars are exact are written
differently. The texts of a value's parts stand one behind the other, with marks between them that
may also be inside of quoted texts; so it is not enough that each part is written in its own way.

**Legible.** A way of writing is `Legible` if a text that begins with a value and goes on without a
digit determines both the value and the rest. Numbers need the condition on the rest, quoted texts
need none, and frames, entries and lists of items keep it up as long as no mark behind a part
begins with a digit.

**Empty composites.** These are spelled in ways of their own, which must not be those of a
composite with items (`Spelling.Readable.empty`).

Main results: `Spelling.Readable.literalText_injective` and, for the languages,
`Language.literals_determine_values`.
-/

namespace StructuredCall

/-- Scalar types whose values are no approximations. -/
def Scalar.IsExact (s : Scalar) : Prop :=
  s ≠ .float ∧ s ≠ .double

instance (s : Scalar) : Decidable s.IsExact :=
  inferInstanceAs (Decidable (s ≠ .float ∧ s ≠ .double))

/-- Types whose scalars, or whose elements, are exact. -/
def DataType.IsExact : DataType → Prop
  | .scalar s => s.IsExact
  | .composite _ e => e.IsExact

theorem ScalarValue.sameValue_self {s : Scalar} (hs : s.IsExact) {v : ScalarValue}
    (hv : v.HasScalar s) : v.sameValue v ≠ false := by
  cases hv with
  | float => exact absurd rfl hs.1
  | double => exact absurd rfl hs.2
  | integer | long | boolean | character | string => simp [sameValue]

/-- A value and the rest of a text are determined by the text, if no digit follows the value. -/
def Legible {α : Type} (valid : α → Prop) (write : α → String) : Prop :=
  ∀ ⦃a b : α⦄ ⦃r s : List Char⦄, valid a → valid b → Text.Stops r → Text.Stops s →
    (write a).toList ++ r = (write b).toList ++ s → a = b ∧ r = s

/-! ## Parts -/

theorem Frame.toList_around (frame : Frame) (part : String) : (frame.around part).toList =
    frame.before.toList ++ (part.toList ++ frame.behind.toList) := by
  simp [Frame.around]

theorem Text.stops_nil : Text.Stops [] := by decide

theorem Text.stops_cons {c : Char} (h : Text.isDigit c = false) (rest : List Char) :
    Text.Stops (c :: rest) :=
  h

theorem Text.Stops.append {xs ys : List Char} (hx : Text.Stops xs) (hy : Text.Stops ys) :
    Text.Stops (xs ++ ys) := by
  cases xs with
  | nil => exact hy
  | cons x xs => exact hx

theorem Text.legible_intText : Legible (fun _ => True) Text.intText := by
  intro m n r s _ _ hr hs h
  exact Text.read_intDigits hr hs (by simpa [Text.intText] using h)

theorem Quoting.Sound.legible {q : Quoting} (hq : q.Sound) : Legible (fun _ => True) q.text := by
  intro x y r s _ _ _ _ h
  obtain ⟨hxy, hrest⟩ := hq.read (by simpa using h)
  exact ⟨String.ext hxy, hrest⟩

namespace Legible

variable {α : Type} {valid : α → Prop} {write : α → String}

theorem injective (hw : Legible valid write) {a b : α} (ha : valid a) (hb : valid b)
    (h : write a = write b) : a = b :=
  (hw ha hb Text.stops_nil Text.stops_nil (by rw [h])).1

theorem around (hw : Legible valid write) {frame : Frame}
    (hbehind : Text.Stops frame.behind.toList) :
    Legible valid fun a => frame.around (write a) := by
  intro a b r s ha hb hr hs h
  simp only [Frame.toList_around, List.append_assoc] at h
  obtain ⟨hab, hrest⟩ := hw ha hb (hbehind.append hr) (hbehind.append hs)
    (List.append_cancel_left h)
  exact ⟨hab, List.append_cancel_left hrest⟩

/-- Items of which each stands behind a comma. -/
def tail (write : α → String) (xs : List α) : List Char :=
  xs.flatMap fun x => ',' :: ' ' :: (write x).toList

theorem toList_intercalate (write : α → String) (x : α) (xs : List α) :
    (", ".intercalate ((x :: xs).map write)).toList = (write x).toList ++ tail write xs := by
  induction xs generalizing x with
  | nil => simp [tail]
  | cons y ys ih =>
    rw [List.map_cons, List.map_cons, String.intercalate_cons_cons, String.toList_append,
      String.toList_append, ← List.map_cons, ih]
    simp [tail]

theorem length_le_intercalate (write : α → String) (x : α) (xs : List α) :
    (write x).length ≤ (", ".intercalate ((x :: xs).map write)).length := by
  rw [← String.length_toList, ← String.length_toList, toList_intercalate, List.length_append]
  exact Nat.le_add_right _ _

theorem stops_tail {closing : List Char} (hstops : Text.Stops closing) (write : α → String)
    (xs : List α) : Text.Stops (tail write xs ++ closing) := by
  cases xs with
  | nil => exact hstops
  | cons x xs => exact Text.stops_cons (by decide) _

/-- A comma goes on, and what closes the list does not. -/
theorem tail_injective (hw : Legible valid write) {closing : List Char}
    (hstops : Text.Stops closing) (hcomma : closing.head? ≠ some ',') {xs ys : List α}
    (hxs : ∀ x ∈ xs, valid x) (hys : ∀ y ∈ ys, valid y)
    (h : tail write xs ++ closing = tail write ys ++ closing) : xs = ys := by
  induction xs generalizing ys with
  | nil =>
    cases ys with
    | nil => rfl
    | cons y ys =>
      rw [show closing = _ from h] at hcomma
      exact absurd rfl hcomma
  | cons x xs ih =>
    cases ys with
    | nil =>
      rw [show closing = _ from h.symm] at hcomma
      exact absurd rfl hcomma
    | cons y ys =>
      obtain ⟨hx, hxs'⟩ := List.forall_mem_cons.1 hxs
      obtain ⟨hy, hys'⟩ := List.forall_mem_cons.1 hys
      simp only [tail, List.flatMap_cons, List.cons_append, List.append_assoc, List.cons.injEq,
        true_and] at h
      obtain ⟨rfl, hrest⟩ :=
        hw hx hy (stops_tail hstops write xs) (stops_tail hstops write ys) h
      rw [ih hxs' hys' hrest]

/-- A list with commas between its items determines them, if what closes it is neither a digit nor
a comma. -/
theorem intercalate_injective (hw : Legible valid write) {closing : List Char}
    (hstops : Text.Stops closing) (hcomma : closing.head? ≠ some ',') {x y : α} {xs ys : List α}
    (hxs : ∀ a ∈ x :: xs, valid a) (hys : ∀ b ∈ y :: ys, valid b)
    (h : (", ".intercalate ((x :: xs).map write)).toList ++ closing =
      (", ".intercalate ((y :: ys).map write)).toList ++ closing) : x :: xs = y :: ys := by
  obtain ⟨hx, hxs'⟩ := List.forall_mem_cons.1 hxs
  obtain ⟨hy, hys'⟩ := List.forall_mem_cons.1 hys
  simp only [toList_intercalate, List.append_assoc] at h
  obtain ⟨rfl, hrest⟩ := hw hx hy (stops_tail hstops write xs) (stops_tail hstops write ys) h
  rw [hw.tail_injective hstops hcomma hxs' hys' hrest]

end Legible

/-! ## Spellings -/

theorem Frame.length_around (frame : Frame) (part : String) :
    (frame.around part).length = frame.before.length + part.length + frame.behind.length := by
  simp [Frame.around]

theorem Frame.ne_around {frame : Frame} {text part : String}
    (h : text.toList.length <
      frame.before.toList.length + part.toList.length + frame.behind.toList.length) :
    text ≠ frame.around part := by
  rintro rfl
  simp only [String.length_toList, Frame.length_around] at h
  omega

theorem Frame.around_empty_ne (frame : Frame) {part : String} (h : part ≠ "") :
    frame.around "" ≠ frame.around part := by
  have hpos : part.toList.length ≠ 0 := by simpa using h
  refine Frame.ne_around ?_
  simp only [Frame.toList_around, List.length_append, String.toList_empty, List.length_nil]
  omega

namespace Spelling

/-- What a spelling has to be like so that literals can be read back. -/
structure Readable (p : Spelling) : Prop where
  string : p.string.Sound
  char : p.char.Sound
  yes : p.yes ≠ ""
  no : p.no ≠ ""
  bool : p.yes.toList.head? ≠ p.no.toList.head?
  int : ∀ s, Text.Stops (p.int s).behind.toList
  entry : Text.Stops p.entry.behind.toList
  item : ∀ c, Text.Stops (p.item c).behind.toList
  composite : ∀ c e, Text.Stops (p.composite c e).behind.toList
  comma : ∀ c e, (p.composite c e).behind.toList.head? ≠ some ','
  /-- The spelling of an empty composite is not that of one with items; the items of a map take
  more than one character. -/
  empty : ∀ c e t, t ≠ "" → (c = .map → 2 ≤ t.length) → p.empty c e ≠ (p.composite c e).around t

theorem compositeText_map_cons {α : Type} (p : Spelling) (c : Container) (e : Scalar)
    (write : α → String) (x : α) (xs : List α) : p.compositeText c e ((x :: xs).map write) =
      (p.composite c e).around
        (", ".intercalate ((x :: xs).map fun a => (p.item c).around (write a))) := by
  simp [compositeText, Function.comp_def]

theorem two_le_length_entryText (p : Spelling) (e : Scalar) (entry : String × ScalarValue) :
    2 ≤ (p.entryText e entry).length := by
  have hkey : 2 ≤ (p.string.text entry.1).length := by
    rw [← String.length_toList, Quoting.toList_text, Quoting.chars]
    simp
  rw [entryText, Frame.length_around, String.length_append, String.length_append]
  omega

namespace Readable

variable {p : Spelling} (hp : p.Readable)
include hp

theorem legible_bool :
    Legible (fun _ : Bool => True) fun b => if b = true then p.yes else p.no := by
  have hdiffer : ∀ r s, p.yes.toList ++ r ≠ p.no.toList ++ s := by
    intro r s h
    have hyes : p.yes.toList ≠ [] := by simpa using hp.yes
    have hno : p.no.toList ≠ [] := by simpa using hp.no
    obtain ⟨y, ys, hy⟩ := List.exists_cons_of_ne_nil hyes
    obtain ⟨n, ns, hn⟩ := List.exists_cons_of_ne_nil hno
    rw [hy, hn] at h
    apply hp.bool
    rw [hy, hn, (List.cons.inj h).1]
    rfl
  intro a b r s _ _ _ _ h
  cases a <;> cases b
  · exact ⟨rfl, List.append_cancel_left h⟩
  · exact absurd h.symm (hdiffer s r)
  · exact absurd h (hdiffer r s)
  · exact ⟨rfl, List.append_cancel_left h⟩

theorem legible_scalarText {s : Scalar} (hs : s.IsExact) :
    Legible (·.HasScalar s) (p.scalarText s) := by
  intro v w r t hv hw hr ht h
  cases hv with
  | integer | long =>
    cases hw
    obtain ⟨rfl, hrest⟩ := Text.legible_intText.around (hp.int _) trivial trivial hr ht h
    exact ⟨rfl, hrest⟩
  | float => exact absurd rfl hs.1
  | double => exact absurd rfl hs.2
  | boolean a =>
    cases hw with
    | boolean b =>
      obtain ⟨rfl, hrest⟩ := hp.legible_bool (a := a) (b := b) trivial trivial hr ht h
      exact ⟨rfl, hrest⟩
  | character c =>
    cases hw
    obtain ⟨hc, hrest⟩ := hp.char.legible trivial trivial hr ht h
    exact ⟨by simpa using hc, hrest⟩
  | string =>
    cases hw
    obtain ⟨rfl, hrest⟩ := hp.string.legible trivial trivial hr ht h
    exact ⟨rfl, hrest⟩

theorem legible_entryText {e : Scalar} (he : e.IsExact) :
    Legible (fun entry : String × ScalarValue => entry.2.HasScalar e) (p.entryText e) := by
  have hinner : Legible (fun entry : String × ScalarValue => entry.2.HasScalar e) fun entry =>
      p.string.text entry.1 ++ p.between ++ p.scalarText e entry.2 := by
    intro x y r s hx hy hr hs h
    simp only [String.toList_append, List.append_assoc, Quoting.toList_text] at h
    obtain ⟨hkey, hrest⟩ := hp.string.read h
    obtain ⟨hvalue, hrest⟩ := hp.legible_scalarText he hx hy hr hs (List.append_cancel_left hrest)
    exact ⟨Prod.ext (String.ext hkey) hvalue, hrest⟩
  exact hinner.around hp.entry

section Composites

variable {α : Type} {write : α → String} (c : Container) (e : Scalar) (hne : ∀ a, write a ≠ "")
  (hmap : c = .map → ∀ a, 2 ≤ (write a).length)
include hne hmap

theorem empty_ne_compositeText (x : α) (xs : List α) :
    p.empty c e ≠ p.compositeText c e ((x :: xs).map write) := by
  have hlength := Legible.length_le_intercalate (fun a => (p.item c).around (write a)) x xs
  rw [Frame.length_around] at hlength
  rw [compositeText_map_cons]
  refine hp.empty c e _ (fun h => ?_) fun hc => ?_
  · rw [h] at hlength
    have hpos : (write x).length ≠ 0 := by simpa using hne x
    simp only [String.length_empty] at hlength
    omega
  · have := hmap hc x
    omega

/-- Composites with different items are written differently, be they empty or not. -/
theorem compositeText_injective {valid : α → Prop} (hw : Legible valid write) {xs ys : List α}
    (hxs : ∀ x ∈ xs, valid x) (hys : ∀ y ∈ ys, valid y)
    (h : p.compositeText c e (xs.map write) = p.compositeText c e (ys.map write)) : xs = ys := by
  cases xs with
  | nil =>
    cases ys with
    | nil => rfl
    | cons y ys => exact absurd h (hp.empty_ne_compositeText c e hne hmap y ys)
  | cons x xs =>
    cases ys with
    | nil => exact absurd h.symm (hp.empty_ne_compositeText c e hne hmap x xs)
    | cons y ys =>
      rw [compositeText_map_cons, compositeText_map_cons] at h
      have hlists := congrArg String.toList h
      rw [Frame.toList_around, Frame.toList_around] at hlists
      exact (hw.around (hp.item c)).intercalate_injective (hp.composite c e) (hp.comma c e)
        hxs hys (List.append_cancel_left hlists)

end Composites

/-- **Different literals of a type are written differently**, if its scalars are exact. -/
theorem literalText_injective (hscalar : ∀ s v, p.scalarText s v ≠ "") {type : DataType}
    (hexact : type.IsExact) {l m : Literal} (hl : l.HasType type) (hm : m.HasType type)
    (h : p.literalText type l = p.literalText type m) : l = m := by
  cases hl with
  | scalar hv =>
    cases hm with
    | scalar hw => rw [(hp.legible_scalarText hexact).injective hv hw h]
  | @array values e hvs =>
    cases hm with
    | array hws =>
      rw [hp.compositeText_injective .array e (hscalar e) (by simp)
        (hp.legible_scalarText hexact) hvs hws h]
  | @set values e hvs =>
    cases hm with
    | set hws =>
      rw [hp.compositeText_injective .set e (hscalar e) (by simp)
        (hp.legible_scalarText hexact) hvs hws h]
  | @map entries e hvs =>
    cases hm with
    | map hws =>
      -- an entry has its quotes at least
      have hlength := p.two_le_length_entryText e
      have hne : ∀ entry, p.entryText e entry ≠ "" := by
        intro entry hentry
        have := hlength entry
        simp [hentry] at this
      rw [hp.compositeText_injective .map e hne (fun _ => hlength) (hp.legible_entryText hexact)
        hvs hws h]

end Readable

end Spelling

/-! ## The languages -/

theorem Frame.stops_only {frame : Frame} (h : Text.Stops frame.behind.toList) (scalar s : Scalar) :
    Text.Stops (Frame.only scalar frame s).behind.toList := by
  unfold Frame.only
  split
  · exact h
  · exact Text.stops_nil

namespace Language

theorem stops_int (language : Language) (s : Scalar) :
    Text.Stops (language.spelling.int s).behind.toList := by
  cases language with
  | javaScript | typeScript | java | cpp | cSharp | go => exact Frame.stops_only (by decide) .long s
  | r =>
    show Text.Stops (if s = .long then {} else ⟨"", "L"⟩ : Frame).behind.toList
    split <;> decide
  | python | php | swift => exact Text.stops_nil

theorem stops_item (language : Language) (c : Container) :
    Text.Stops (language.spelling.item c).behind.toList := by
  cases language with
  | go => cases c <;> decide
  | _ => exact Text.stops_nil

/-- What stands behind the items of a composite. -/
def closings : List String :=
  ["]", "\x7d", ")", "])", "))", " \x7d"]

theorem behind_composite (language : Language) (c : Container) (e : Scalar) :
    (language.spelling.composite c e).behind ∈ closings := by
  cases language with
  | cpp | go => exact (by decide : "\x7d" ∈ closings)
  | php | swift => exact (by decide : "]" ∈ closings)
  | cSharp => exact (by decide : " \x7d" ∈ closings)
  | python =>
    cases c with
    | array => exact (by decide : "]" ∈ closings)
    | map | set => exact (by decide : "\x7d" ∈ closings)
  | javaScript | typeScript =>
    cases c with
    | array => exact (by decide : "]" ∈ closings)
    | map => exact (by decide : "\x7d" ∈ closings)
    | set => exact (by decide : "])" ∈ closings)
  | java => cases c <;> exact (by decide : "))" ∈ closings)
  | r => cases c <;> exact (by decide : ")" ∈ closings)

theorem stops_of_mem_closings : ∀ t ∈ closings, Text.Stops t.toList := by decide

theorem head?_ne_comma_of_mem_closings : ∀ t ∈ closings, t.toList.head? ≠ some ',' := by decide

theorem empty_ne_around (language : Language) (c : Container) (e : Scalar) {t : String}
    (ht : t ≠ "") (hmap : c = .map → 2 ≤ t.length) :
    language.spelling.empty c e ≠ (language.spelling.composite c e).around t := by
  have hpos : t.toList.length ≠ 0 := by simpa using ht
  -- a composite with items is longer than an empty one; only for sets of Python that is not enough
  cases language with
  | javaScript => exact Frame.around_empty_ne _ ht
  | typeScript => exact Frame.around_empty_ne _ ht
  | cpp => exact Frame.around_empty_ne _ ht
  | php => exact Frame.around_empty_ne _ ht
  | r => exact Frame.around_empty_ne _ ht
  | go => exact Frame.around_empty_ne _ ht
  | python =>
    cases c with
    | array =>
      show "[]" ≠ (⟨"[", "]"⟩ : Frame).around t
      exact Frame.ne_around (by simp; omega)
    | map =>
      show "\x7b\x7d" ≠ (⟨"\x7b", "\x7d"⟩ : Frame).around t
      exact Frame.ne_around (by simp; omega)
    | set =>
      show "set()" ≠ (⟨"\x7b", "\x7d"⟩ : Frame).around t
      intro h
      have hhead := congrArg (·.toList.head?) h
      simp [Frame.around] at hhead
  | java =>
    cases c with
    | array =>
      show "new ArrayList<>()" ≠ (⟨"new ArrayList<>(List.of(", "))"⟩ : Frame).around t
      exact Frame.ne_around (by simp; omega)
    | map =>
      show "new HashMap<>()" ≠ (⟨"new HashMap<>(Map.ofEntries(", "))"⟩ : Frame).around t
      exact Frame.ne_around (by simp; omega)
    | set =>
      show "new HashSet<>()" ≠ (⟨"new HashSet<>(List.of(", "))"⟩ : Frame).around t
      exact Frame.ne_around (by simp; omega)
  | cSharp =>
    show "new " ++ Target.CSharp.bindings.native (.composite c e) ++ "()" ≠
      (⟨"new " ++ Target.CSharp.bindings.native (.composite c e) ++ " \x7b ", " \x7d"⟩ :
        Frame).around t
    exact Frame.ne_around (by simp; omega)
  | swift =>
    cases c with
    | map =>
      -- an empty map has a colon, so one character between the brackets would not do
      have hlength : 2 ≤ t.toList.length := by
        rw [String.length_toList]
        exact hmap rfl
      show "[:]" ≠ (⟨"[", "]"⟩ : Frame).around t
      exact Frame.ne_around (by simp; omega)
    | array | set =>
      show "[]" ≠ (⟨"[", "]"⟩ : Frame).around t
      exact Frame.ne_around (by simp; omega)

theorem spelling_readable (language : Language) : language.spelling.Readable where
  string := language.spelling_string_sound
  char := language.spelling_char_sound
  yes := by cases language <;> decide
  no := by cases language <;> decide
  bool := by cases language <;> decide
  int := language.stops_int
  entry := by cases language <;> decide
  item := language.stops_item
  composite c e := stops_of_mem_closings _ (language.behind_composite c e)
  comma c e := head?_ne_comma_of_mem_closings _ (language.behind_composite c e)
  empty c e _ := language.empty_ne_around c e

theorem nodup_scalarLiterals (language : Language) {e : Scalar} (he : e.IsExact)
    {values : List ScalarValue} (typed : ∀ value ∈ values, value.HasScalar e)
    (distinct : values.Pairwise fun v w => v.sameValue w = false) :
    (values.map (language.target.style.scalarLiteral e)).Nodup := by
  have hvalues : values.Nodup := distinct.imp_of_mem fun hv _ hdiffer heq =>
    absurd hdiffer (heq ▸ ScalarValue.sameValue_self he (typed _ hv))
  refine List.Nodup.map_on (fun v hv w hw h => ?_) hvalues
  rw [scalarLiteral_eq, scalarLiteral_eq] at h
  exact (language.spelling_readable.legible_scalarText he).injective (typed v hv) (typed w hw) h

theorem nodup_keys (language : Language) {keys : List String} (distinct : keys.Nodup) :
    (keys.map language.target.style.stringLiteral).Nodup := by
  refine List.Nodup.map (fun k k' h => ?_) distinct
  rw [stringLiteral_eq, stringLiteral_eq] at h
  exact language.spelling_string_sound.legible.injective trivial trivial h

/-- **Literals determine their values.** In every language, different literals of a type whose
scalars are exact are written as different texts; so no two items of a set are written alike, and
whatever the elements of a map are, no two of its keys are. -/
theorem literals_determine_values (language : Language) {lenient : Bool} {registry : Registry}
    (hregistry : Registry.standard lenient = .ok registry) (signature : Signature)
    (purpose : Purpose) :
    let style := language.target.style
    let ctx : Context := ⟨signature, registry, language, purpose⟩
    (∀ (type : DataType) (v w : Json) (l m : Literal), type.IsExact →
      Literal.decode type v = .ok l → Literal.decode type w = .ok m → l ≠ m →
      ∃ s t, style.literal? ctx type l = some (.ok s) ∧ style.literal? ctx type m = some (.ok t) ∧
        s ≠ t) ∧
    (∀ (e : Scalar) (v : Json) (l : Literal), e.IsExact →
      Literal.decode (.composite .set e) v = .ok l →
      ∃ values : List ScalarValue, l = .sequence values ∧
        style.literal? ctx (.composite .set e) l =
          some (style.compositeLiteral ctx .set e (values.map (style.scalarLiteral e))) ∧
        (values.map (style.scalarLiteral e)).Nodup) ∧
    ∀ (e : Scalar) (v : Json) (l : Literal), Literal.decode (.composite .map e) v = .ok l →
      ∃ entries : List (String × ScalarValue), l = .entries entries ∧
        style.literal? ctx (.composite .map e) l =
          some (style.compositeLiteral ctx .map e (entries.map fun entry =>
            style.mapEntry (style.stringLiteral entry.1) (style.scalarLiteral e entry.2))) ∧
        (entries.map fun entry => style.stringLiteral entry.1).Nodup := by
  have hctx : Context.Bound ⟨signature, registry, language, purpose⟩ language.target.bindings :=
    Registry.binds_of_standard hregistry language
  refine ⟨fun type v w l m hexact hv hw hne => ?_, fun e v l he hv => ?_, fun e v l hv => ?_⟩
  · have hl := Literal.hasType_of_decode hv
    have hm := Literal.hasType_of_decode hw
    refine ⟨_, _, language.literal?_eq hctx hl, language.literal?_eq hctx hm, fun h => hne ?_⟩
    exact language.spelling_readable.literalText_injective language.scalarText_ne_empty hexact hl
      hm h
  · cases Literal.hasType_of_decode hv with
    | @set values _ typed distinct =>
      exact ⟨values, rfl, rfl, language.nodup_scalarLiterals he typed distinct⟩
  · cases Literal.hasType_of_decode hv with
    | @map entries _ typed distinct =>
      have h := language.nodup_keys distinct
      rw [List.map_map] at h
      exact ⟨entries, rfl, rfl, h⟩

/-- Two strings, and one string that holds what stands between them. -/
theorem literals_determine_values_java_array :
    ∃ s t, java.target.style.literal?
        ⟨default, ⟨Registry.standardRows, Language.all, false⟩, java, .materialized⟩
        (.composite .array .string) (.sequence [.text "a", .text "b"]) = some (.ok s) ∧
      java.target.style.literal?
        ⟨default, ⟨Registry.standardRows, Language.all, false⟩, java, .materialized⟩
        (.composite .array .string) (.sequence [.text "a\", \"b"]) = some (.ok t) ∧ s ≠ t :=
  (literals_determine_values java (Registry.standard_eq false) default .materialized).1
    (.composite .array .string) (.array [.string "a", .string "b"]) (.array [.string "a\", \"b"])
    _ _ (show Scalar.string.IsExact by decide) rfl rfl (by simp)

end Language

end StructuredCall
