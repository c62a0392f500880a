import StructuredCall.Proofs.Literal.Decoded
import StructuredCall.Proofs.Literal.Number
import StructuredCall.Proofs.Literal.Quoting
import StructuredCall.Proofs.Registry

/-!
# Spelling of literals

The target languages write the same literals with different marks around them. A `Spelling` holds
those marks: how texts and characters are quoted, the words for truth values, and what stands
around numbers, entries, items and composites. Whatever is said of the literals of all languages
is proved of spellings and holds for a language through its own one (`Language.spelling`).

Main result: `Language.literal?_eq` — a literal of a type is written as the language's spelling
says.
-/

namespace StructuredCall

/-- Text before and behind a part. -/
structure Frame where
  before : String := ""
  behind : String := ""

/-- A part in its frame. -/
def Frame.around (frame : Frame) (part : String) : String :=
  frame.before ++ part ++ frame.behind

@[simp] theorem Frame.around_empty (part : String) : ({} : Frame).around part = part := by
  simp [Frame.around]

theorem Frame.around_behind (behind part : String) :
    (⟨"", behind⟩ : Frame).around part = part ++ behind := by
  simp [Frame.around]

theorem Frame.around_ne_empty {frame : Frame} {part : String} (h : part ≠ "") :
    frame.around part ≠ "" := by
  simp [Frame.around, h]

/-- What a language writes around the data of a literal. -/
structure Spelling where
  string : Quoting := .plain '"'
  char : Quoting := .plain '"'
  yes : String := "true"
  no : String := "false"
  int : Scalar → Frame := fun _ => {}
  real : Scalar → Frame := fun _ => {}
  entry : Frame := {}
  /-- Stands between the key and the value of an entry. -/
  between : String := ": "
  item : Container → Frame := fun _ => {}
  composite : Container → Scalar → Frame
  /-- A composite without items. -/
  empty : Container → Scalar → String := fun c e => (composite c e).around ""

namespace Spelling

def scalarText (p : Spelling) (s : Scalar) : ScalarValue → String
  | .int n => (p.int s).around (Text.intText n)
  | .real x => (p.real s).around x.literalText
  | .bool b => if b then p.yes else p.no
  | .char c => p.char.text (String.ofList [c])
  | .text s => p.string.text s

def entryText (p : Spelling) (e : Scalar) (entry : String × ScalarValue) : String :=
  p.entry.around (p.string.text entry.1 ++ p.between ++ p.scalarText e entry.2)

/-- A composite from its items. -/
def compositeText (p : Spelling) (c : Container) (e : Scalar) (items : List String) : String :=
  if items = [] then p.empty c e
  else (p.composite c e).around (", ".intercalate (items.map (p.item c).around))

theorem compositeText_bare {p : Spelling} {c : Container} (h : p.item c = {}) {e : Scalar}
    {item : String} {items : List String} : p.compositeText c e (item :: items) =
      (p.composite c e).around (", ".intercalate (item :: items)) := by
  have hid : (p.item c).around = id := funext fun part => by rw [h, Frame.around_empty]; rfl
  rw [compositeText, if_neg (List.cons_ne_nil _ _), hid, List.map_id]

/-- The items of a composite's literal; a scalar has none. -/
def items (p : Spelling) (e : Scalar) : Literal → List String
  | .scalar _ => []
  | .sequence values => values.map (p.scalarText e)
  | .entries entries => entries.map (p.entryText e)

def literalText (p : Spelling) : DataType → Literal → String
  | .scalar s, .scalar value => p.scalarText s value
  | .scalar _, _ => ""
  | .composite c e, literal => p.compositeText c e (p.items e literal)

end Spelling

/-! ## The languages -/

/-- The marks around numbers of some scalar types. -/
def Frame.only (scalar : Scalar) (frame : Frame) (s : Scalar) : Frame :=
  if s = scalar then frame else {}

def Language.spelling : Language → Spelling
  | python =>
    { yes := "True"
      no := "False"
      composite := fun
        | .array, _ => ⟨"[", "]"⟩
        | .map, _ | .set, _ => ⟨"\x7b", "\x7d"⟩
      empty := fun
        | .array, _ => "[]"
        | .map, _ => "\x7b\x7d"
        | .set, _ => "set()" }
  | javaScript | typeScript =>
    { int := Frame.only .long ⟨"", "n"⟩
      composite := fun
        | .array, _ => ⟨"[", "]"⟩
        | .map, _ => ⟨"\x7b", "\x7d"⟩
        | .set, _ => ⟨"new Set([", "])"⟩ }
  | java =>
    { char := .plain '\''
      int := Frame.only .long ⟨"", "L"⟩
      real := Frame.only .float ⟨"", "f"⟩
      entry := ⟨"Map.entry(", ")"⟩
      between := ", "
      composite := fun
        | .array, _ => ⟨"new ArrayList<>(List.of(", "))"⟩
        | .map, _ => ⟨"new HashMap<>(Map.ofEntries(", "))"⟩
        | .set, _ => ⟨"new HashSet<>(List.of(", "))"⟩
      empty := fun
        | .array, _ => "new ArrayList<>()"
        | .map, _ => "new HashMap<>()"
        | .set, _ => "new HashSet<>()" }
  | cpp =>
    { char := .plain '\''
      int := Frame.only .long ⟨"", "LL"⟩
      real := Frame.only .float ⟨"", "f"⟩
      entry := ⟨"\x7b", "\x7d"⟩
      between := ", "
      composite := fun _ _ => ⟨"\x7b", "\x7d"⟩ }
  | cSharp =>
    { char := .plain '\''
      int := Frame.only .long ⟨"", "L"⟩
      real := Frame.only .float ⟨"", "f"⟩
      entry := ⟨"[", ""⟩
      between := "] = "
      composite := fun c e =>
        ⟨"new " ++ Target.CSharp.bindings.native (.composite c e) ++ " \x7b ", " \x7d"⟩
      empty := fun c e => "new " ++ Target.CSharp.bindings.native (.composite c e) ++ "()" }
  | php =>
    { string := .dollar
      char := .dollar
      between := " => "
      composite := fun _ _ => ⟨"[", "]"⟩ }
  | r =>
    { yes := "TRUE"
      no := "FALSE"
      int := fun s => if s = .long then {} else ⟨"", "L"⟩
      between := " = "
      composite := fun
        | .map, _ => ⟨"list(", ")"⟩
        | .array, _ | .set, _ => ⟨"c(", ")"⟩ }
  | swift =>
    { composite := fun _ _ => ⟨"[", "]"⟩
      empty := fun
        | .map, _ => "[:]"
        | .array, _ | .set, _ => "[]" }
  | go =>
    { char := .plain '\''
      int := Frame.only .long ⟨"int64(", ")"⟩
      real := Frame.only .float ⟨"float32(", ")"⟩
      item := fun
        | .set => ⟨"", ": true"⟩
        | .array | .map => {}
      composite := fun c e => ⟨Target.Go.bindings.native (.composite c e) ++ "\x7b", "\x7d"⟩ }

namespace Language

theorem spelling_string_sound (language : Language) : language.spelling.string.Sound := by
  cases language with
  | php => exact Quoting.sound_dollar
  | _ => exact Quoting.sound_plain (.inl rfl)

theorem spelling_char_sound (language : Language) : language.spelling.char.Sound := by
  cases language with
  | php => exact Quoting.sound_dollar
  | java | cpp | cSharp | go => exact Quoting.sound_plain (.inr rfl)
  | _ => exact Quoting.sound_plain (.inl rfl)

variable (language : Language)

theorem stringLiteral_eq (s : String) :
    language.target.style.stringLiteral s = language.spelling.string.text s := by
  cases language with
  | php => exact (Quoting.text_dollar s).symm
  | _ => rfl

theorem charLiteral_eq (c : Char) :
    language.target.style.charLiteral c = language.spelling.char.text (String.ofList [c]) := by
  cases language with
  | php => exact (Quoting.text_dollar _).symm
  | _ => rfl

theorem boolLiteral_eq (b : Bool) : language.target.style.boolLiteral b =
    if b then language.spelling.yes else language.spelling.no := by
  cases language <;> rfl

theorem intLiteral_eq (s : Scalar) (n : Int) : language.target.style.intLiteral s n =
    (language.spelling.int s).around (Text.intText n) := by
  cases language with
  | python | php | swift => exact (Frame.around_empty _).symm
  | javaScript | typeScript | java | cpp | cSharp =>
    cases s with
    | long => exact (Frame.around_behind _ _).symm
    | _ => exact (Frame.around_empty _).symm
  | r =>
    cases s with
    | long => exact (Frame.around_empty _).symm
    | _ => exact (Frame.around_behind _ _).symm
  | go =>
    cases s with
    | long => rfl
    | _ => exact (Frame.around_empty _).symm

theorem realLiteral_eq (s : Scalar) (x : Binary64) : language.target.style.realLiteral s x =
    (language.spelling.real s).around x.literalText := by
  cases language with
  | java | cpp | cSharp =>
    cases s with
    | float => exact (Frame.around_behind _ _).symm
    | _ => exact (Frame.around_empty _).symm
  | go =>
    cases s with
    | float => rfl
    | _ => exact (Frame.around_empty _).symm
  | _ => exact (Frame.around_empty _).symm

theorem mapEntry_eq (key value : String) : language.target.style.mapEntry key value =
    language.spelling.entry.around (key ++ language.spelling.between ++ value) := by
  cases language with
  | java =>
    show "Map.entry(" ++ key ++ ", " ++ value ++ ")" = "Map.entry(" ++ (key ++ ", " ++ value) ++ ")"
    simp only [String.append_assoc]
  | cpp =>
    show "\x7b" ++ key ++ ", " ++ value ++ "\x7d" = "\x7b" ++ (key ++ ", " ++ value) ++ "\x7d"
    simp only [String.append_assoc]
  | cSharp =>
    show "[" ++ key ++ "] = " ++ value = "[" ++ (key ++ "] = " ++ value) ++ ""
    simp only [String.append_assoc, String.append_empty]
  | _ => exact (Frame.around_empty _).symm

theorem scalarLiteral_eq (s : Scalar) (value : ScalarValue) :
    language.target.style.scalarLiteral s value = language.spelling.scalarText s value := by
  cases value with
  | int n => exact language.intLiteral_eq s n
  | real x => exact language.realLiteral_eq s x
  | bool b => exact language.boolLiteral_eq b
  | char c => exact language.charLiteral_eq c
  | text t => exact language.stringLiteral_eq t

theorem entryLiteral_eq (e : Scalar) (entry : String × ScalarValue) :
    language.target.style.entryLiteral e entry = language.spelling.entryText e entry := by
  simp only [CaseStyle.entryLiteral, mapEntry_eq, stringLiteral_eq, scalarLiteral_eq,
    Spelling.entryText]

theorem intercalate_ne_empty {item : String} (h : item ≠ "") (items : List String) :
    ", ".intercalate (item :: items) ≠ "" := by
  cases items with
  | nil => simpa using h
  | cons next items => simp [h]

theorem compositeLiteral_eq {ctx : Context} (hctx : ctx.Bound language.target.bindings)
    (c : Container) (e : Scalar) {items : List String} (hitems : ∀ item ∈ items, item ≠ "") :
    language.target.style.compositeLiteral ctx c e items =
      .ok (language.spelling.compositeText c e items) := by
  cases items with
  | nil =>
    cases language with
    | cSharp =>
      show Target.CSharp.compositeLiteral ctx c e [] = _
      simp [Target.CSharp.compositeLiteral, hctx.native]
      rfl
    | go =>
      show Target.Go.compositeLiteral ctx c e [] = _
      simp [Target.Go.compositeLiteral, hctx.native]
      cases c <;> rfl
    | cpp | php => rfl
    | _ => cases c <;> rfl
  | cons item items =>
    cases language with
    | python =>
      rw [Spelling.compositeText_bare rfl]
      cases c with
      | set =>
        show Except.ok (Target.Python.compositeLiteral .set (item :: items)) = _
        -- a set without a text of its items would be the empty one, which has no braces
        have hne := intercalate_ne_empty (hitems item List.mem_cons_self) items
        simp [Target.Python.compositeLiteral, hne]
        rfl
      | _ => rfl
    | javaScript | typeScript | r | java =>
      rw [Spelling.compositeText_bare rfl]
      cases c <;> rfl
    | cpp | php =>
      rw [Spelling.compositeText_bare rfl]
      rfl
    | swift =>
      rw [Spelling.compositeText_bare rfl]
      show Except.ok (Target.Swift.compositeLiteral c (item :: items)) = _
      simp [Target.Swift.compositeLiteral]
      rfl
    | cSharp =>
      rw [Spelling.compositeText_bare rfl]
      show Target.CSharp.compositeLiteral ctx c e (item :: items) = _
      simp [Target.CSharp.compositeLiteral, hctx.native]
      rfl
    | go =>
      show Target.Go.compositeLiteral ctx c e (item :: items) = _
      simp only [Target.Go.compositeLiteral, hctx.native, Compiled.ok_bind]
      cases c with
      | set =>
        -- the items of a set are keys
        have hitem : ((spelling go).item .set).around = (· ++ ": true") :=
          funext fun part => Frame.around_behind _ part
        simp [Spelling.compositeText, hitem]
        rfl
      | _ =>
        rw [Spelling.compositeText_bare rfl]
        rfl

/-! ## Literals -/

theorem scalarText_ne_empty (s : Scalar) (value : ScalarValue) :
    language.spelling.scalarText s value ≠ "" := by
  cases value with
  | int n => exact Frame.around_ne_empty (Text.intText_ne_empty n)
  | real x => exact Frame.around_ne_empty x.literalText_ne_empty
  | bool b =>
    show (if b then language.spelling.yes else language.spelling.no) ≠ ""
    cases language <;> cases b <;> decide
  | char c => exact Quoting.text_ne_empty _ _
  | text t => exact Quoting.text_ne_empty _ _

theorem entryText_ne_empty (e : Scalar) (entry : String × ScalarValue) :
    language.spelling.entryText e entry ≠ "" :=
  Frame.around_ne_empty (by simp [Quoting.text_ne_empty])

theorem items_ne_empty (e : Scalar) (literal : Literal) :
    ∀ item ∈ language.spelling.items e literal, item ≠ "" := by
  cases literal with
  | scalar value => simp [Spelling.items]
  | sequence values => simp [Spelling.items, scalarText_ne_empty]
  | entries entries =>
    rintro item hitem
    obtain ⟨entry, -, rfl⟩ := List.mem_map.1 hitem
    exact language.entryText_ne_empty e entry

/-- **The literals of a language.** A literal of a type is written as the spelling says. -/
theorem literal?_eq {ctx : Context} (hctx : ctx.Bound language.target.bindings)
    {type : DataType} {literal : Literal} (h : literal.HasType type) :
    language.target.style.literal? ctx type literal =
      some (.ok (language.spelling.literalText type literal)) := by
  have hscalar : ∀ e, language.target.style.scalarLiteral e = language.spelling.scalarText e :=
    fun e => funext (language.scalarLiteral_eq e)
  have hentry : ∀ e, language.target.style.entryLiteral e = language.spelling.entryText e :=
    fun e => funext (language.entryLiteral_eq e)
  cases h with
  | scalar => simp only [CaseStyle.literal?, hscalar, Spelling.literalText]
  | @array values e | @set values e =>
    rw [Spelling.literalText, ← language.compositeLiteral_eq hctx _ e (language.items_ne_empty e _)]
    simp only [CaseStyle.literal?, hscalar, Spelling.items]
  | @map entries e =>
    rw [Spelling.literalText, ← language.compositeLiteral_eq hctx _ e (language.items_ne_empty e _)]
    simp only [CaseStyle.literal?, hentry, Spelling.items]

end Language

end StructuredCall
