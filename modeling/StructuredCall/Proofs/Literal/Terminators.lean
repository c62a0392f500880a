import StructuredCall.Literal.Expected
import StructuredCall.Proofs.Literal.Spelling

/-!
# Line terminators in C#

C# has five line terminators, none of which may stand inside of a string or a character. Two of
them, line feed and carriage return, are written as escapes and so never do. The other three are
written like any other character (`Target.CSharp.lineEnds_quoted`). Nothing else that is written
around test data has a terminator, apart from the name that the registry gives to a composite type.
So the terminators in a literal are exactly those of the three kinds that are in its texts.

Main result: `Target.CSharp.lineEnds_of_literals`.
-/

namespace StructuredCall

/-! ## The texts in a literal -/

/-- The characters that are data: those of a text, or one. -/
def ScalarValue.characters : ScalarValue → List Char
  | .char c => [c]
  | .text s => s.toList
  | .int _ | .real _ | .bool _ => []

/-- The characters of all texts and keys in a literal, in order. -/
def Literal.characters : Literal → List Char
  | .scalar value => value.characters
  | .sequence values => values.flatMap (·.characters)
  | .entries es => es.flatMap fun entry => entry.1.toList ++ entry.2.characters

namespace Target.CSharp

/-! ## Terminators -/

/-- The terminators that are written as they are. -/
def bareTerminators : List Char :=
  ['\x85', '\u2028', '\u2029']

/-- The characters that end a line of a program. -/
def lineTerminators : List Char :=
  '\n' :: '\r' :: bareTerminators

/-- The line terminators in a text, in order. -/
def lineEnds (text : String) : List Char :=
  text.toList.filter (· ∈ lineTerminators)

/-- Those among some characters that are written as they are. -/
def bareEnds (cs : List Char) : List Char :=
  cs.filter (· ∈ bareTerminators)

@[simp] theorem lineEnds_append (s t : String) : lineEnds (s ++ t) = lineEnds s ++ lineEnds t := by
  simp [lineEnds]

theorem bareEnds_append (cs ds : List Char) : bareEnds (cs ++ ds) = bareEnds cs ++ bareEnds ds :=
  List.filter_append ..

theorem lineEnds_eq_nil {text : String} : lineEnds text = [] ↔
    ∀ c ∈ text.toList, c ∉ lineTerminators := by
  simp [lineEnds, List.filter_eq_nil_iff]

theorem lineEnds_intercalate (items : List String) :
    lineEnds (", ".intercalate items) = items.flatMap lineEnds := by
  induction items with
  | nil => rfl
  | cons item items ih =>
    cases items with
    | nil => simp
    | cons next items =>
      have hcomma : lineEnds ", " = [] := by decide
      rw [String.intercalate_cons_cons, lineEnds_append, lineEnds_append, hcomma, ih,
        List.append_nil, ← List.flatMap_cons]

/-! ## Literals of scalars -/

theorem filter_quotedChar {mark : Char} (h : mark ∉ lineTerminators) (c : Char) :
    (Text.quotedChar mark c).filter (· ∈ lineTerminators) = bareEnds [c] := by
  unfold Text.quotedChar
  split_ifs with hbackslash hfeed hreturn htab hmark
  · subst hbackslash
    decide
  · subst hfeed
    decide
  · subst hreturn
    decide
  · subst htab
    decide
  · have hbare : mark ∉ bareTerminators := fun hmem =>
      h (List.mem_cons_of_mem _ (List.mem_cons_of_mem _ hmem))
    have hslash : '\\' ∉ lineTerminators := by decide
    rw [hmark]
    simp [bareEnds, h, hbare, hslash]
  · have hsame : c ∈ lineTerminators ↔ c ∈ bareTerminators := by
      simp [lineTerminators, hfeed, hreturn]
    simp only [bareEnds, List.filter_cons, List.filter_nil, hsame]

/-- Of a text between marks, the terminators that are written as they are are kept. -/
theorem lineEnds_quoted {mark : Char} (h : mark ∉ lineTerminators) (s : String) :
    lineEnds (Text.quoted mark s) = bareEnds s.toList := by
  have hchars : ∀ cs : List Char,
      (cs.flatMap (Text.quotedChar mark)).filter (· ∈ lineTerminators) = bareEnds cs := by
    intro cs
    induction cs with
    | nil => rfl
    | cons c cs ih =>
      rw [List.flatMap_cons, List.filter_append, filter_quotedChar h, ih, ← bareEnds_append,
        List.singleton_append]
  simp [lineEnds, Text.quoted, Text.quotedChars, h, hchars]

theorem lineEnds_stringLiteral (s : String) :
    lineEnds (style.stringLiteral s) = bareEnds s.toList :=
  lineEnds_quoted (by decide) s

theorem lineEnds_of_numeric {text : String} (h : ∀ c ∈ text.toList, Text.Numeric c) :
    lineEnds text = [] := by
  have hnone : lineTerminators.filter (Text.Numeric ·) = [] := by decide
  refine lineEnds_eq_nil.2 fun c hc hmem => ?_
  exact List.filter_eq_nil_iff.1 hnone c hmem (decide_eq_true (h c hc))

theorem lineEnds_scalarLiteral {s : Scalar} {value : ScalarValue} (h : value.HasScalar s) :
    lineEnds (style.scalarLiteral s value) = bareEnds value.characters := by
  have hint : ∀ n, lineEnds (Text.intText n) = [] := fun n => lineEnds_of_numeric fun c hc =>
    Text.numeric_of_mem_intDigits (by simpa [Text.intText] using hc)
  have hreal : ∀ {x : Binary64}, x.isFinite = true → lineEnds x.literalText = [] := fun hx =>
    lineEnds_of_numeric fun c hc => Binary64.numeric_of_mem_literalText hx hc
  cases h with
  | integer fits => exact hint _
  | long fits =>
    show lineEnds (Text.intText _ ++ "L") = []
    rw [lineEnds_append, hint]
    decide
  | float finite =>
    show lineEnds (Binary64.literalText _ ++ "f") = []
    rw [lineEnds_append, hreal finite]
    decide
  | double finite => exact hreal finite
  | boolean b => cases b <;> decide
  | character c =>
    show lineEnds (Text.quoted '\'' (String.ofList [c])) = bareEnds [c]
    rw [lineEnds_quoted (by decide), String.toList_ofList]
  | string text => exact lineEnds_stringLiteral text

/-! ## Literals of composites -/

theorem lineEnds_entryLiteral {e : Scalar} {entry : String × ScalarValue}
    (h : entry.2.HasScalar e) : lineEnds (style.entryLiteral e entry) =
      bareEnds (entry.1.toList ++ entry.2.characters) := by
  have hopen : lineEnds "[" = [] := by decide
  have hbetween : lineEnds "] = " = [] := by decide
  show lineEnds ("[" ++ style.stringLiteral entry.1 ++ "] = " ++ style.scalarLiteral e entry.2) = _
  rw [bareEnds_append, lineEnds_append, lineEnds_append, lineEnds_append, hopen, hbetween,
    lineEnds_stringLiteral, lineEnds_scalarLiteral h, List.nil_append, List.append_nil]

variable {ctx : Context} {c : Container} {e : Scalar} {name : String}
  (hname : ctx.native (.composite c e) = .ok name)
include hname

/-- A composite has the terminators of its name and of its items. -/
theorem lineEnds_compositeLiteral (items : List String) :
    ∃ text, style.compositeLiteral ctx c e items = .ok text ∧
      lineEnds text = lineEnds name ++ items.flatMap lineEnds := by
  have hopen : lineEnds "new " = [] := by decide
  cases items with
  | nil =>
    refine ⟨"new " ++ name ++ "()", ?_, ?_⟩
    · show compositeLiteral ctx c e [] = _
      simp [compositeLiteral, hname]
    · have hempty : lineEnds "()" = [] := by decide
      simp [hopen, hempty]
  | cons item items =>
    refine ⟨"new " ++ name ++ " \x7b " ++ ", ".intercalate (item :: items) ++ " \x7d", ?_, ?_⟩
    · show compositeLiteral ctx c e (item :: items) = _
      simp [compositeLiteral, hname]
    · have hbefore : lineEnds " \x7b " = [] := by decide
      have hbehind : lineEnds " \x7d" = [] := by decide
      rw [lineEnds_append, lineEnds_append, lineEnds_append, lineEnds_append,
        lineEnds_intercalate, hopen, hbefore, hbehind, List.nil_append, List.append_nil,
        List.append_nil]

/-- A literal of a composite type has the terminators of the type's name, and those of its data that
are written as they are. -/
theorem lineEnds_composite {literal : Literal} (h : literal.HasType (.composite c e)) :
    ∃ text, style.literal? ctx (.composite c e) literal = some (.ok text) ∧
      lineEnds text = lineEnds name ++ bareEnds literal.characters := by
  have hbare : ∀ {α : Type} (xs : List α) (f : α → List Char),
      bareEnds (xs.flatMap f) = xs.flatMap fun x => bareEnds (f x) :=
    fun xs f => List.filter_flatMap ..
  cases h with
  | @array values _ typed | @set values _ typed =>
    obtain ⟨text, htext, hends⟩ :=
      lineEnds_compositeLiteral hname (values.map (style.scalarLiteral e))
    refine ⟨text, congrArg some htext, ?_⟩
    rw [hends, Literal.characters, hbare, List.flatMap_map]
    exact congrArg _ (List.flatMap_congr fun value hvalue =>
      lineEnds_scalarLiteral (typed value hvalue))
  | @map entries _ typed =>
    obtain ⟨text, htext, hends⟩ :=
      lineEnds_compositeLiteral hname (entries.map (style.entryLiteral e))
    refine ⟨text, congrArg some htext, ?_⟩
    rw [hends, Literal.characters, hbare, List.flatMap_map]
    exact congrArg _ (List.flatMap_congr fun entry hentry =>
      lineEnds_entryLiteral (typed entry hentry))

omit hname

/-! ## All literals -/

/-- **The line terminators in literals come from the data.** In every registry for C#, a value that
is decoded at a type has a literal, and the terminators in it are those of the type's name, where
the type is a composite, and behind them those of the data that are neither line feeds nor carriage
returns, all of them in order. The same holds for the texts of an identifier and of an expected
output. -/
theorem lineEnds_of_literals {rows : List BindingRow} {languages : List Language} {lenient : Bool}
    {registry : Registry} (hregistry : Registry.ofRows rows languages lenient = .ok registry)
    (hlisted : .cSharp ∈ languages) :
    (∀ signature purpose type value literal, Literal.decode type value = .ok literal →
      ∃ name text, registry.native type .cSharp = .ok name ∧
        style.literal? ⟨signature, registry, .cSharp, purpose⟩ type literal = some (.ok text) ∧
        lineEnds text =
          (if type.isComposite then lineEnds name else []) ++ bareEnds literal.characters) ∧
    (∀ id, lineEnds (style.stringLiteral id) = bareEnds id.toList) ∧
    ∀ returns output, lineEnds (style.stringLiteral (Expected.text returns output)) =
      bareEnds (Expected.text returns output).toList := by
  refine ⟨fun signature purpose type value literal hdecode => ?_, lineEnds_stringLiteral,
    fun returns output => lineEnds_stringLiteral _⟩
  obtain ⟨table, hbinds⟩ := Registry.exists_binds hregistry hlisted
  have hctx : Context.Bound ⟨signature, registry, .cSharp, purpose⟩ table := hbinds
  have htype := Literal.hasType_of_decode hdecode
  refine ⟨table.native type, ?_⟩
  cases type with
  | scalar s =>
    cases htype with
    | scalar typed => exact ⟨_, hctx.native _, rfl, lineEnds_scalarLiteral typed⟩
  | composite c e =>
    obtain ⟨text, htext, hends⟩ := lineEnds_composite (hctx.native (.composite c e)) htype
    exact ⟨text, hctx.native _, htext, hends⟩

/-- A map with a terminator in a key, one that is escaped in a value, and one that is not. -/
theorem lineEnds_of_literals_map :
    let registry : Registry := ⟨Registry.standardRows, Language.all, false⟩
    let value : Json := .object [("a\u2028", .string "b\nc\x85")]
    let literal : Literal := .entries [("a\u2028", .text "b\nc\x85")]
    Literal.decode (.composite .map .string) value = .ok literal ∧
    ∃ text, style.literal? ⟨default, registry, .cSharp, .materialized⟩ (.composite .map .string)
        literal = some (.ok text) ∧ lineEnds text = ['\u2028', '\x85'] := by
  intro registry value literal
  have hdecode : Literal.decode (.composite .map .string) value = .ok literal := by rfl
  obtain ⟨name, text, hname, htext, hends⟩ :=
    (lineEnds_of_literals (Registry.standard_eq false) (Language.mem_all _)).1 default .materialized
      _ _ _ hdecode
  obtain rfl : "Dictionary<string, string>" = name := by
    refine Except.ok.inj (Eq.trans ?_ hname)
    decide +kernel
  refine ⟨hdecode, text, htext, hends.trans ?_⟩
  decide

/-- A text with a line separator. -/
theorem lineEnds_of_literals_not_nil :
    ¬ ∀ type value literal text, Literal.decode type value = .ok literal →
      style.literal? ⟨default, ⟨Registry.standardRows, Language.all, false⟩, .cSharp, .materialized⟩
        type literal = some (.ok text) → ∀ c ∈ text.toList, c ∉ lineTerminators := by
  intro h
  have hnone := h (.scalar .string) (.string "\u2028") (.scalar (.text "\u2028")) _ rfl rfl
  exact absurd (lineEnds_eq_nil.2 hnone) (by decide)

end Target.CSharp

end StructuredCall
