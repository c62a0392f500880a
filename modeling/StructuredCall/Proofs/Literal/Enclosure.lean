import StructuredCall.Literal.Expected
import StructuredCall.Proofs.Literal.Spelling

/-!
# Enclosed data

Test data is arbitrary text, and it stands in the middle of a program. A scan goes over program
text as any of the languages would see it: it knows quoted literals with backslash escapes, and
counts the brackets outside of them. Text is `Enclosed` when a scan that starts in code comes out
where it started, closes no bracket that was opened before, and meets no line break.

Main result: `Language.literals_enclosed`. Quoted texts are enclosed because no mark inside ends
them, numbers because they have no mark or bracket at all, and a composite because its frame opens
as many brackets as it closes. What is left to check for a language is its spelling
(`Spelling.Encloses`), which is finite.
-/

namespace StructuredCall

/-! ## Scanning -/

/-- Where a scan stands: in code, inside of a quoted literal, or there behind a backslash. -/
inductive Place
  | code
  | quoted (mark : Char)
  | escaped (mark : Char)
deriving DecidableEq

/-- A scan of program text. -/
structure Scan where
  place : Place := .code
  /-- The number of open brackets. -/
  depth : Nat := 0
deriving DecidableEq

namespace Scan

/-- Takes in one character. A bracket that closes none stops the scan. -/
def step? (scan : Scan) (c : Char) : Option Scan :=
  match scan.place with
  | .escaped mark => some { scan with place := .quoted mark }
  | .quoted mark =>
    if c = '\\' then some { scan with place := .escaped mark }
    else if c = mark then some { scan with place := .code }
    else some scan
  | .code =>
    if c = '"' ∨ c = '\'' then some { scan with place := .quoted c }
    else if c = '(' ∨ c = '[' ∨ c = '\x7b' then some { scan with depth := scan.depth + 1 }
    else if c = ')' ∨ c = ']' ∨ c = '\x7d' then
      if scan.depth = 0 then none else some { scan with depth := scan.depth - 1 }
    else some scan

def run? (scan : Scan) (cs : List Char) : Option Scan :=
  cs.foldlM step? scan

end Scan

/-- Text that takes a scan from code at one depth to code at another, without a line break. -/
structure Leads (cs : List Char) (depth after : Nat) : Prop where
  run : Scan.run? ⟨.code, depth⟩ cs = some ⟨.code, after⟩
  noFeed : '\n' ∉ cs
  noReturn : '\r' ∉ cs

/-- Text behind which a scan is where it was before. -/
def Enclosed (cs : List Char) : Prop :=
  Leads cs 0 0

namespace Scan

@[simp] theorem run?_nil (scan : Scan) : scan.run? [] = some scan := rfl

theorem run?_cons (scan : Scan) (c : Char) (cs : List Char) :
    scan.run? (c :: cs) = (scan.step? c).bind (·.run? cs) := by
  simp [run?, Option.bind_eq_bind]

theorem run?_append (scan : Scan) (xs ys : List Char) :
    scan.run? (xs ++ ys) = (scan.run? xs).bind (·.run? ys) := by
  simp [run?, Option.bind_eq_bind]

/-- More open brackets around change nothing. -/
theorem step?_deeper {scan next : Scan} {c : Char} (h : scan.step? c = some next) (k : Nat) :
    step? ⟨scan.place, scan.depth + k⟩ c = some ⟨next.place, next.depth + k⟩ := by
  obtain ⟨place, depth⟩ := scan
  cases place with
  | escaped mark =>
    cases h
    rfl
  | quoted mark =>
    simp only [step?] at h ⊢
    split_ifs at h ⊢ <;> cases h <;> rfl
  | code =>
    by_cases hmark : c = '"' ∨ c = '\''
    · simp only [step?, hmark, if_true] at h ⊢
      cases h
      rfl
    by_cases hopen : c = '(' ∨ c = '[' ∨ c = '\x7b'
    · simp only [step?, hmark, hopen, if_true, if_false] at h ⊢
      cases h
      simp [Nat.add_right_comm]
    by_cases hclose : c = ')' ∨ c = ']' ∨ c = '\x7d'
    · simp only [step?, hmark, hopen, hclose, if_true, if_false] at h ⊢
      -- a bracket that closes none is excluded by `h`
      by_cases hdepth : depth = 0
      · simp [hdepth] at h
      · rw [if_neg hdepth] at h
        rw [if_neg (by omega)]
        cases h
        simp only [Option.some.injEq, Scan.mk.injEq, true_and]
        omega
    · simp only [step?, hmark, hopen, hclose, if_false] at h ⊢
      cases h
      rfl

theorem run?_deeper {scan last : Scan} {cs : List Char} (h : scan.run? cs = some last) (k : Nat) :
    run? ⟨scan.place, scan.depth + k⟩ cs = some ⟨last.place, last.depth + k⟩ := by
  induction cs generalizing scan with
  | nil =>
    cases h
    rfl
  | cons c cs ih =>
    rw [run?_cons] at h ⊢
    obtain ⟨next, hnext, hlast⟩ := Option.bind_eq_some_iff.1 h
    rw [step?_deeper hnext k]
    exact ih hlast

end Scan

/-! ## Composing -/

namespace Leads

instance (cs : List Char) (depth after : Nat) : Decidable (Leads cs depth after) :=
  decidable_of_iff
    (Scan.run? ⟨.code, depth⟩ cs = some ⟨.code, after⟩ ∧ '\n' ∉ cs ∧ '\r' ∉ cs)
    ⟨fun ⟨run, noFeed, noReturn⟩ => ⟨run, noFeed, noReturn⟩,
      fun ⟨run, noFeed, noReturn⟩ => ⟨run, noFeed, noReturn⟩⟩

theorem append {xs ys : List Char} {depth middle after : Nat} (hx : Leads xs depth middle)
    (hy : Leads ys middle after) : Leads (xs ++ ys) depth after where
  run := by rw [Scan.run?_append, hx.run, Option.bind_some, hy.run]
  noFeed := by simp [hx.noFeed, hy.noFeed]
  noReturn := by simp [hx.noReturn, hy.noReturn]

end Leads

namespace Enclosed

instance (cs : List Char) : Decidable (Enclosed cs) :=
  inferInstanceAs (Decidable (Leads cs 0 0))

/-- Enclosed text leaves a scan where it was at any depth. -/
theorem leads {cs : List Char} (h : Enclosed cs) (depth : Nat) : Leads cs depth depth where
  run := by simpa using Scan.run?_deeper h.run depth
  noFeed := h.noFeed
  noReturn := h.noReturn

theorem nil : Enclosed [] := by decide

theorem append {xs ys : List Char} (hx : Enclosed xs) (hy : Enclosed ys) : Enclosed (xs ++ ys) :=
  Leads.append hx hy

theorem intercalate {parts : List (List Char)} (h : ∀ part ∈ parts, Enclosed part) :
    Enclosed ([',', ' '].intercalate parts) :=
  Text.intercalate_induction nil (fun hpart hrest => (hpart.append (by decide)).append hrest) h

end Enclosed

/-- The depth at which a scan that starts in code leaves a text. -/
def depthBehind (depth : Nat) (cs : List Char) : Nat :=
  ((Scan.run? ⟨.code, depth⟩ cs).map (·.depth)).getD 0

/-- Fixed texts with data between them: each starts and ends in code, and in the end every
bracket is closed. -/
def Closes (depth : Nat) : List String → Prop
  | [] => depth = 0
  | t :: ts => Leads t.toList depth (depthBehind depth t.toList) ∧
      Closes (depthBehind depth t.toList) ts

instance Closes.decidable (depth : Nat) : (ts : List String) → Decidable (Closes depth ts)
  | [] => inferInstanceAs (Decidable (depth = 0))
  | t :: ts =>
    have := Closes.decidable (depthBehind depth t.toList) ts
    inferInstanceAs (Decidable (Leads t.toList depth (depthBehind depth t.toList) ∧
      Closes (depthBehind depth t.toList) ts))

/-- The frame closes what it opens. -/
def Frame.Encloses (frame : Frame) : Prop :=
  Closes 0 [frame.before, frame.behind]

instance (frame : Frame) : Decidable frame.Encloses :=
  inferInstanceAs (Decidable (Closes 0 [frame.before, frame.behind]))

theorem Frame.Encloses.around {frame : Frame} (h : frame.Encloses) {part : String}
    (hpart : Enclosed part.toList) : Enclosed (frame.around part).toList := by
  obtain ⟨hbefore, hbehind, hzero⟩ := h
  rw [hzero] at hbehind
  have h := (hbefore.append (hpart.leads _)).append hbehind
  simpa [Frame.around, Enclosed] using h

theorem Frame.Encloses.around_nothing {frame : Frame} (h : frame.Encloses) :
    Enclosed (frame.around "").toList :=
  h.around (by decide)

theorem Frame.Encloses.of_leads {frame : Frame} {depth : Nat}
    (hbefore : Leads frame.before.toList 0 depth) (hbehind : Leads frame.behind.toList depth 0) :
    frame.Encloses := by
  have hdepth : depthBehind 0 frame.before.toList = depth := by simp [depthBehind, hbefore.run]
  have hzero : depthBehind depth frame.behind.toList = 0 := by simp [depthBehind, hbehind.run]
  refine ⟨?_, ?_⟩
  · rw [hdepth]
    exact hbefore
  · rw [hdepth]
    refine ⟨?_, ?_⟩
    · rw [hzero]
      exact hbehind
    · exact hzero

theorem Frame.encloses_empty : ({} : Frame).Encloses := by decide

theorem Frame.Encloses.only {frame : Frame} (h : frame.Encloses) (scalar s : Scalar) :
    (Frame.only scalar frame s).Encloses := by
  unfold Frame.only
  split
  · exact h
  · exact Frame.encloses_empty

/-! ## Data -/

namespace Quoting.Sound

variable {q : Quoting} (hq : q.Sound)
include hq

/-- Inside of a quoted text a scan stays between the marks. -/
theorem run?_write (depth : Nat) (c : Char) :
    Scan.run? ⟨.quoted q.mark, depth⟩ (q.write c) = some ⟨.quoted q.mark, depth⟩ := by
  have hw := hq.written c
  have hmark := hq.mark_ne.1
  generalize q.write c = w at hw
  cases hw with
  | itself notMark notBackslash => simp [Scan.run?, Scan.step?, notMark, notBackslash]
  | escaped d => simp [Scan.run?, Scan.step?]

theorem run?_flatMap_write (depth : Nat) (cs : List Char) :
    Scan.run? ⟨.quoted q.mark, depth⟩ (cs.flatMap q.write) = some ⟨.quoted q.mark, depth⟩ := by
  induction cs with
  | nil => rfl
  | cons c cs ih => rw [List.flatMap_cons, Scan.run?_append, hq.run?_write, Option.bind_some, ih]

theorem no_break_write {c d : Char} (h : d ∈ q.write c) : d ≠ '\n' ∧ d ≠ '\r' := by
  have hw := hq.written c
  generalize q.write c = w at h hw
  cases hw with
  | itself _ _ notFeed notReturn => simp_all
  | escaped e notFeed notReturn =>
    simp only [List.mem_cons, List.not_mem_nil, or_false] at h
    rcases h with rfl | rfl
    · decide
    · exact ⟨notFeed, notReturn⟩

theorem no_break_chars {cs : List Char} {d : Char} (h : d ∈ q.chars cs) : d ≠ '\n' ∧ d ≠ '\r' := by
  simp only [chars, List.cons_append, List.mem_cons, List.mem_append, List.mem_flatMap,
    List.not_mem_nil, or_false] at h
  rcases h with rfl | ⟨c, -, h⟩ | rfl
  · exact hq.mark_ne.2
  · exact hq.no_break_write h
  · exact hq.mark_ne.2

/-- **A quoted text is enclosed**, whatever it holds. -/
theorem enclosed (s : String) : Enclosed (q.text s).toList := by
  rw [toList_text]
  refine ⟨?_, fun h => (hq.no_break_chars h).1 rfl, fun h => (hq.no_break_chars h).2 rfl⟩
  have hopen : Scan.step? ⟨.code, 0⟩ q.mark = some ⟨.quoted q.mark, 0⟩ := if_pos hq.isMark
  have hclose : Scan.run? ⟨.quoted q.mark, 0⟩ [q.mark] = some ⟨.code, 0⟩ := by
    simp [Scan.run?, Scan.step?, hq.mark_ne.1]
  rw [chars, List.cons_append, Scan.run?_cons, hopen, Option.bind_some, Scan.run?_append,
    hq.run?_flatMap_write, Option.bind_some, hclose]

end Quoting.Sound

theorem step?_of_numeric {c : Char} (h : Text.Numeric c) (depth : Nat) :
    Scan.step? ⟨.code, depth⟩ c = some ⟨.code, depth⟩ := by
  have hmark : ¬(c = '"' ∨ c = '\'') := by
    rintro (rfl | rfl) <;> exact absurd h (by decide)
  have hopen : ¬(c = '(' ∨ c = '[' ∨ c = '\x7b') := by
    rintro (rfl | rfl | rfl) <;> exact absurd h (by decide)
  have hclose : ¬(c = ')' ∨ c = ']' ∨ c = '\x7d') := by
    rintro (rfl | rfl | rfl) <;> exact absurd h (by decide)
  simp only [Scan.step?, hmark, hopen, hclose, if_false]

theorem enclosed_of_numeric {cs : List Char} (h : ∀ c ∈ cs, Text.Numeric c) : Enclosed cs := by
  refine ⟨?_, fun hmem => absurd (h _ hmem) (by decide), fun hmem => absurd (h _ hmem) (by decide)⟩
  induction cs with
  | nil => rfl
  | cons c cs ih =>
    obtain ⟨hc, hcs⟩ := List.forall_mem_cons.1 h
    rw [Scan.run?_cons, step?_of_numeric hc, Option.bind_some, ih hcs]

/-! ## Spellings -/

namespace Spelling

/-- What a spelling has to be like so that the literals are enclosed. -/
structure Encloses (p : Spelling) : Prop where
  string : p.string.Sound
  char : p.char.Sound
  yes : Enclosed p.yes.toList
  no : Enclosed p.no.toList
  int : ∀ s, (p.int s).Encloses
  real : ∀ s, (p.real s).Encloses
  entry : Closes 0 [p.entry.before, p.between, p.entry.behind]
  item : ∀ c, (p.item c).Encloses
  composite : ∀ c e, (p.composite c e).Encloses
  empty : ∀ c e, Enclosed (p.empty c e).toList

namespace Encloses

variable {p : Spelling} (hp : p.Encloses)
include hp

theorem scalarText {s : Scalar} {value : ScalarValue} (h : value.HasScalar s) :
    Enclosed (p.scalarText s value).toList := by
  have hint : ∀ n, Enclosed (Text.intText n).toList := fun n =>
    enclosed_of_numeric fun c hc => Text.numeric_of_mem_intDigits (by simpa [Text.intText] using hc)
  have hreal : ∀ {x : Binary64}, x.isFinite = true → Enclosed x.literalText.toList := fun hx =>
    enclosed_of_numeric fun c hc => Binary64.numeric_of_mem_literalText hx hc
  cases h with
  | integer | long => exact (hp.int _).around (hint _)
  | float finite | double finite => exact (hp.real _).around (hreal finite)
  | boolean b =>
    cases b with
    | true => exact hp.yes
    | false => exact hp.no
  | character => exact hp.char.enclosed _
  | string => exact hp.string.enclosed _

theorem entryText {e : Scalar} {entry : String × ScalarValue} (h : entry.2.HasScalar e) :
    Enclosed (p.entryText e entry).toList := by
  obtain ⟨hbefore, hbetween, hbehind, hzero⟩ := hp.entry
  rw [hzero] at hbehind
  have hkey := (hp.string.enclosed entry.1).leads
  have hvalue := (hp.scalarText h).leads
  have h := (((hbefore.append (hkey _)).append hbetween).append (hvalue _)).append hbehind
  simpa [Spelling.entryText, Frame.around, Enclosed] using h

theorem compositeText {c : Container} {e : Scalar} {items : List String}
    (h : ∀ item ∈ items, Enclosed item.toList) : Enclosed (p.compositeText c e items).toList := by
  unfold Spelling.compositeText
  split_ifs with hempty
  · exact hp.empty c e
  · refine (hp.composite c e).around ?_
    rw [String.toList_intercalate]
    refine Enclosed.intercalate fun part hpart => ?_
    simp only [List.map_map, List.mem_map] at hpart
    obtain ⟨item, hitem, rfl⟩ := hpart
    exact (hp.item c).around (h item hitem)

theorem literalText {type : DataType} {literal : Literal} (h : literal.HasType type) :
    Enclosed (p.literalText type literal).toList := by
  cases h with
  | scalar typed => exact hp.scalarText typed
  | array typed | set typed =>
    refine hp.compositeText fun item hitem => ?_
    obtain ⟨value, hvalue, rfl⟩ := List.mem_map.1 hitem
    exact hp.scalarText (typed value hvalue)
  | map typed =>
    refine hp.compositeText fun item hitem => ?_
    obtain ⟨entry, hentry, rfl⟩ := List.mem_map.1 hitem
    exact hp.entryText (typed entry hentry)

end Encloses

end Spelling

/-! ## Templates -/

theorem Text.fillChars_of_not_mem {value template : List Char} (h : '\x7b' ∉ template) :
    fillChars value template = template := by
  induction template with
  | nil => rfl
  | cons c cs ih =>
    rw [List.mem_cons, not_or] at h
    rw [fillChars, ih h.2]
    rintro rest rfl
    exact absurd rfl h.1

theorem Text.fillChars_append {value before : List Char} (h : '\x7b' ∉ before)
    (template : List Char) :
    fillChars value (before ++ template) = before ++ fillChars value template := by
  induction before with
  | nil => rfl
  | cons c cs ih =>
    rw [List.mem_cons, not_or] at h
    rw [List.cons_append, fillChars, ih h.2, List.cons_append]
    rintro rest rfl
    exact absurd rfl h.1

/-- A template that has one hole, in the frame. -/
structure Frame.Cut (frame : Frame) (template : String) : Prop where
  whole : template.toList = frame.before.toList ++ '\x7b' :: '0' :: '\x7d' :: frame.behind.toList
  before : '\x7b' ∉ frame.before.toList
  behind : '\x7b' ∉ frame.behind.toList

instance (frame : Frame) (template : String) : Decidable (frame.Cut template) :=
  decidable_of_iff
    (template.toList = frame.before.toList ++ '\x7b' :: '0' :: '\x7d' :: frame.behind.toList ∧
      '\x7b' ∉ frame.before.toList ∧ '\x7b' ∉ frame.behind.toList)
    ⟨fun ⟨whole, before, behind⟩ => ⟨whole, before, behind⟩,
      fun ⟨whole, before, behind⟩ => ⟨whole, before, behind⟩⟩

theorem Frame.Cut.fill_eq {frame : Frame} {template : String} (h : frame.Cut template)
    (value : String) : Text.fill template value = frame.around value := by
  apply String.ext
  rw [Text.fill, h.whole, Text.fillChars_append h.before, Text.fillChars,
    Text.fillChars_of_not_mem h.behind]
  simp [Frame.around]

namespace Language

theorem encloses_int (language : Language) (s : Scalar) :
    (language.spelling.int s).Encloses := by
  cases language with
  | javaScript | typeScript | java | cpp | cSharp | go =>
    exact Frame.Encloses.only (by decide) .long s
  | r =>
    show (if s = .long then {} else ⟨"", "L"⟩ : Frame).Encloses
    split
    · exact Frame.encloses_empty
    · decide
  | python | php | swift => exact Frame.encloses_empty

theorem encloses_real (language : Language) (s : Scalar) :
    (language.spelling.real s).Encloses := by
  cases language with
  | java | cpp | cSharp | go => exact Frame.Encloses.only (by decide) .float s
  | _ => exact Frame.encloses_empty

theorem encloses_item (language : Language) (c : Container) :
    (language.spelling.item c).Encloses := by
  cases language with
  | go => cases c <;> decide
  | _ => exact Frame.encloses_empty

/-! ### Composites -/

/-- The name of a composite type is enclosed where its template is a frame around the element's. -/
theorem enclosed_native {table : BindingTable} {c : Container} {e : Scalar} (frame : Frame)
    (hcut : frame.Cut (table (.container c)).native) (hframe : frame.Encloses)
    (helement : Enclosed (table (.scalar e)).generic.toList) :
    Enclosed (table.native (.composite c e)).toList := by
  show Enclosed (Text.fill (table (.container c)).native (table (.scalar e)).generic).toList
  rw [hcut.fill_eq]
  exact hframe.around helement

theorem enclosed_native_cSharp (c : Container) (e : Scalar) :
    Enclosed (Target.CSharp.bindings.native (.composite c e)).toList := by
  have helement : Enclosed (Target.CSharp.bindings (.scalar e)).generic.toList := by
    cases e <;> decide
  cases c with
  | array => exact enclosed_native ⟨"List<", ">"⟩ (by decide) (by decide) helement
  | map => exact enclosed_native ⟨"Dictionary<string, ", ">"⟩ (by decide) (by decide) helement
  | set => exact enclosed_native ⟨"HashSet<", ">"⟩ (by decide) (by decide) helement

theorem enclosed_native_go (c : Container) (e : Scalar) :
    Enclosed (Target.Go.bindings.native (.composite c e)).toList := by
  have helement : Enclosed (Target.Go.bindings (.scalar e)).generic.toList := by
    cases e <;> decide
  cases c with
  | array => exact enclosed_native ⟨"[]", ""⟩ (by decide) (by decide) helement
  | map => exact enclosed_native ⟨"map[string]", ""⟩ (by decide) (by decide) helement
  | set => exact enclosed_native ⟨"map[", "]bool"⟩ (by decide) (by decide) helement

theorem leads_cSharp (c : Container) (e : Scalar) :
    Leads ("new " ++ Target.CSharp.bindings.native (.composite c e) ++ " \x7b ").toList 0 1 := by
  have h := (Leads.append (show Leads "new ".toList 0 0 by decide)
    (enclosed_native_cSharp c e)).append (show Leads " \x7b ".toList 0 1 by decide)
  simpa using h

theorem leads_go (c : Container) (e : Scalar) :
    Leads (Target.Go.bindings.native (.composite c e) ++ "\x7b").toList 0 1 := by
  have h := Leads.append (enclosed_native_go c e) (show Leads "\x7b".toList 0 1 by decide)
  simpa using h

theorem encloses_square : (⟨"[", "]"⟩ : Frame).Encloses := by decide

theorem encloses_curly : (⟨"\x7b", "\x7d"⟩ : Frame).Encloses := by decide

theorem encloses_composite (language : Language) (c : Container) (e : Scalar) :
    (language.spelling.composite c e).Encloses := by
  cases language with
  | cSharp => exact .of_leads (leads_cSharp c e) (show Leads " \x7d".toList 1 0 by decide)
  | go => exact .of_leads (leads_go c e) (show Leads "\x7d".toList 1 0 by decide)
  | cpp => exact encloses_curly
  | php | swift => exact encloses_square
  | python =>
    cases c with
    | array => exact encloses_square
    | map | set => exact encloses_curly
  | javaScript | typeScript =>
    cases c with
    | array => exact encloses_square
    | map => exact encloses_curly
    | set => exact (by decide : (⟨"new Set([", "])"⟩ : Frame).Encloses)
  | java =>
    cases c with
    | array => exact (by decide : (⟨"new ArrayList<>(List.of(", "))"⟩ : Frame).Encloses)
    | map => exact (by decide : (⟨"new HashMap<>(Map.ofEntries(", "))"⟩ : Frame).Encloses)
    | set => exact (by decide : (⟨"new HashSet<>(List.of(", "))"⟩ : Frame).Encloses)
  | r =>
    cases c with
    | map => exact (by decide : (⟨"list(", ")"⟩ : Frame).Encloses)
    | array | set => exact (by decide : (⟨"c(", ")"⟩ : Frame).Encloses)

theorem enclosed_empty (language : Language) (c : Container) (e : Scalar) :
    Enclosed (language.spelling.empty c e).toList := by
  cases language with
  | cSharp =>
    have h := (Leads.append (show Leads "new ".toList 0 0 by decide)
      (enclosed_native_cSharp c e)).append (show Leads "()".toList 0 0 by decide)
    show Enclosed ("new " ++ Target.CSharp.bindings.native (.composite c e) ++ "()").toList
    simpa [Enclosed] using h
  | python =>
    cases c with
    | array => exact (by decide : Enclosed "[]".toList)
    | map => exact (by decide : Enclosed "\x7b\x7d".toList)
    | set => exact (by decide : Enclosed "set()".toList)
  | java =>
    cases c with
    | array => exact (by decide : Enclosed "new ArrayList<>()".toList)
    | map => exact (by decide : Enclosed "new HashMap<>()".toList)
    | set => exact (by decide : Enclosed "new HashSet<>()".toList)
  | swift =>
    cases c with
    | map => exact (by decide : Enclosed "[:]".toList)
    | array | set => exact (by decide : Enclosed "[]".toList)
  | javaScript => exact (encloses_composite javaScript c e).around_nothing
  | typeScript => exact (encloses_composite typeScript c e).around_nothing
  | cpp => exact (encloses_composite cpp c e).around_nothing
  | php => exact (encloses_composite php c e).around_nothing
  | r => exact (encloses_composite r c e).around_nothing
  | go => exact (encloses_composite go c e).around_nothing

theorem spelling_encloses (language : Language) : language.spelling.Encloses where
  string := language.spelling_string_sound
  char := language.spelling_char_sound
  yes := by cases language <;> decide
  no := by cases language <;> decide
  int := language.encloses_int
  real := language.encloses_real
  entry := by cases language <;> decide
  item := language.encloses_item
  composite := language.encloses_composite
  empty := language.enclosed_empty

/-- **Test data cannot leave its literal.** In every language, what a literal that was decoded is
written as is enclosed, and so are the texts of an identifier and of an expected output. -/
theorem literals_enclosed (language : Language) {lenient : Bool} {registry : Registry}
    (hregistry : Registry.standard lenient = .ok registry) :
    (∀ signature purpose type value literal, Literal.decode type value = .ok literal →
      ∃ text, language.target.style.literal? ⟨signature, registry, language, purpose⟩ type literal
        = some (.ok text) ∧ Enclosed text.toList) ∧
    (∀ id, Enclosed (language.target.style.stringLiteral id).toList) ∧
    ∀ returns output,
      Enclosed (language.target.style.stringLiteral (Expected.text returns output)).toList := by
  have hstring : ∀ s, Enclosed (language.target.style.stringLiteral s).toList := fun s => by
    rw [stringLiteral_eq]
    exact language.spelling_string_sound.enclosed s
  refine ⟨fun signature purpose type value literal hdecode => ?_, hstring,
    fun returns output => hstring _⟩
  have hctx : Context.Bound ⟨signature, registry, language, purpose⟩ language.target.bindings :=
    Registry.binds_of_standard hregistry language
  have htype := Literal.hasType_of_decode hdecode
  exact ⟨_, language.literal?_eq hctx htype, language.spelling_encloses.literalText htype⟩

/-- A map for Go whose key and value try every mark. -/
theorem literals_enclosed_go_map :
    Literal.decode (.composite .map .string) (.object [("\"]\x7d\n", .string "\\\"'(\r$")]) =
      .ok (.entries [("\"]\x7d\n", .text "\\\"'(\r$")]) ∧
    ∃ text, go.target.style.literal?
        ⟨default, ⟨Registry.standardRows, Language.all, false⟩, go, .materialized⟩
        (.composite .map .string) (.entries [("\"]\x7d\n", .text "\\\"'(\r$")])
      = some (.ok text) ∧ Enclosed text.toList :=
  ⟨rfl, (literals_enclosed go (Registry.standard_eq false)).1 _ _ _
    (.object [("\"]\x7d\n", .string "\\\"'(\r$")]) _ rfl⟩

end Language

end StructuredCall
