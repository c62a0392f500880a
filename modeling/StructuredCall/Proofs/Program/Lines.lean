import StructuredCall.Materializer
import StructuredCall.Proofs.Acceptance
import StructuredCall.Proofs.Literal.Enclosure
import StructuredCall.Proofs.Program.Outline

/-!
# Lines that hold data

The declaration of an input, the constant that holds its size and an entry of the record are each
written on one line, whatever the data: literals have no line feed (`Enclosed`), and neither have
the names of inputs and of types.

Main results: `Language.plain_declare`, `Language.plain_sizeConstant` and `Language.record_eq`.
-/

namespace StructuredCall

/-! ## Names -/

namespace Text

theorem oneLine_ofList (cs : List Char) (h : '\n' ∉ cs) : OneLine (String.ofList cs) := by
  rwa [OneLine, String.toList_ofList]

theorem mem_fillChars {value template : List Char} {c : Char} (h : c ∈ fillChars value template) :
    c ∈ value ∨ c ∈ template := by
  induction template using fillChars.induct with
  | case1 rest ih =>
    rw [fillChars, List.mem_append] at h
    rcases h with h | h
    · exact .inl h
    · exact (ih h).imp_right fun h => by simp [h]
  | case2 d rest _ ih =>
    rw [fillChars, List.mem_cons] at h
    · rcases h with rfl | h
      · exact .inr List.mem_cons_self
      · exact (ih h).imp_right (List.mem_cons_of_mem _)
    · assumption
  | case3 => cases h

theorem oneLine_fill {template value : String} (ht : OneLine template) (hv : OneLine value) :
    OneLine (fill template value) := by
  rw [fill, OneLine, String.toList_ofList]
  intro h
  rcases mem_fillChars h with h | h
  · exact hv h
  · exact ht h

end Text

theorem Enclosed.oneLine {s : String} (h : Enclosed s.toList) : Text.OneLine s :=
  h.noFeed

theorem Name.Admissible.oneLine {name : String} (h : Name.Admissible name) : Text.OneLine name := by
  obtain ⟨first, rest, hname, hfirst, hrest⟩ := h.identifier
  rw [Text.OneLine, hname, List.mem_cons, not_or]
  constructor
  · rintro rfl
    exact absurd hfirst (by decide)
  · intro hmem
    exact absurd (hrest _ hmem) (by decide)

namespace Language

variable (language : Language)

theorem oneLine_binding (kind : Kind) : Text.OneLine (language.target.bindings kind).native := by
  rcases kind with s | c
  · cases language <;> cases s <;> exact Text.oneLine_ofList _ (by decide)
  · cases language <;> cases c <;> exact Text.oneLine_ofList _ (by decide)

theorem oneLine_generic (s : Scalar) :
    Text.OneLine (language.target.bindings (.scalar s)).generic := by
  cases language with
  | java => cases s <;> exact Text.oneLine_ofList _ (by decide)
  | _ => cases s <;> exact oneLine_binding _ (.scalar _)

theorem oneLine_native (type : DataType) :
    Text.OneLine (language.target.bindings.native type) := by
  cases type with
  | scalar s => exact language.oneLine_binding (.scalar s)
  | composite c e =>
    exact Text.oneLine_fill (language.oneLine_binding (.container c)) (language.oneLine_generic e)

/-! ## Declarations -/

variable {language} {ctx : Context} (hctx : ctx.Bound language.target.bindings)

include hctx in
theorem plain_declare {name : String} (hname : Text.OneLine name) (type : DataType) {value : String}
    (hvalue : Text.OneLine value) {text : String}
    (h : language.target.backend.declare ctx name type value = .ok text) :
    text ≠ "" ∧ Text.OneLine text := by
  have hnative := language.oneLine_native type
  cases language with
  | python | r | go | javaScript =>
    cases h
    simp [hname, hvalue]
    decide
  | php =>
    cases h
    simp [Target.Php.reference, hname, hvalue]
    decide
  | typeScript | java | cpp | cSharp | swift =>
    obtain ⟨native, hread, h⟩ := Compiled.bind_eq_ok.1 h
    rw [hctx.native type] at hread
    cases hread
    cases h
    simp [hname, hvalue, hnative]
    decide

theorem oneLine_natText (n : Nat) : Text.OneLine (Text.natText n) := by
  rw [Text.OneLine, Text.natText, String.toList_ofList]
  exact fun h => absurd (Text.isDigit_of_mem_natDigits h) (by decide)

theorem oneLine_intLiteral (language : Language) (s : Scalar) (n : Int) :
    Text.OneLine (language.target.style.intLiteral s n) := by
  rw [intLiteral_eq]
  refine ((language.encloses_int s).around (enclosed_of_numeric fun c hc => ?_)).oneLine
  exact Text.numeric_of_mem_intDigits (by simpa [Text.intText] using hc)

include hctx in
theorem plain_sizeConstant {name : String} (hname : Text.OneLine name) {size : Nat} {text : String}
    (h : language.target.style.sizeConstant language.target.backend ctx name size = .ok text) :
    text ≠ "" ∧ Text.OneLine text := by
  have hsize := oneLine_intLiteral language .integer size
  cases language with
  | go =>
    cases h
    simp [hname, oneLine_natText]
    decide
  | _ => exact plain_declare hctx hname (.scalar .integer) hsize h

end Language

/-! ## Records -/

/-- What stands around the key and the expression of an entry. -/
structure EntryMarks where
  before : String
  between : String
  behind : String

/-- The line of an entry. -/
def EntryMarks.line (marks : EntryMarks) (entry : RecordEntry) : String :=
  marks.before ++ entry.key ++ marks.between ++ entry.value.expr ++ marks.behind

/-- Marks on one line, so that the line of an entry is not empty. -/
structure EntryMarks.Plain (marks : EntryMarks) : Prop where
  before : Text.OneLine marks.before
  between : Text.OneLine marks.between
  behind : Text.OneLine marks.behind
  visible : marks.between ≠ ""

namespace Language

/-- The marks of an entry; in some languages they depend on its index and on its kind. -/
def entryMarks : Language → Nat → RecordValue → EntryMarks
  | python, _, _ | swift, _, _ | go, _, _ => ⟨"\"", "\": ", ","⟩
  | javaScript, _, _ | typeScript, _, _ => ⟨"", ": ", ","⟩
  | cSharp, _, _ => ⟨"[\"", "\"] = ", ","⟩
  | php, _, _ => ⟨"\"", "\" => ", ","⟩
  | java, index, value =>
    let before := "+ \"" ++ entrySeparator index ++ "\\\""
    match value with
    | .text _ => ⟨before, "\\\": \" + jsonString(", ")"⟩
    | .boolean _ => ⟨before, "\\\": \" + (", ")"⟩
    | .number _ => ⟨before, "\\\": \" + ", ""⟩
  | cpp, index, value =>
    let before := "+ \"" ++ entrySeparator index ++ "\\\""
    match value with
    | .text _ => ⟨before, "\\\": \" + jsonString(", ")"⟩
    | .boolean _ => ⟨before, "\\\": \" + ((", ") ? \"true\" : \"false\")"⟩
    | .number _ => ⟨before, "\\\": \" + std::to_string(", ")"⟩
  | r, index, value =>
    let before := "\"" ++ entrySeparator index ++ "\\\""
    match value with
    | .text _ => ⟨before, "\\\": \", jsonString(", "),"⟩
    | .boolean _ => ⟨before, "\\\": \", tolower(", "),"⟩
    | .number _ => ⟨before, "\\\": \", ", ","⟩

theorem map_eq_mapIdx {entries : List RecordEntry} {f : RecordEntry → Step}
    {g : Nat → RecordEntry → Step} (h : ∀ index entry, f entry = g index entry) :
    entries.map f = entries.mapIdx g := by
  refine List.ext_getElem? fun index => ?_
  rw [List.getElem?_map, List.getElem?_mapIdx]
  exact congrArg (Option.map · _) (funext (h index))

theorem between_congr {lines lines' : List Step} (h : lines = lines') (front back : List Step) :
    front ++ lines ++ back = front ++ lines' ++ back := by
  rw [h]

/-- A record is its entries, one line each, between lines that are always the same. -/
theorem record_eq (language : Language) : ∃ front back : List Step, ∀ entries,
    language.target.style.record entries = front ++
      entries.mapIdx (fun index entry =>
        .line ((language.entryMarks index entry.value).line entry)) ++ back := by
  cases language with
  | python | cSharp | php | swift | go =>
    exact ⟨_, _, fun entries => between_congr (map_eq_mapIdx fun _ _ => rfl) _ _⟩
  | javaScript | typeScript =>
    refine ⟨_, _, fun entries => between_congr (map_eq_mapIdx fun _ entry => ?_) _ _⟩
    simp [EntryMarks.line, entryMarks]
  | java | cpp | r =>
    refine ⟨_, _, fun entries => between_congr (congrArg (entries.mapIdx ·) ?_) _ _⟩
    funext index ⟨key, value⟩
    cases value <;> exact congrArg Step.line
      (String.ext (by simp [EntryMarks.line, entryMarks, RecordValue.expr]))

theorem entryLine_mem_record (language : Language) {entries : List RecordEntry} {index : Nat}
    {entry : RecordEntry} (h : entries[index]? = some entry) :
    .line ((language.entryMarks index entry.value).line entry) ∈
      language.target.style.record entries := by
  obtain ⟨front, back, hrecord⟩ := language.record_eq
  rw [hrecord, List.mem_append, List.mem_append]
  obtain ⟨hindex, hget⟩ := List.getElem?_eq_some_iff.1 h
  exact .inl (.inr (List.mem_mapIdx.2 ⟨index, hindex, by rw [hget]⟩))

theorem plain_entryMarks (language : Language) (index : Nat) (value : RecordValue) :
    (language.entryMarks index value).Plain := by
  have hseparator : Text.OneLine (entrySeparator index) := by
    unfold entrySeparator
    split <;> decide
  cases language with
  | java | cpp | r =>
    have hbefore : Text.OneLine "+ \"" ∧ Text.OneLine "\"" ∧ Text.OneLine "\\\"" := by decide
    cases value <;> exact ⟨by simp [entryMarks, hseparator, hbefore],
      Text.oneLine_ofList _ (by decide), Text.oneLine_ofList _ (by decide), by simp [entryMarks]⟩
  | _ => exact ⟨Text.oneLine_ofList _ (by decide), Text.oneLine_ofList _ (by decide),
      Text.oneLine_ofList _ (by decide), by simp [entryMarks]⟩

theorem plain_entryLine (language : Language) (index : Nat) {entry : RecordEntry}
    (hkey : Text.OneLine entry.key) (hexpr : Text.OneLine entry.value.expr) :
    (language.entryMarks index entry.value).line entry ≠ "" ∧
      Text.OneLine ((language.entryMarks index entry.value).line entry) := by
  have hmarks := language.plain_entryMarks index entry.value
  constructor
  · simp [EntryMarks.line, hmarks.visible]
  · simp [EntryMarks.line, hkey, hexpr, hmarks.before, hmarks.between, hmarks.behind]

/-! ## Expressions -/

theorem oneLine_stringLiteral (language : Language) (s : String) :
    Text.OneLine (language.target.style.stringLiteral s) := by
  rw [stringLiteral_eq]
  exact (language.spelling_string_sound.enclosed s).oneLine

theorem oneLine_boolLiteral (language : Language) (b : Bool) :
    Text.OneLine (language.target.style.boolLiteral b) := by
  rw [boolLiteral_eq]
  split
  · exact language.spelling_encloses.yes.oneLine
  · exact language.spelling_encloses.no.oneLine

theorem oneLine_reference (language : Language) {name : String} (h : Text.OneLine name) :
    Text.OneLine (language.target.backend.reference name) := by
  cases language with
  | php => exact Text.oneLine_append.2 ⟨by decide, h⟩
  | _ => exact h

theorem oneLine_equality (language : Language) {left right : String} (hleft : Text.OneLine left)
    (hright : Text.OneLine right) :
    Text.OneLine (language.target.style.equality left right) := by
  cases language with
  | java =>
    show Text.OneLine (left ++ ".equals(" ++ right ++ ")")
    simp [hleft, hright]
    decide
  | r =>
    show Text.OneLine ("identical(" ++ left ++ ", " ++ right ++ ")")
    simp [hleft, hright]
    decide
  | javaScript | typeScript | php =>
    show Text.OneLine (left ++ " === " ++ right)
    simp [hleft, hright]
    decide
  | python | cpp | cSharp | swift | go =>
    show Text.OneLine (left ++ " == " ++ right)
    simp [hleft, hright]
    decide

end Language

end StructuredCall
