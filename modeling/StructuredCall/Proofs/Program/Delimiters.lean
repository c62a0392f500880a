import StructuredCall.Proofs.Literal.Printed
import StructuredCall.Proofs.Program.Template

/-!
# Delimiters of results and of expected outputs

A program for a test case prints a composite result and compares the text with the expected
output. The elements of the result are joined with the delimiter that the registry binds for the
container; the parts of the expected output are joined with commas, whatever the registry binds.
If there are at least two parts, the delimiter can be read off the joined text
(`Text.intercalate_inj`), so the two are joined alike exactly if the registry binds a comma.

**Frames.** `Language.joinFrame` is what a language writes around the delimiter. It is made from
the binding of the elements alone, so the delimiter is all that a container's output rule changes
in the expression.

**Comparisons.** `Language.Compares` says which expression a program prints and which text it
expects.

Main result: `Materializer.expected_delimiter_iff`.
-/

namespace StructuredCall

/-! ## Joined texts -/

namespace Text

theorem length_intercalate (separator part : String) (parts : List String) :
    (separator.intercalate (part :: parts)).length =
      parts.length * separator.length + ((part :: parts).map String.length).sum := by
  induction parts generalizing part with
  | nil => simp
  | cons next parts ih =>
    simp only [String.intercalate_cons_cons, String.length_append, ih, List.map_cons,
      List.sum_cons, List.length_cons, Nat.succ_mul]
    omega

/-- The separator between two or more parts is determined by the text that joins them. -/
theorem intercalate_inj {parts : List String} (h : 2 ≤ parts.length) {left right : String} :
    left.intercalate parts = right.intercalate parts ↔ left = right := by
  refine ⟨fun hjoined => ?_, fun heq => by rw [heq]⟩
  match parts, h with
  | first :: second :: rest, _ =>
    -- both texts are equally long, and so are the separators in them
    have hlength : left.length = right.length := by
      have htexts := congrArg String.length hjoined
      rw [length_intercalate, length_intercalate] at htexts
      exact Nat.eq_of_mul_eq_mul_left (Nat.succ_pos rest.length) (Nat.add_right_cancel htexts)
    have hlists := congrArg String.toList hjoined
    simp only [String.intercalate_cons_cons, String.toList_append, List.append_assoc,
      List.append_cancel_left_eq] at hlists
    exact String.ext (List.append_inj_left hlists (by simpa only [String.length_toList]))

end Text

/-! ## Expressions -/

namespace Language

/-- What stands around the delimiter in the expression of a composite's text, if the elements are
bound as `element`. -/
def joinFrame (language : Language) (element : Binding) (value : String) : Container → Frame :=
  match language with
  | python => fun
    | .map => ⟨"\"", "\".join(key + \":\" + " ++ element.formatted "value" ++
        " for key, value in " ++ value ++ ".items())"⟩
    | .array | .set =>
      ⟨"\"", "\".join(" ++ element.formatted "item" ++ " for item in " ++ value ++ ")"⟩
  | javaScript | typeScript => fun
    | .map => ⟨"Object.entries(" ++ value ++ ").map(([key, value]) => key + \":\" + " ++
        element.formatted "value" ++ ").join(\"", "\")"⟩
    | .array | .set => ⟨"Array.from(" ++ value ++ ", (item) => " ++ element.formatted "item" ++
        ").join(\"", "\")"⟩
  | java => fun
    | .map => ⟨value ++ ".entrySet().stream().map(entry -> entry.getKey() + \":\" + " ++
        element.formatted "entry.getValue()" ++ ").collect(Collectors.joining(\"", "\"))"⟩
    | .array | .set => ⟨value ++ ".stream().map(item -> " ++ element.formatted "item" ++
        ").collect(Collectors.joining(\"", "\"))"⟩
  | cpp => fun
    | .map => ⟨"joinEntries" ++ "(" ++ value ++ ", \"", "\")"⟩
    | .array | .set => ⟨"joinValues" ++ "(" ++ value ++ ", \"", "\")"⟩
  | cSharp => fun
    | .map => ⟨"string.Join(\"", "\", " ++ value ++ ".Select(entry => entry.Key + \":\" + " ++
        element.formatted "entry.Value" ++ "))"⟩
    | .array | .set => ⟨"string.Join(\"", "\", " ++ value ++ ".Select(item => " ++
        element.formatted "item" ++ "))"⟩
  | php => fun
    | .map => ⟨"implode(\"", "\", array_map(fn($key, $value) => $key . \":\" . " ++
        element.formatted "$value" ++ ", array_keys(" ++ value ++ "), " ++ value ++ "))"⟩
    | .array | .set => ⟨"implode(\"", "\", array_map(fn($item) => " ++
        element.formatted "$item" ++ ", " ++ value ++ "))"⟩
  | r => fun
    | .map => ⟨"paste(names(" ++ value ++ "), " ++ element.formatted ("unlist(" ++ value ++ ")") ++
        ", sep = \":\", collapse = \"", "\")"⟩
    | .array | .set => ⟨"paste(" ++ element.formatted value ++ ", collapse = \"", "\")"⟩
  | swift => fun
    | .map => ⟨value ++ ".map \x7b entry in entry.key + \":\" + " ++
        element.formatted "entry.value" ++ " \x7d.joined(separator: \"", "\")"⟩
    | .array | .set => ⟨value ++ ".map \x7b item in " ++ element.formatted "item" ++
        " \x7d.joined(separator: \"", "\")"⟩
  | go => fun container =>
    let helper := match container with
      | .map => "joinMap"
      | .set => "joinSet"
      | .array => "joinValues"
    ⟨helper ++ "(" ++ value ++ ", \"", "\", func(item " ++ element.generic ++
      ") string \x7b return " ++ element.formatted "item" ++ " \x7d)"⟩

/-- **The elements of a result are joined with the delimiter that is bound.** -/
theorem joined_eq (language : Language) {ctx : Context} {table : BindingTable}
    (hctx : ctx.Bound table) (c : Container) (e : Scalar) (value : String) :
    language.target.backend.joined ctx c e value =
      .ok ((language.joinFrame (table (.scalar e)) value c).around
        (table (.container c)).delimiter) := by
  cases language with
  | cpp =>
    refine Compiled.bind_eq_ok.2 ⟨_, hctx.delimiter c, ?_⟩
    cases c <;>
      exact congrArg Except.ok (by simp only [Frame.around, joinFrame, String.append_assoc])
  | go =>
    refine Compiled.bind_eq_ok.2 ⟨_, hctx.delimiter c, Compiled.bind_eq_ok.2 ⟨_, hctx.generic e,
      Compiled.bind_eq_ok.2 ⟨_, hctx.format (.scalar e) _, congrArg Except.ok ?_⟩⟩⟩
    cases c <;> simp only [Frame.around, joinFrame, String.append_assoc]
  | _ =>
    refine Compiled.bind_eq_ok.2 ⟨_, hctx.delimiter c, ?_⟩
    cases c <;> exact Compiled.bind_eq_ok.2 ⟨_, hctx.format (.scalar e) _,
      congrArg Except.ok (by simp only [Frame.around, joinFrame, String.append_assoc])⟩

/-! ## Programs -/

/-- Steps that store the value of the expression `printed` as the output, record the expression
`expected`, and compare the output with it. -/
structure Compares (language : Language) (ctx : Context) (steps : List Step)
    (printed expected : String) : Prop where
  stores : ∃ line, language.target.backend.declare ctx outputVariable (.scalar .string) printed =
    .ok line ∧ .line line ∈ steps
  records : .line ((language.entryMarks 2 (.text expected)).line ⟨"expected", .text expected⟩) ∈
    steps
  compares :
    let verdict : RecordValue := .boolean (language.target.style.equality
      (language.target.backend.reference outputVariable) expected)
    .line ((language.entryMarks 6 verdict).line ⟨"passed", verdict⟩) ∈ steps

theorem compares_of_program {language : Language} {ctx : Context} {body : String}
    {test : TestCase} {caseNo : Nat} {literals : List Literal} {steps : List Step}
    {printed : String} (hprinted : language.target.backend.renderedResult ctx = .ok printed)
    (h : language.target.style.program language.target.backend ctx body test caseNo literals =
      .ok steps) :
    language.Compares ctx steps printed
      (language.target.style.stringLiteral (Expected.text ctx.signature.returns test.output)) := by
  obtain ⟨stub, declared, call, rendered, line, -, -, -, hrendered, hline, hsteps⟩ :=
    CaseStyle.program_eq_ok h
  rw [hprinted] at hrendered
  cases hrendered
  have hrecord {index : Nat} {entry : RecordEntry}
      (hentry : (language.target.style.outcomeRecord language.target.backend ctx.signature.returns
        test caseNo)[index]? = some entry) :
      .line ((language.entryMarks index entry.value).line entry) ∈ steps := by
    rw [hsteps]
    simp only [List.mem_append, language.entryLine_mem_record hentry, true_or, or_true]
  have houtput : .line line ∈ steps := by
    rw [hsteps]
    simp only [List.mem_append, List.mem_singleton, true_or, or_true]
  exact ⟨⟨line, hline, houtput⟩, @hrecord 2 ⟨"expected", .text _⟩ rfl,
    @hrecord 6 ⟨"passed", .boolean _⟩ rfl⟩

end Language

/-! ## Materializers -/

/-- The languages' own tables have commas, so with them results and expected outputs are joined
alike. -/
theorem Registry.standard_delimiter {lenient : Bool} {registry : Registry}
    (h : Registry.standard lenient = .ok registry) (language : Language) (c : Container) :
    registry.delimiter (.container c) language = .ok "," := by
  rw [Registry.delimiter, binds_of_standard h language]
  cases language <;> cases c <;> rfl

namespace Materializer

/-- **Results and expected outputs are joined alike only by commas.** For a composite result and a
test case that fits, with at least two parts in its stored output, there is a program. It prints
the elements of the result joined with the delimiter that the registry binds for the container, and
compares the text with the parts joined by commas. That is the text of the parts joined with the
registry's delimiter exactly if the delimiter is a comma. -/
theorem expected_delimiter_iff {materializer : Materializer} {language : Language}
    (hcovers : materializer.Covers language) {signature : Signature} {c : Container} {e : Scalar}
    (hreturns : signature.returns = .composite c e) {test : TestCase}
    (hfits : test.Fits signature) {parts : List String} (hparts : Expected.Parts test.output parts)
    (hmany : 2 ≤ parts.length) (body : String) (caseNo : Nat) :
    ∃ delimiter element steps,
      materializer.registry.delimiter (.container c) language = .ok delimiter ∧
      materializer.registry.lookup (.scalar e) language = .ok element ∧
      materializer.materialize signature language body test caseNo =
        .ok (layout language.target.backend.indentUnit steps) ∧
      language.Compares ⟨signature, materializer.registry, language, .materialized⟩ steps
        ((language.joinFrame element (language.target.backend.reference resultVariable) c).around
          delimiter)
        (language.target.style.stringLiteral (",".intercalate parts)) ∧
      (",".intercalate parts = delimiter.intercalate parts ↔ delimiter = ",") := by
  obtain ⟨rows, languages, lenient, hregistry, hlanguage⟩ := hcovers.registry
  obtain ⟨table, hbinds⟩ := Registry.exists_binds hregistry hlanguage
  have hctx : Context.Bound ⟨signature, materializer.registry, language, .materialized⟩ table :=
    hbinds
  obtain ⟨code, hcode⟩ := (exists_materialize_iff hcovers signature body).2 hfits
  obtain ⟨literals, steps, -, hsteps, rfl⟩ := materialize_eq_ok hcode
  have hprinted : language.target.backend.renderedResult
      ⟨signature, materializer.registry, language, .materialized⟩ = .ok
        ((language.joinFrame (table (.scalar e))
          (language.target.backend.reference resultVariable) c).around
            (table (.container c)).delimiter) := by
    simp only [Backend.renderedResult, Backend.render, hreturns]
    exact language.joined_eq hctx c e _
  -- the judge does not look at the registry: the expected text has commas in any case
  have hcompares := Language.compares_of_program hprinted hsteps
  rw [hreturns, Expected.text_of_parts hparts] at hcompares
  exact ⟨_, _, steps, hctx.delimiter c, hbinds _, hcode, hcompares,
    (Text.intercalate_inj hmany).trans eq_comm⟩

/-- An array of two numbers in Python, where arrays are joined with semicolons. -/
theorem expected_delimiter_iff_semicolon :
    let semicolon : BindingRow :=
      ⟨.container .array, .python, ⟨"List[\x7b0\x7d]", none, "[\x7b0\x7d]", "[]", .joined ";"⟩⟩
    let materializer : Materializer :=
      ⟨⟨Registry.standardRows ++ [semicolon], Language.all, false⟩, Language.all, Language.all⟩
    let signature : Signature := ⟨[], .composite .array .integer⟩
    let test : TestCase := ⟨"t", [], .array [.number (.int 1), .number (.int 2)], false⟩
    materializer.Covers .python ∧ test.Fits signature ∧
    Expected.Parts test.output ["1", "2"] ∧ ∃ steps,
      materializer.materialize signature .python "return [1, 2]" test 1 =
        .ok (layout "    " steps) ∧
      Language.python.Compares ⟨signature, materializer.registry, .python, .materialized⟩ steps
        "\";\".join(str(item) for item in result)" "\"1,2\"" ∧
      ",".intercalate ["1", "2"] ≠ ";".intercalate ["1", "2"] := by
  intro semicolon materializer signature test
  have hcovers : materializer.Covers .python :=
    ⟨⟨_, _, _, Registry.ofRows_standard_append [semicolon] false, Language.mem_all _⟩,
      Language.mem_all _, Language.mem_all _⟩
  have hfits : test.Fits signature := ⟨rfl, by simp [signature]⟩
  have hparts : Expected.Parts test.output ["1", "2"] := .value (by decide +kernel)
  obtain ⟨delimiter, element, steps, hdelimiter, helement, hcode, hcompares, hiff⟩ :=
    expected_delimiter_iff hcovers rfl hfits hparts (by decide) "return [1, 2]" 1
  obtain rfl : ";" = delimiter := Except.ok.inj hdelimiter
  obtain rfl : Target.Python.bindings (.scalar .integer) = element := Except.ok.inj helement
  exact ⟨hcovers, hfits, hparts, steps, hcode, hcompares, fun h => absurd (hiff.1 h) (by decide)⟩

/-- The same array: its expected text has a comma where the registry has a semicolon. -/
theorem expected_delimiter_iff_not_of_registry :
    ¬ ∀ rows languages lenient registry language c e value parts delimiter,
      Registry.ofRows rows languages lenient = .ok registry → language ∈ languages →
      registry.delimiter (.container c) language = .ok delimiter →
      Expected.Parts value parts → 2 ≤ parts.length →
      Expected.text (.composite c e) value = delimiter.intercalate parts := by
  intro h
  have htext := h _ _ _ _ .python .array .integer (.array [.number (.int 1), .number (.int 2)])
    ["1", "2"] ";" (Registry.ofRows_standard_append [⟨.container .array, .python,
      ⟨"List[\x7b0\x7d]", none, "[\x7b0\x7d]", "[]", .joined ";"⟩⟩] false)
    (Language.mem_all _) rfl (.value (by decide +kernel)) (by decide)
  exact absurd htext (by decide +kernel)

end Materializer

end StructuredCall
