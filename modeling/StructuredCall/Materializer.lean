import StructuredCall.Generator
import StructuredCall.JudgeError
import StructuredCall.Literal.Expected
import StructuredCall.TestCase

/-!
# Materialized test cases

A test case and a candidate's code become one program: the code stands in the stub, every input
is declared with its value as a literal, and the program prints the outcome as one record.
-/

namespace StructuredCall

/-! ## Names in programs -/

/-- The variable that holds the text of the result. -/
def outputVariable : String :=
  "output"

/-- The variable that holds the milliseconds that the call took. -/
def elapsedVariable : String :=
  "elapsed"

/-- The variable that holds what the candidate's code printed. -/
def capturedVariable : String :=
  "captured"

/-! ## Parts of a program -/

namespace Literal

/-- Decodes the values of the inputs; the first that cannot be decoded is named. -/
def decodeInputs : List Parameter → List Json → Except CaseError (List Literal)
  | input :: inputs, value :: values =>
    match decode input.type value with
    | .error e => .error (.undecodable input.name e)
    | .ok literal => (decodeInputs inputs values).map (literal :: ·)
  | _, _ => .ok []

/-- Decodes the inputs of a test case. -/
def ofCase (signature : Signature) (test : TestCase) : Except CaseError (List Literal) :=
  if test.input.length ≠ signature.inputs.length then
    .error (.inputCount signature.inputs.length test.input.length)
  else decodeInputs signature.inputs test.input

end Literal

namespace CaseStyle

/-- The lines that declare one input: the value, and for composites the number of elements. -/
def inputLines (style : CaseStyle) (backend : Backend) (ctx : Context) (caseNo index : Nat)
    (input : Parameter) (literal : Literal) : Judged (List String) := do
  let value ← match style.literal? ctx input.type literal with
    | some text => Judged.ofCompiled text
    | none => throw (.invalidTestCase caseNo (.wrongShape index))
  let declaration ← Judged.ofCompiled (backend.declare ctx input.name input.type value)
  if input.isComposite then
    let size ← Judged.ofCompiled
      (style.sizeConstant backend ctx (Name.sizeName input.name) literal.size)
    return [declaration, size]
  else return [declaration]

/-- The lines of every input in order, the first of them at `index`. -/
def allInputLines (style : CaseStyle) (backend : Backend) (ctx : Context) (caseNo index : Nat) :
    List Parameter → List Literal → Judged (List (Parameter × List String))
  | input :: inputs, literal :: literals => do
    let lines ← style.inputLines backend ctx caseNo index input literal
    let rest ← style.allInputLines backend ctx caseNo (index + 1) inputs literals
    return (input, lines) :: rest
  | _, _ => .ok []

/-- The declarations of composites, ahead of those of scalars. -/
def hoisted (declared : List (Parameter × List String)) : List String :=
  (declared.filter (·.1.isComposite)).flatMap (·.2) ++
    (declared.filter (!·.1.isComposite)).flatMap (·.2)

/-- The record of an outcome. The expected text stands in it, and is what the output has to be
equal to. -/
def outcomeRecord (style : CaseStyle) (backend : Backend) (returns : DataType) (test : TestCase)
    (caseNo : Nat) : List RecordEntry :=
  let expected := style.stringLiteral (Expected.text returns test.output)
  let output := backend.reference outputVariable
  [⟨"caseNo", .number (Text.natText caseNo)⟩,
    ⟨"caseId", .text (style.stringLiteral test.id)⟩,
    ⟨"expected", .text expected⟩,
    ⟨"isSample", .boolean (style.boolLiteral test.isSample)⟩,
    ⟨"memory", .number "0"⟩,
    ⟨"time", .number (backend.reference elapsedVariable)⟩,
    ⟨"passed", .boolean (style.equality output expected)⟩,
    ⟨"console", .text (style.console (backend.reference capturedVariable))⟩,
    ⟨"output", .text output⟩]

/-- The steps of the program for a test case whose inputs are decoded. A blank body counts as
none. -/
def program (style : CaseStyle) (backend : Backend) (ctx : Context) (body : String)
    (test : TestCase) (caseNo : Nat) (literals : List Literal) : Judged (List Step) := do
  let returns := ctx.signature.returns
  let stub ← Judged.ofCompiled
    (backend.stub ctx (if Text.isBlankText body then none else some body))
  let declared ← style.allInputLines backend ctx caseNo 0 ctx.signature.inputs literals
  let call ← Judged.ofCompiled (backend.callLine ctx)
  let rendered ← Judged.ofCompiled (backend.renderedResult ctx)
  let output ← Judged.ofCompiled (backend.declare ctx outputVariable (.scalar .string) rendered)
  return style.prelude backend ++ [.blank] ++ backend.openUnit ++ stub ++ [.blank] ++
    style.support ++ [.blank] ++ backend.openMain ++ (hoisted declared).map .line ++
    style.measuredCall call ++ [.line output] ++
    style.record (style.outcomeRecord backend returns test caseNo) ++
    backend.closeMain ++ backend.closeUnit

end CaseStyle

/-! ## Materializers -/

/-- A registry, and the languages for which there are backends and styles. -/
structure Materializer where
  registry : Registry
  backends : Backends
  styles : List Language

namespace Materializer

def standard (lenient : Bool) : Compiled Materializer := do
  return ⟨← Registry.standard lenient, Language.all, Language.all⟩

def style (materializer : Materializer) (language : Language) : Compiled CaseStyle :=
  if language ∈ materializer.styles then .ok language.target.style
  else .error (.unsupportedLanguage language.id)

/-- The program of a test case. -/
def materialize (materializer : Materializer) (signature : Signature) (language : Language)
    (body : String) (test : TestCase) (caseNo : Nat) : Judged String := do
  let backend ← Judged.ofCompiled (materializer.backends.find language)
  let style ← Judged.ofCompiled (materializer.style language)
  let literals ← (Literal.ofCase signature test).mapError (.invalidTestCase caseNo)
  let ctx : Context := ⟨signature, materializer.registry, language, .materialized⟩
  let steps ← style.program backend ctx body test caseNo literals
  return layout backend.indentUnit steps

/-- The programs of test cases, the first of them with the number `caseNo`. -/
def materializeFrom (materializer : Materializer) (signature : Signature) (language : Language)
    (body : String) (caseNo : Nat) : List TestCase → Judged (List CaseProgram)
  | [] => .ok []
  | test :: rest => do
    let code ← materializer.materialize signature language body test caseNo
    let programs ← materializer.materializeFrom signature language body (caseNo + 1) rest
    return ⟨caseNo, test.id, language, code⟩ :: programs

/-- The programs of all test cases, numbered from one; the first that fails ends it. -/
def materializeAll (materializer : Materializer) (signature : Signature) (language : Language)
    (body : String) (tests : List TestCase) : Judged (List CaseProgram) :=
  materializer.materializeFrom signature language body 1 tests

end Materializer

end StructuredCall
