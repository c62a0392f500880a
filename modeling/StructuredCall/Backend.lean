import StructuredCall.Layout
import StructuredCall.Registry
import StructuredCall.Signature.Basic

/-!
# Backends

What a language needs so that code can be generated in it. A generated program has a stub, the
function that a candidate writes, and a harness, an entry point that decodes the lines of the
standard input, calls the stub and prints its result on one line.
-/

namespace StructuredCall

/-- What a generated program is for. -/
inductive Purpose
  /-- The stub alone, as a start for a candidate. -/
  | starter
  /-- The stub and a harness. -/
  | harness
  /-- The stub and the data of one test case. -/
  | materialized
deriving Repr, DecidableEq, Inhabited

/-- What the generated text depends on. -/
structure Context where
  signature : Signature
  registry : Registry
  language : Language
  purpose : Purpose
deriving Repr, DecidableEq, Inhabited

namespace Context

def native (ctx : Context) (type : DataType) : Compiled String :=
  ctx.registry.native type ctx.language

/-- The name of a scalar as an element. -/
def generic (ctx : Context) (scalar : Scalar) : Compiled String :=
  ctx.registry.generic scalar ctx.language

def defaultValue (ctx : Context) : Compiled String :=
  ctx.registry.defaultValue ctx.signature.returns ctx.language

/-- The expression of a value of a kind. -/
def parse (ctx : Context) (kind : Kind) (source : String) : Compiled String :=
  ctx.registry.parse kind ctx.language source

/-- The expression of a value's text. -/
def format (ctx : Context) (kind : Kind) (value : String) : Compiled String :=
  ctx.registry.format kind ctx.language value

def delimiter (ctx : Context) (container : Container) : Compiled String :=
  ctx.registry.delimiter (.container container) ctx.language

/-- A text for each parameter, made of its name and the name of its type. -/
def parameters (ctx : Context) (write : String → String → String) : Compiled (List String) :=
  ctx.signature.inputs.mapM fun input => return write input.name (← ctx.native input.type)

/-- The parameters with commas between them. -/
def parameterList (ctx : Context) (write : String → String → String) : Compiled String := do
  return ", ".intercalate (← ctx.parameters write)

def returnType (ctx : Context) : Compiled String :=
  ctx.native ctx.signature.returns

end Context

/-- The function that a candidate writes. -/
def entryPoint : String :=
  "execute"

/-- The variable that holds the result of the stub. -/
def resultVariable : String :=
  "result"

def stubRemark : String :=
  "Write your code here"

/-- How a language writes a program. -/
structure Backend where
  language : Language
  indentUnit : String := "    "
  /-- Imports and other lines at the top. -/
  imports : Purpose → List Step
  /-- Functions that the harness uses. -/
  helpers : List Step := []
  /-- Opens the class around the program, where there is one. -/
  openUnit : List Step := []
  closeUnit : List Step := []
  /-- Documentation above the stub. -/
  stubDoc : Context → Compiled (List Step) := fun _ => .ok []
  /-- The line that opens the stub. -/
  signatureLine : Context → Compiled String
  /-- The line that closes a block, where there is one. -/
  blockEnd : Option String := some "\x7d"
  comment : String → String := fun text => "// " ++ text
  returnStatement : String → String := fun value => "return " ++ value ++ ";"
  /-- How a name is spelled where it is used. -/
  reference : String → String := id
  /-- The expression of a line of the input, counted from zero. -/
  token : Nat → String
  /-- The expression of the elements of a composite in a token. -/
  sequence : Context → Container → Scalar → String → Compiled String
  /-- The expression of a composite's text. -/
  joined : Context → Container → Scalar → String → Compiled String
  /-- The declaration of a name with a type and a value. -/
  declare : Context → String → DataType → String → Compiled String
  print : String → String
  openMain : List Step
  closeMain : List Step := .dedent :: (blockEnd.map Step.line).toList
  /-- Reads the lines of the input. -/
  readInput : List Step

namespace Backend

/-! ## Expressions -/

/-- The expression that decodes a token. -/
def decode (backend : Backend) (ctx : Context) (type : DataType) (token : String) :
    Compiled String :=
  match type with
  | .scalar s => ctx.parse (.scalar s) token
  | .composite c e => do ctx.parse (.container c) (← backend.sequence ctx c e token)

/-- The expression of a value's text. -/
def render (backend : Backend) (ctx : Context) (type : DataType) (value : String) :
    Compiled String :=
  match type with
  | .scalar s => ctx.format (.scalar s) value
  | .composite c e => backend.joined ctx c e value

/-- The call of the stub with every input. -/
def call (backend : Backend) (signature : Signature) : String :=
  entryPoint ++ "(" ++ ", ".intercalate (signature.names.map backend.reference) ++ ")"

/-! ## Parts of a program -/

/-- The lines inside the stub: a candidate's code, or a remark and a default value. -/
def stubBody (backend : Backend) (ctx : Context) : Option String → Compiled (List Step)
  | some body => .ok [.block body]
  | none => do
    let value ← ctx.defaultValue
    return [.line (backend.comment stubRemark), .line (backend.returnStatement value)]

def stub (backend : Backend) (ctx : Context) (body : Option String) : Compiled (List Step) := do
  let doc ← backend.stubDoc ctx
  let opening ← backend.signatureLine ctx
  let inner ← backend.stubBody ctx body
  return doc ++ [.line opening, .indent] ++ inner ++ [.dedent] ++
    (backend.blockEnd.map Step.line).toList

/-- The line that decodes and declares an input. -/
def inputLine (backend : Backend) (ctx : Context) (index : Nat) (input : Parameter) :
    Compiled Step := do
  let value ← backend.decode ctx input.type (backend.token index)
  return .line (← backend.declare ctx input.name input.type value)

/-- The lines that decode and declare the inputs, the first of them at `index`. -/
def inputLines (backend : Backend) (ctx : Context) (index : Nat) :
    List Parameter → Compiled (List Step)
  | [] => .ok []
  | input :: rest => do
    let line ← backend.inputLine ctx index input
    return line :: (← backend.inputLines ctx (index + 1) rest)

/-- The declaration of the result with the call as its value. -/
def callLine (backend : Backend) (ctx : Context) : Compiled String :=
  backend.declare ctx resultVariable ctx.signature.returns (backend.call ctx.signature)

def renderedResult (backend : Backend) (ctx : Context) : Compiled String :=
  backend.render ctx ctx.signature.returns (backend.reference resultVariable)

/-- The entry point that reads the standard input. -/
def harness (backend : Backend) (ctx : Context) : Compiled (List Step) := do
  let inputs ← backend.inputLines ctx 0 ctx.signature.inputs
  let call ← backend.callLine ctx
  let rendered ← backend.renderedResult ctx
  return backend.openMain ++ backend.readInput ++ inputs ++
    [.line call, .line (backend.print rendered)] ++ backend.closeMain

/-- The starter: imports and an empty stub. -/
def starter (backend : Backend) (ctx : Context) : Compiled (List Step) := do
  let stub ← backend.stub ctx none
  return backend.imports ctx.purpose ++ [.blank] ++ backend.openUnit ++ stub ++ backend.closeUnit

/-- The full program: imports, helpers, an empty stub and the harness. -/
def program (backend : Backend) (ctx : Context) : Compiled (List Step) := do
  let stub ← backend.stub ctx none
  let harness ← backend.harness ctx
  return backend.imports ctx.purpose ++ [.blank] ++ backend.helpers ++ [.blank] ++
    backend.openUnit ++ stub ++ [.blank] ++ harness ++ backend.closeUnit

/-- The generated text for a signature. -/
def generate (backend : Backend) (registry : Registry) (signature : Signature)
    (stubOnly : Bool) : Compiled String := do
  let ctx purpose : Context := ⟨signature, registry, backend.language, purpose⟩
  let steps ← if stubOnly then backend.starter (ctx .starter) else backend.program (ctx .harness)
  return layout backend.indentUnit steps

end Backend

end StructuredCall
