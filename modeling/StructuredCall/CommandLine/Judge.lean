import StructuredCall.CommandLine.Generate
import StructuredCall.Dispatch.Timed
import StructuredCall.Materializer

/-!
# The command scl-judge

Materializes test cases. The programs are written to files, or submitted to a sandbox.
-/

namespace StructuredCall.CommandLine.Judge

variable {m : Type → Type} [Monad m]

/-! ## Arguments -/

def spec : CommandSpec where
  name := "scl-judge"
  version := "0.1.0"
  maxOperands := 3
  options :=
    [{ long := "lang", short := some 'l', takesValue := true },
      { long := "config", short := some 'c', takesValue := true, accepts := (· ≠ "") },
      { long := "endpoint", takesValue := true },
      { long := "max-concurrency", takesValue := true,
        accepts := fun value => (Text.word64? value.toList).isSome },
      { long := "dry-run", takesValue := true, accepts := (· ≠ "") },
      { long := "legacy" },
      { long := "lenient" },
      { long := "verbose", short := some 'v' }]

/-- What is judged, and how. -/
structure Arguments where
  /-- The file of the source. -/
  source : String
  /-- The file of the candidate's code. -/
  solution : String
  /-- The file of the test cases. -/
  cases : String
  /-- The identifier of the language. -/
  language : String
  /-- The file of the settings. -/
  config : Option String
  /-- Settings that count more than those of the file. -/
  endpoint : Option String
  maxConcurrency : Option Nat
  /-- The directory to write the programs to instead of submitting them. -/
  dryRun : Option String
  legacy : Bool
  lenient : Bool
  verbose : Bool
deriving Repr, DecidableEq, Inhabited

/-- The arguments, if none is missing. -/
def Arguments.ofGiven? (given : Given) : Option Arguments :=
  match given.operands, given.value? "lang" with
  | [source, solution, cases], some language =>
    some {
      source, solution, cases, language
      config := given.value? "config"
      endpoint := given.value? "endpoint"
      maxConcurrency := (given.value? "max-concurrency").bind fun n => Text.word64? n.toList
      dryRun := given.value? "dry-run"
      legacy := given.has "legacy"
      lenient := given.has "lenient"
      verbose := given.has "verbose" }
  | _, _ => none

/-! ## Settings and test cases -/

/-- The message of an error, followed by that of the system if it comes from there. -/
def chain : JudgeError → String
  | .io cause => (JudgeError.io cause).message ++ ": " ++ cause.message
  | e => e.message

/-- Reads a file and what is in it. -/
def load (host : Host m) (activity path : String) (read : String → Judged α) : Command m α := do
  let text := (← host.readText path).mapError JudgeError.io
  Command.ofExcept (fun e => activity ++ " " ++ path ++ ": " ++ chain e) (text.bind read)

def readCases (text : String) : Judged (List TestCase) :=
  match TestCase.listOf? text with
  | some tests => .ok tests
  | none => .error .json

/-- The settings of a file, or the defaults without one. -/
def loadConfig (host : Host m) : Option String → Command m JudgeConfig
  | some path => load host "loading" path fun text => (JudgeConfig.ofText text).mapError .config
  | none => return {}

/-- The settings with those of the arguments in their place. -/
def override (arguments : Arguments) (config : JudgeConfig) : JudgeConfig :=
  { lenient := arguments.lenient || config.lenient
    sandbox := { config.sandbox with
      endpoint := arguments.endpoint.getD config.sandbox.endpoint
      maxConcurrency := arguments.maxConcurrency.getD config.sandbox.maxConcurrency } }

/-! ## Programs -/

/-- Writes each program to a directory of its own. -/
def writePrograms (host : Host m) (directory : String) : List CaseProgram → Command m Unit
  | [] => return ()
  | program :: rest => do
    let name := "case-" ++ Text.natText program.caseNo
    writeInDirectory host (FileTree.below directory name) program.language.fileName program.code
    writePrograms host directory rest

/-- The record of an outcome. -/
def outcomeJson (outcome : Outcome) : Json :=
  let caseNo : Json := .number (.int outcome.caseNo)
  match outcome.result with
  | .ok receipt => .ofMembers
      [("caseNo", caseNo), ("caseId", .string outcome.caseId),
        ("status", .number (.int receipt.status)), ("response", receipt.body)]
  | .error e => .ofMembers
      [("caseNo", caseNo), ("caseId", .string outcome.caseId),
        ("error", .string e.message), ("retryable", .bool e.isRetryable)]

def isFailure (outcome : Outcome) : Bool :=
  match outcome.result with
  | .ok _ => false
  | .error _ => true

/-- How a sandbox without an address treats a request: none can be built. -/
def noTransport : Dispatch.Script :=
  ⟨0, some (.error (.transport "builder error"))⟩

/-- Submits programs to a sandbox and prints what became of each. -/
def submitPrograms (host : Host m) (config : SandboxConfig)
    (client : SandboxConfig → CaseProgram → Dispatch.Script) (programs : List CaseProgram) :
    Command m Unit := do
  let scripted := programs.map fun program => (program, client config program)
  let timed := TimedDispatch.run config.maxConcurrency none scripted
  let outcomes := timed.dispatch.outcomes
  host.print (String.join (outcomes.map fun outcome => (outcomeJson outcome).text ++ "\n"))
  let failed := outcomes.countP isFailure
  if failed ≠ 0 then
    Command.fail (Text.natText failed ++ " of " ++ Text.natText programs.length ++
      " submission(s) failed")

/-! ## The command -/

def command (host : Host m) (client : SandboxConfig → CaseProgram → Dispatch.Script)
    (arguments : Arguments) : Command m Unit := do
  let config := override arguments (← loadConfig host arguments.config)
  let language ← Command.ofExcept CompileError.message (Language.find arguments.language)
  let source ← readFile host arguments.source
  let body ← readFile host arguments.solution
  let tests ← load host "reading" arguments.cases readCases
  let materializer ← Command.ofExcept CompileError.message
    (Materializer.standard config.lenient)
  let reading : ReadOptions := { legacy := arguments.legacy, verbose := arguments.verbose }
  let signature ← readSignature host reading arguments.source source
  let programs ← Command.ofExcept JudgeError.message
    (materializer.materializeAll signature language body tests)
  match arguments.dryRun with
  | some directory => writePrograms host directory programs
  | none => submitPrograms host config.sandbox client programs

/-- Runs the command; the answer is the exit code. -/
def run (host : Host m) (client : SandboxConfig → CaseProgram → Dispatch.Script)
    (arguments : List String) : m Nat :=
  spec.run host Arguments.ofGiven? (command host client) arguments

end StructuredCall.CommandLine.Judge
