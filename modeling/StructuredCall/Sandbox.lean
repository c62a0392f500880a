import StructuredCall.Json.Basic
import StructuredCall.Language

/-!
# Sandboxes

A sandbox compiles and runs the programs of test cases. It is known by what is submitted to it
and by what it answers.
-/

namespace StructuredCall

/-- The program of one test case. -/
structure CaseProgram where
  /-- The number of the case, counted from one. -/
  caseNo : Nat
  caseId : String
  language : Language
  code : String
deriving Repr, DecidableEq, Inhabited

/-- What is submitted to a sandbox. -/
structure SandboxRequest where
  code : String
  /-- The identifier of the language. -/
  language : String
deriving Repr, DecidableEq, Inhabited

def CaseProgram.request (program : CaseProgram) : SandboxRequest :=
  ⟨program.code, program.language.id⟩

/-- What a sandbox gives for a request that it accepts. -/
structure Receipt where
  status : Nat
  body : Json
deriving Repr, Inhabited

/-- Why a request is not accepted. -/
inductive SandboxError
  /-- The request did not get there, or no answer came back. -/
  | transport (reason : String)
  | rejected (status : Nat) (body : String)
  /-- The task that submits the request came to an end before the answer. -/
  | taskFailed (reason : String)
deriving Repr, DecidableEq, Inhabited

def SandboxError.message : SandboxError → String
  | transport reason => "transport error: " ++ reason
  | rejected status body => "sandbox answered " ++ Text.natText status ++ ": " ++ body
  | taskFailed reason => "submission task failed: " ++ reason

/-- What becomes of a request once it is with the sandbox. -/
abbrev SandboxAnswer :=
  Except SandboxError Receipt

end StructuredCall
