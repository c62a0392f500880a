import StructuredCall.Config
import StructuredCall.Error
import StructuredCall.FileTree
import StructuredCall.Literal.Decode
import StructuredCall.Sandbox

/-!
# Judge errors

What can go wrong between a test case and the sandbox's answer. Failed submissions are apart
from everything else: submitting once more may help only there.
-/

namespace StructuredCall

/-- Why a test case does not fit a signature. -/
inductive CaseError
  | inputCount (expected found : Nat)
  /-- The value of an input cannot be decoded. -/
  | undecodable (name : String) (cause : DecodeError)
  /-- The value of an input, counted from zero, has another shape than its type. -/
  | wrongShape (index : Nat)
deriving Repr, Inhabited

def CaseError.message : CaseError → String
  | inputCount expected found =>
    "expected " ++ Text.natText expected ++ " inputs, found " ++ Text.natText found
  | undecodable name cause => "`" ++ name ++ "`: " ++ cause.message
  | wrongShape index => "input " ++ Text.natText index ++ " has the wrong shape"

/-- Errors of the judge. -/
inductive JudgeError
  | compile (cause : CompileError)
  | invalidTestCase (caseNo : Nat) (cause : CaseError)
  | dispatch (caseNo : Nat) (cause : SandboxError)
  | cancelled (caseNo : Nat)
  | config (cause : ConfigError)
  | io (cause : FileError)
  /-- A text that is not the JSON of what it should hold. -/
  | json
deriving Repr, Inhabited

/-- Classes of errors by what helps against them. -/
inductive JudgeErrorKind
  | compile
  | invalidTestCase
  | dispatch
  | cancelled
  | config
  | io
deriving Repr, DecidableEq, Inhabited

namespace JudgeError

def kind : JudgeError → JudgeErrorKind
  | compile _ => .compile
  | invalidTestCase _ _ => .invalidTestCase
  | dispatch _ _ => .dispatch
  | cancelled _ => .cancelled
  | config _ => .config
  | io _ | json => .io

/-- Whether submitting the same program once more may succeed. -/
def isRetryable (e : JudgeError) : Bool :=
  e.kind = .dispatch || e.kind = .cancelled

def message : JudgeError → String
  | compile cause => cause.message
  | invalidTestCase caseNo cause => "test case " ++ Text.natText caseNo ++ ": " ++ cause.message
  | dispatch caseNo cause =>
    "dispatch of test case " ++ Text.natText caseNo ++ " failed: " ++ cause.message
  | cancelled caseNo => "test case " ++ Text.natText caseNo ++ " was cancelled"
  | config cause => "configuration error: " ++ cause.message
  | io cause => "IO error: " ++ cause.message
  | json => "JSON error"

end JudgeError

/-- Results that can fail with an error of the judge. -/
abbrev Judged := Except JudgeError

/-- A result of the compiler as one of the judge. -/
def Judged.ofCompiled (result : Compiled α) : Judged α :=
  result.mapError .compile

end StructuredCall
