import StructuredCall.Toml.Document

/-!
# Configuration

The settings of the judge, read from a TOML document. A setting that is not given has a default,
and keys that are not settings have no meaning.
-/

namespace StructuredCall

/-- Where and how programs are submitted. -/
structure SandboxConfig where
  endpoint : String := "http://localhost:2358/submissions"
  /-- Sent with every submission when it is there. -/
  apiKey : Option String := none
  /-- How long a submission may take. -/
  timeoutSeconds : Nat := 30
  /-- How many submissions may be in flight at once. -/
  maxConcurrency : Nat := 4
deriving Repr, DecidableEq, Inhabited

/-- The settings of the judge. -/
structure JudgeConfig where
  sandbox : SandboxConfig := {}
  /-- Whether scalars without a binding are treated as integers. -/
  lenient : Bool := false
deriving Repr, DecidableEq, Inhabited

/-- What is wrong with a configuration. -/
inductive ConfigError
  /-- The text is no TOML document, or a setting has a value of another kind. -/
  | malformed
  /-- No submission may be in flight. -/
  | noConcurrency
deriving Repr, DecidableEq, Inhabited

def ConfigError.message : ConfigError → String
  | malformed => "malformed document"
  | noConcurrency => "max_concurrency must be at least 1"

namespace JudgeConfig

open Toml (Value)

/-! ## Settings -/

def textIn? : Value → Option String
  | .string s => some s
  | _ => none

/-- A number that is not negative. -/
def naturalIn? : Value → Option Nat
  | .integer n => if n < 0 then none else some n.toNat
  | _ => none

def flagIn? : Value → Option Bool
  | .boolean b => some b
  | _ => none

/-- A setting with a default for a value that is not given. -/
def setting? (read : Value → Option α) (default : α) : Option Value → Option α
  | some value => read value
  | none => some default

/-- The sandbox from the values of its settings. -/
def sandbox? (endpoint apiKey timeout concurrency : Option Value) : Option SandboxConfig := do
  let standard : SandboxConfig := {}
  return {
    endpoint := ← setting? textIn? standard.endpoint endpoint
    apiKey := ← setting? (fun v => (textIn? v).map some) standard.apiKey apiKey
    timeoutSeconds := ← setting? naturalIn? standard.timeoutSeconds timeout
    maxConcurrency := ← setting? naturalIn? standard.maxConcurrency concurrency }

/-- The sandbox that a value describes: a table, or an array of its settings in order. A date or
time counts as a table without settings. -/
def sandboxIn? : Value → Option SandboxConfig
  | .table members =>
    sandbox? (members.lookup "endpoint") (members.lookup "api_key")
      (members.lookup "timeout_secs") (members.lookup "max_concurrency")
  | .array items => sandbox? items[0]? items[1]? items[2]? items[3]?
  | .dateTime => some {}
  | .string _ | .integer _ | .float | .boolean _ => none

/-! ## Documents -/

/-- The settings in the members of a document. -/
def ofMembers? (members : List (String × Value)) : Option JudgeConfig := do
  return {
    sandbox := ← setting? sandboxIn? {} (members.lookup "sandbox")
    lenient := ← setting? flagIn? false (members.lookup "lenient_fallback") }

def ofText (text : String) : Except ConfigError JudgeConfig :=
  match (Toml.ofText? text).bind ofMembers? with
  | none => .error .malformed
  | some config =>
    if config.sandbox.maxConcurrency = 0 then .error .noConcurrency else .ok config

end JudgeConfig

end StructuredCall
