import StructuredCall.Scope
import StructuredCall.Signature.Declaration

/-!
# Reading a signature

The significant lines of a source are read in order, each against the names and the result that
the earlier lines declared. The first line in error decides the answer.
-/

namespace StructuredCall

/-- The part of a signature that the lines so far declare. -/
structure Draft where
  scope : Scope := {}
  inputs : List Parameter := []
  returns : Option DataType := none
deriving Repr, DecidableEq, Inhabited

namespace Draft

/-- Claims the names of an input. -/
def claim (draft : Draft) (name : String) (type : DataType) (line : Line) : Compiled Scope :=
  match draft.scope.declare name type.isComposite line with
  | (scope, .ok ()) => .ok scope
  | (_, .error e) => .error e

/-- The number that the word for a size denotes. -/
def sizeOf (line : Line) : Option Word → Compiled (Option Nat)
  | none => .ok none
  | some word =>
    match Text.word64? word.text.toList with
    | some n => .ok (some n)
    | none => .error (.invalidSize word.text (line.narrow word.span))

def add (draft : Draft) (line : Line) : Declaration → Compiled Draft
  | .returns type =>
    match draft.returns with
    | some _ => .error (.duplicateReturn line)
    | none => .ok { draft with returns := some type }
  | .input name type size => do
    let scope ← draft.claim name type line
    let size ← sizeOf line size
    return { draft with scope, inputs := draft.inputs ++ [⟨name, type, size⟩] }

def addLine (draft : Draft) (line : Line) : Compiled Draft := do
  draft.add line (← Declaration.ofLine line)

/-- Takes in lines until one is in error. -/
def addLines (draft : Draft) : List Line → Compiled Draft
  | [] => .ok draft
  | line :: rest => do (← draft.addLine line).addLines rest

/-- The signature, once its result is declared. -/
def finish (draft : Draft) : Compiled Signature :=
  match draft.returns with
  | some returns => .ok ⟨draft.inputs, returns⟩
  | none => .error .missingReturn

end Draft

namespace Signature

/-- The signature that a source describes. -/
def ofSource (source : String) : Compiled Signature := do
  (← ({} : Draft).addLines (Source.significant source)).finish

end Signature

end StructuredCall
