import StructuredCall.Error
import StructuredCall.Name

/-!
# Scopes

The names that a source has claimed so far. An input claims its own name, and a composite also
the name of its size constant. Declaring goes step by step and keeps what the earlier steps
claimed: a reserved word stays claimed after it is refused, and so does the name of a composite
whose size constant clashes.
-/

namespace StructuredCall

/-- What a name stands for. -/
inductive Symbol.Kind
  | input
  | sizeConstant
deriving Repr, DecidableEq, Inhabited

/-- A claimed name and the number of the line that claimed it. -/
structure Symbol where
  name : String
  kind : Symbol.Kind
  line : Nat
deriving Repr, DecidableEq, Inhabited

/-- The claimed names, the latest last; no two are equal. -/
structure Scope where
  symbols : List Symbol := []
deriving Repr, DecidableEq, Inhabited

namespace Scope

def empty : Scope :=
  {}

def lookup (scope : Scope) (name : String) : Option Symbol :=
  scope.symbols.find? fun symbol => symbol.name = name

def size (scope : Scope) : Nat :=
  scope.symbols.length

/-- Claims a name that is free; otherwise the answer is the symbol that holds it. -/
def define (scope : Scope) (symbol : Symbol) : Except Symbol Scope :=
  match scope.lookup symbol.name with
  | some holder => .error holder
  | none => .ok ⟨scope.symbols ++ [symbol]⟩

/-- The reason why a name cannot be claimed again. -/
def refusal (holder : Symbol) : String :=
  "symbol '" ++ holder.name ++ "' already defined on line " ++ Text.natText holder.line

def claim (scope : Scope) (name : String) (kind : Symbol.Kind) (line : Line) :
    Compiled Scope :=
  match scope.define ⟨name, kind, line.number⟩ with
  | .ok scope => .ok scope
  | .error _ => .error (.duplicateName name line)

/-- Declares an input. The scope in the answer holds what was claimed, also on failure. -/
def declare (scope : Scope) (name : String) (isComposite : Bool) (line : Line) :
    Scope × Compiled Unit :=
  if !Name.isIdentifier name then (scope, .error (.malformed (.notIdentifier name) line))
  else
    match scope.claim name .input line with
    | .error e => (scope, .error e)
    | .ok named =>
      if Name.isReserved name then (named, .error (.reservedWord name line))
      else if !isComposite then (named, .ok ())
      else
        match named.claim (Name.sizeName name) .sizeConstant line with
        | .error e => (named, .error e)
        | .ok sized => (sized, .ok ())

end Scope

end StructuredCall
