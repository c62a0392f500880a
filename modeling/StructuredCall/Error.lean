import StructuredCall.Language
import StructuredCall.Source.Line

/-!
# Compile errors

What can be wrong with a source, and what can be missing when code is generated from it. Each
error is a cause; its wording is in `CompileError.message`.
-/

namespace StructuredCall

/-- Ways in which a line is not of the right form. -/
inductive Malformation
  /-- A character that starts no token. -/
  | unexpectedCharacter (c : Char)
  /-- The number of arrows is not one. -/
  | separators (found : Nat)
  | missingType
  | severalTypes
  | missingName
  /-- A scalar takes one name and nothing else. -/
  | severalNames (scalar : Scalar)
  /-- A composite without an element type. -/
  | missingElement (container : Container)
  /-- A composite with too few or too many words. -/
  | compositeForm (container : Container)
  | notIdentifier (name : String)
deriving Repr, DecidableEq

/-- Errors of reading a source and of generating code. -/
inductive CompileError
  | malformed (cause : Malformation) (line : Line)
  | unknownType (word : String) (line : Line)
  | duplicateReturn (line : Line)
  /-- No line declares a result. -/
  | missingReturn
  /-- The result is declared by the name of an input that is not there. -/
  | undeclaredReturn (name : String) (line : Line)
  | duplicateName (name : String) (line : Line)
  | reservedWord (name : String) (line : Line)
  | invalidSize (word : String) (line : Line)
  | unsupportedLanguage (id : String)
  | missingBinding (kind : Kind) (language : Language)
deriving Repr, DecidableEq

namespace Malformation

def message : Malformation → String
  | unexpectedCharacter c => "unexpected character '" ++ String.ofList [c] ++ "'"
  | separators found =>
    "expected exactly one `->` separator, found " ++ Text.natText found
  | missingType => "missing type before `->`"
  | severalTypes => "expected a single type before `->`"
  | missingName => "missing name after `->`"
  | severalNames scalar => "`" ++ scalar.name ++ "` declarations take a single name"
  | missingElement container =>
    "`" ++ container.name ++ "` needs an element type: `" ++ container.name ++
      " -> <element> <name> [size]`"
  | compositeForm container =>
    "`" ++ container.name ++ "` declarations need `<element> <name> [size]`"
  | notIdentifier name => "`" ++ name ++ "` is not a valid identifier"

end Malformation

namespace CompileError

def line? : CompileError → Option Line
  | malformed _ line | unknownType _ line | duplicateReturn line | undeclaredReturn _ line
  | duplicateName _ line | reservedWord _ line | invalidSize _ line => some line
  | missingReturn | unsupportedLanguage _ | missingBinding _ _ => none

/-- The class of an error, in a few words. -/
def title : CompileError → String
  | malformed _ _ => "syntax error"
  | unknownType _ _ => "unknown type"
  | duplicateReturn _ => "duplicate return"
  | missingReturn | undeclaredReturn _ _ => "return not found"
  | duplicateName _ _ => "duplicate name"
  | reservedWord _ _ => "reserved word"
  | invalidSize _ _ => "invalid size"
  | unsupportedLanguage _ => "unsupported language"
  | missingBinding _ _ => "missing type binding"

def message : CompileError → String
  | malformed cause line => "syntax error at " ++ line.render ++ ": " ++ cause.message
  | unknownType word line => "unknown type `" ++ word ++ "` at " ++ line.render
  | duplicateReturn line => "duplicate return declaration at " ++ line.render
  | missingReturn => "return not found: no `return` declaration in program"
  | undeclaredReturn name _ =>
    "return not found: `return -> " ++ name ++ "` names no declared input"
  | duplicateName name line => "`" ++ name ++ "` is already declared (" ++ line.render ++ ")"
  | reservedWord name line => "`" ++ name ++ "` is a reserved word (" ++ line.render ++ ")"
  | invalidSize word line =>
    "invalid size `" ++ word ++ "` at " ++ line.render ++ ": expected a non-negative integer"
  | unsupportedLanguage id => "unsupported language: " ++ id
  | missingBinding kind language =>
    "no `" ++ language.id ++ "` binding for type `" ++ kind.name ++ "`"

end CompileError

/-- Results that can fail with a compile error. -/
abbrev Compiled := Except CompileError

namespace Compiled

variable {ε α β : Type}

theorem bind_eq_ok {x : Except ε α} {f : α → Except ε β} {b : β} :
    x >>= f = .ok b ↔ ∃ a, x = .ok a ∧ f a = .ok b := by
  cases x <;> simp [bind, Except.bind]

theorem bind_eq_error {x : Except ε α} {f : α → Except ε β} {e : ε} :
    x >>= f = .error e ↔ x = .error e ∨ ∃ a, x = .ok a ∧ f a = .error e := by
  cases x <;> simp [bind, Except.bind]

@[simp] theorem ok_bind (a : α) (f : α → Except ε β) : .ok a >>= f = f a := rfl

theorem bind_pure_eq_error {x : Except ε α} {f : α → β} {e : ε} :
    (x >>= fun a => pure (f a)) = .error e ↔ x = .error e := by
  cases x <;> simp [bind, Except.bind, pure, Except.pure]

theorem map_eq_ok {x : Except ε α} {f : α → β} {b : β} :
    x.map f = .ok b ↔ ∃ a, x = .ok a ∧ f a = b := by
  cases x <;> simp [Except.map]

end Compiled

/-- The language with an identifier, or the error that there is none. -/
def Language.find (word : String) : Compiled Language :=
  match Language.ofId? word with
  | some language => .ok language
  | none => .error (.unsupportedLanguage word)

end StructuredCall
