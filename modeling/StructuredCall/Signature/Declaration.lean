import StructuredCall.Signature.Basic
import StructuredCall.Token

/-!
# Declarations

What one line says. The type stands before the only arrow. After it a scalar has a name, and a
composite has an element type, a name and possibly a size; the word `return` in place of the
name makes the line declare the result.
-/

namespace StructuredCall

structure Word where
  text : String
  span : Span
deriving Repr, DecidableEq, Inhabited

/-- What a line declares. The size is still a word: it is read after the name is claimed. -/
inductive Declaration
  | input (name : String) (type : DataType) (size : Option Word)
  | returns (type : DataType)
deriving Repr, DecidableEq

namespace Declaration

/-- The word that takes the place of a name on the line of the result. -/
def returnWord : String :=
  "return"

def words (tokens : List Token) : List Word :=
  tokens.filterMap fun token => token.word?.map (⟨·, token.span⟩)

/-- The declaration of a name, which may be the word for the result. -/
def named (name : Word) (type : DataType) : Declaration :=
  if name.text = returnWord then .returns type else .input name.text type none

/-- The declaration of a scalar from the words after the arrow. -/
def ofScalar (line : Line) (scalar : Scalar) : List Word → Compiled Declaration
  | [] => .error (.malformed .missingName line)
  | [name] => .ok (named name (.scalar scalar))
  | _ => .error (.malformed (.severalNames scalar) line)

/-- The element type that a word names. -/
def element (line : Line) (word : Word) : Compiled Scalar :=
  match (Kind.ofWord? word.text).bind Kind.scalar? with
  | some scalar => .ok scalar
  | none => .error (.unknownType word.text (line.narrow word.span))

/-- The declaration of a composite from the words after the arrow. -/
def ofContainer (line : Line) (container : Container) : List Word → Compiled Declaration
  | [] => .error (.malformed (.missingElement container) line)
  | [word] =>
    if word.text = returnWord then .error (.malformed (.missingElement container) line)
    else .error (.malformed (.compositeForm container) line)
  | word :: rest => do
    let type := DataType.composite container (← element line word)
    match rest with
    | [name] => return named name type
    | [name, size] => return .input name.text type (some size)
    | _ => throw (.malformed (.compositeForm container) line)

/-- The declaration that the words before and after the arrow make up. -/
def ofWords (line : Line) (before after : List Word) : Compiled Declaration :=
  match before with
  | [] => .error (.malformed .missingType line)
  | [type] =>
    match Kind.ofWord? type.text with
    | none => .error (.unknownType type.text (line.narrow type.span))
    | some (.scalar scalar) => ofScalar line scalar after
    | some (.container container) => ofContainer line container after
  | _ => .error (.malformed .severalTypes line)

/-- The declaration that the tokens of a line make up. -/
def ofTokens (line : Line) (tokens : List Token) : Compiled Declaration :=
  let before := tokens.takeWhile fun token => token.kind ≠ .arrow
  let after := tokens.drop (before.length + 1)
  let arrows := tokens.countP fun token => token.kind = .arrow
  if arrows ≠ 1 then .error (.malformed (.separators arrows) line)
  else ofWords line (words before) (words after)

/-- The declaration on a line. -/
def ofLine (line : Line) : Compiled Declaration := do
  ofTokens line (← Token.ofLine line)

end Declaration

end StructuredCall
