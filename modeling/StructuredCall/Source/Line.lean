import StructuredCall.Text.Blank
import StructuredCall.Text.Numeral
import StructuredCall.Text.Pieces

/-!
# Lines of a source text

A source text is read line by line. A `Line` keeps its number, its content and its place, so
that an error can point at it. Blank lines and lines that start with `#` are ignored.
-/

namespace StructuredCall

/-- A range of bytes of the source text in UTF-8; `stop` is the first byte after it. -/
structure Span where
  start : Nat
  stop : Nat
deriving Repr, DecidableEq, Inhabited

/-- A line of the source, or a part of it. -/
structure Line where
  /-- Lines count from one. -/
  number : Nat
  /-- The whole line without its line end. -/
  content : String
  /-- The part that is meant; the whole line unless narrowed. -/
  span : Span
deriving Repr, DecidableEq, Inhabited

namespace Line

def narrow (line : Line) (span : Span) : Line :=
  { line with span }

/-- How error messages name a line. -/
def render (line : Line) : String :=
  "line " ++ Text.natText line.number ++ " (`" ++ Text.trim line.content ++ "`)"

/-- Blank lines and comments declare nothing. -/
def isIgnored (line : Line) : Bool :=
  match Text.trimChars line.content.toList with
  | [] => true
  | c :: _ => c = '#'

end Line

namespace Source

/-- A line without one carriage return at its end. -/
def dropCarriageReturn (cs : List Char) : List Char :=
  if cs.getLast? = some '\r' then cs.dropLast else cs

/-- Numbers the pieces of a source; `offset` is the first byte of the first of them. -/
def numbered (number offset : Nat) : List (List Char) → List Line
  | [] => []
  | piece :: rest =>
    let content := dropCarriageReturn piece
    ⟨number, String.ofList content, ⟨offset, offset + Text.utf8Length content⟩⟩ ::
      numbered (number + 1) (offset + Text.utf8Length piece + 1) rest

/-- The lines of a source. A text without line feeds is one line. -/
def lines (source : String) : List Line :=
  numbered 1 0 (Text.pieces '\n' source.toList)

/-- The lines that declare something. -/
def significant (source : String) : List Line :=
  (lines source).filter fun line => !line.isIgnored

end Source

end StructuredCall
