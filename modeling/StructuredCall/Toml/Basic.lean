import StructuredCall.Text.Numeral

/-!
# TOML values

Values of a TOML document, and readers of text. A reader answers with what it read and with the
rest of the text, and with `none` where the text is malformed.
-/

namespace StructuredCall.Toml

/-- TOML values. Of floats and of dates and times only the kind is kept. -/
inductive Value
  | string (s : String)
  | integer (n : Int)
  | float
  | boolean (b : Bool)
  | dateTime
  | array (items : List Value)
  | table (members : List (String × Value))
deriving Repr, Inhabited

/-- Reads something at the front of a text. -/
abbrev Reader (α : Type) := List Char → Option (α × List Char)

/-! ## Spaces, comments and line ends -/

def isSpace (c : Char) : Bool :=
  c = ' ' || c = '\t'

/-- A text without the spaces at its front. -/
def skipSpaces (cs : List Char) : List Char :=
  cs.dropWhile isSpace

/-- Whether a character may stand in a comment or, quotes and backslashes aside, in a string. -/
def isPlain (c : Char) : Bool :=
  c = '\t' || (0x20 ≤ c.toNat && c.toNat ≠ 0x7F)

/-- What follows a line end. -/
def afterNewline? : List Char → Option (List Char)
  | '\n' :: rest => some rest
  | '\r' :: '\n' :: rest => some rest
  | _ => none

/-- A text without the comment at its front. -/
def skipComment : List Char → List Char
  | '#' :: rest => rest.dropWhile isPlain
  | cs => cs

/-- What follows the end of a line, before which there may be spaces and a comment. The end of
the text ends a line too. -/
def endLine? (cs : List Char) : Option (List Char) :=
  match skipComment (skipSpaces cs) with
  | [] => some []
  | rest => afterNewline? rest

/-- A text without the spaces, comments and line ends at its front. A comment must be plain up
to the end of its line. Every round takes a character, so `fuel` rounds are enough for a text of
that length. -/
def skipTriviaWithin? : Nat → List Char → Option (List Char)
  | 0, cs => some cs
  | fuel + 1, cs =>
    match skipSpaces cs with
    | '#' :: rest =>
      match rest.dropWhile isPlain with
      | [] => some []
      | rest => do skipTriviaWithin? fuel (← afterNewline? rest)
    | '\n' :: rest => skipTriviaWithin? fuel rest
    | '\r' :: rest => do skipTriviaWithin? fuel (← afterNewline? ('\r' :: rest))
    | rest => some rest

/-- A text without the spaces, comments and line ends at its front. -/
def skipTrivia? (cs : List Char) : Option (List Char) :=
  skipTriviaWithin? (cs.length + 1) cs

end StructuredCall.Toml
