import StructuredCall.Error
import StructuredCall.Text.Quoted

/-!
# Tokens

A line is read into words and arrows between gaps. A dash pairs with the character after it,
unless that is a gap or `>`; so an odd run of dashes before `>` ends in an arrow, and a dash
that is neither paired nor part of an arrow is an error.
-/

namespace StructuredCall

/-- A token without its place. -/
inductive Token.Kind
  | arrow
  | word (text : String)
  | endOfLine
deriving Repr, DecidableEq, Inhabited

/-- A token and its place in the source. -/
structure Token where
  kind : Token.Kind
  span : Span
deriving Repr, DecidableEq, Inhabited

namespace Token

/-- How messages name a token. -/
def Kind.render : Kind → String
  | .arrow => "`->`"
  | .word text => "`" ++ text ++ "`"
  | .endOfLine => "end of line"

def word? (token : Token) : Option String :=
  match token.kind with
  | .word text => some text
  | .arrow | .endOfLine => none

/-! ## Reading -/

/-- Characters between tokens. -/
def isGap (c : Char) : Bool :=
  c = ' ' || c = '\t' || c = '\r' || c = '\x0c'

/-- Characters that end a word. -/
def endsWord (c : Char) : Bool :=
  isGap c || c = '\n'

/-- The longest word at the front, and what follows it. -/
def takeWord : List Char → List Char × List Char
  | [] => ([], [])
  | ['-'] => ([], ['-'])
  | '-' :: c :: rest =>
    if endsWord c || c = '>' then ([], '-' :: c :: rest)
    else ('-' :: c :: (takeWord rest).1, (takeWord rest).2)
  | c :: rest =>
    if endsWord c then ([], c :: rest) else (c :: (takeWord rest).1, (takeWord rest).2)

theorem takeWord_append (cs : List Char) : (takeWord cs).1 ++ (takeWord cs).2 = cs := by
  fun_induction takeWord cs <;> simp_all

theorem length_takeWord_rest (cs : List Char) :
    (takeWord cs).1.length + (takeWord cs).2.length = cs.length := by
  have h := congrArg List.length (takeWord_append cs)
  simpa using h

/-- The tokens of a line's characters; `offset` is the first byte of the first of them. -/
def scan (line : Line) (offset : Nat) : List Char → Compiled (List Token)
  | [] => .ok [⟨.endOfLine, ⟨offset, offset⟩⟩]
  | '-' :: '>' :: rest =>
    (scan line (offset + 2) rest).map (⟨.arrow, ⟨offset, offset + 2⟩⟩ :: ·)
  | c :: rest =>
    if isGap c then scan line (offset + c.utf8Size) rest
    else
      match _split : takeWord (c :: rest) with
      | ([], _) =>
        .error (.malformed (.unexpectedCharacter c)
          (line.narrow ⟨offset, offset + c.utf8Size⟩))
      | (d :: word, after) =>
        let stop := offset + Text.utf8Length (d :: word)
        (scan line stop after).map (⟨.word (String.ofList (d :: word)), ⟨offset, stop⟩⟩ :: ·)
termination_by cs => cs.length
decreasing_by
  · simp only [List.length_cons]; omega
  · simp only [List.length_cons]; omega
  · have := length_takeWord_rest (c :: rest)
    simp_all
    omega

/-- The tokens of a line; the last of them, and no other, is the end of the line. -/
def ofLine (line : Line) : Compiled (List Token) :=
  scan line line.span.start line.content.toList

/-! ## Listing -/

/-- How a listing shows a token. -/
def Kind.listing : Kind → String
  | .arrow => "Arrow"
  | .word text => "Word(" ++ Text.visible text ++ ")"
  | .endOfLine => "Eol"

/-- How a listing shows a token and its place. -/
def listing (token : Token) : String :=
  " " ++ token.kind.listing ++ "@" ++ Text.natText token.span.start ++ ".." ++
    Text.natText token.span.stop

/-- A number in a column of four. -/
def column (n : Nat) : String :=
  String.ofList (List.replicate (4 - (Text.natDigits n).length) ' ') ++ Text.natText n

/-- The listing of lines, one row a line. -/
def listLines : List Line → Compiled String
  | [] => .ok ""
  | line :: rest => do
    let tokens ← ofLine line
    let rows ← listLines rest
    return column line.number ++ ":" ++ String.join (tokens.map listing) ++ "\n" ++ rows

/-- The listing of the significant lines of a source. -/
def list (source : String) : Compiled String :=
  listLines (Source.significant source)

end Token

end StructuredCall
