import StructuredCall.Text.Blank
import StructuredCall.Text.Pieces

/-!
# Layout of generated text

Generated text is described by steps, which a `Writer` turns into indented lines. Steps are
data, so parts of a program can be compared before they are written.
-/

namespace StructuredCall

inductive Step
  /-- A line at the current depth; an empty one is not indented. -/
  | line (text : String)
  /-- The lines of a text, each without white space at its end. -/
  | block (text : String)
  /-- An empty line, unless nothing or an empty line stands before it. -/
  | blank
  | indent
  | dedent
deriving Repr, DecidableEq, Inhabited

/-- The lines of a block, each without white space at its end. Nothing follows the last line
feed. -/
def blockLines (text : String) : List String :=
  let pieces := Text.pieces '\n' text.toList
  let full := if pieces.getLast? = some [] then pieces.dropLast else pieces
  full.map fun piece => Text.trimEnd (String.ofList piece)

/-- Lines at a depth of indentation. -/
structure Writer where
  /-- One level of indentation. -/
  indentUnit : String
  depth : Nat := 0
  /-- The lines so far, without their line ends. -/
  lines : List String := []
deriving Repr, DecidableEq, Inhabited

namespace Writer

/-- A line as it stands at a depth. -/
def indented (indentUnit : String) (depth : Nat) (text : String) : String :=
  if text.isEmpty then "" else String.join (List.replicate depth indentUnit) ++ text

def line (writer : Writer) (text : String) : Writer :=
  { writer with lines := writer.lines ++ [indented writer.indentUnit writer.depth text] }

/-- Whether a text ends in a line feed. -/
def endsLine (text : String) : Bool :=
  text.toList.getLast? = some '\n'

/-- Whether the text so far ends in an empty line. A first line that is empty does not count,
and a line that ends in a line feed of its own does. -/
def endsBlank (writer : Writer) : Bool :=
  match writer.lines.reverse with
  | [] => false
  | [last] => endsLine last
  | last :: _ => last.isEmpty || endsLine last

/-- Writes an empty line where one is wanted. -/
def blank (writer : Writer) : Writer :=
  if writer.lines.isEmpty || writer.endsBlank then writer
  else { writer with lines := writer.lines ++ [""] }

def step (writer : Writer) : Step → Writer
  | .line text => writer.line text
  | .block text => (blockLines text).foldl line writer
  | .blank => writer.blank
  | .indent => { writer with depth := writer.depth + 1 }
  | .dedent => { writer with depth := writer.depth - 1 }

def run (writer : Writer) (steps : List Step) : Writer :=
  steps.foldl step writer

def text (writer : Writer) : String :=
  String.join (writer.lines.map (· ++ "\n"))

end Writer

/-- The text that steps write. -/
def layout (indentUnit : String) (steps : List Step) : String :=
  (({ indentUnit } : Writer).run steps).text

end StructuredCall
