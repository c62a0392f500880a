import StructuredCall.Error
import StructuredCall.Text.Width

/-!
# Diagnostics

How an error is shown to whoever wrote the source: its class, its place in the file, and the rows
around the part that is meant. A part within one row has carets below it. A part that goes over
several rows has a rail at their left, from its first character to a caret below its last one.

A place is a number of bytes of the file, and may lie behind the end of a row or of the file.
Carets stand below characters, so they count the columns of a terminal.
-/

namespace StructuredCall.Diagnostic

/-! ## Rows -/

/-- A row of a file, with all its characters but the line feed. -/
structure Row where
  /-- Rows count from one. -/
  number : Nat
  /-- The first byte. -/
  start : Nat
  content : List Char
deriving Repr, DecidableEq, Inhabited

/-- Numbers the rows of a file; `start` is the first byte of the first of them. -/
def numbered (number start : Nat) : List (List Char) → List Row
  | [] => []
  | content :: rest =>
    ⟨number, start, content⟩ :: numbered (number + 1) (start + Text.utf8Length content + 1) rest

def rows (source : String) : List Row :=
  numbered 1 0 (Text.pieces '\n' source.toList)

/-- The rows of a file from that with the first byte of a part to that with the byte behind it. A
byte behind the end of the file counts to the last row. -/
def rowsOf (source : String) (span : Span) : List Row :=
  let first := (((rows source).filter (·.start ≤ span.start)).getLast?).getD default
  (rows source).filter fun row => first.start ≤ row.start && row.start ≤ span.stop

/-! ## Cells -/

/-- A character of a row in its place. -/
structure Cell where
  char : Char
  /-- Its first byte, counted from the start of the row. -/
  offset : Nat
  /-- The columns it takes. -/
  width : Nat
deriving Repr, DecidableEq, Inhabited

/-- The columns between two tab stops. -/
def tabStop : Nat :=
  4

/-- The cells of characters, the first of which starts at a byte and at a column. -/
def cellsFrom (offset column : Nat) : List Char → List Cell
  | [] => []
  | c :: rest =>
    let width := if c = '\t' then tabStop - column % tabStop else Text.columns c
    ⟨c, offset, width⟩ :: cellsFrom (offset + c.utf8Size) (column + width) rest

namespace Cell

/-- A character repeated over the columns of a cell. -/
def fill (cell : Cell) (c : Char) : List Char :=
  List.replicate cell.width c

/-- A cell as it is shown; a tab is shown as blanks. -/
def text (cell : Cell) : List Char :=
  if cell.char = '\t' then cell.fill ' ' else [cell.char]

/-- The marks below a cell: carets if it is meant, blanks if it stands before the end of what is
meant. -/
def mark (span : Span) (cell : Cell) : List Char :=
  if cell.offset < span.stop then
    if span.start < cell.offset + cell.char.utf8Size then cell.fill '^' else cell.fill ' '
  else []

end Cell

namespace Row

/-- The characters of a row that are shown, which carriage returns and NULs at its end are not. -/
def visible (row : Row) : List Char :=
  Text.dropEndWhile (fun c => c = '\r' || c = '\x00') row.content

def cells (row : Row) : List Cell :=
  cellsFrom 0 0 row.visible

/-- A row as it is shown. -/
def text (row : Row) : String :=
  String.ofList (row.cells.flatMap Cell.text)

/-- The number of characters that end at or before a byte; the first starts at `offset`. -/
def charsUpTo (limit offset : Nat) : List Char → Nat
  | [] => 0
  | c :: rest =>
    if offset + c.utf8Size ≤ limit then charsUpTo limit (offset + c.utf8Size) rest + 1 else 0

/-- The column of a byte, in characters counted from one. -/
def column (row : Row) (offset : Nat) : Nat :=
  charsUpTo offset 0 row.content + 1

/-- The marks below a row for a part of it. Every part has at least one byte, and the place behind
the last character can be meant too. -/
def marks (row : Row) (start stop : Nat) : String :=
  let behind : Cell := ⟨'\x00', Text.utf8Length row.visible, 1⟩
  String.ofList ((row.cells ++ [behind]).flatMap (Cell.mark ⟨start, max stop (start + 1)⟩))

/-- Whether nothing but white space stands before a byte. -/
def isMargin (row : Row) (offset : Nat) : Bool :=
  offset ≤ Text.utf8Length (row.visible.takeWhile Text.isBlank)

/-- A rule below the cells that start before a byte. -/
def rule (row : Row) (stop : Nat) : String :=
  String.ofList ((row.cells.filter (·.offset < stop)).flatMap (·.fill '─'))

end Row

/-! ## Excerpts -/

/-- The part of a file that is meant. -/
structure Excerpt where
  path : String
  /-- The rows that the part goes over. -/
  rows : List Row
  span : Span
deriving Repr, DecidableEq, Inhabited

namespace Excerpt

/-- The excerpt of a source for a part of it. -/
def ofSource (path source : String) (span : Span) : Excerpt :=
  ⟨path, rowsOf source span, span⟩

/-- The width of the row numbers. -/
def margin (excerpt : Excerpt) : Nat :=
  ((excerpt.rows.getLast?).map fun row => (Text.natDigits row.number).length).getD 0

/-- A line without a row number. -/
def unnumbered (excerpt : Excerpt) (text : String) : String :=
  String.ofList (List.replicate excerpt.margin ' ') ++ " " ++ text

/-- A row with its number, behind a piece of the rail. -/
def row (excerpt : Excerpt) (rail : String) (row : Row) : String :=
  let digits := Text.natDigits row.number
  String.ofList (List.replicate (excerpt.margin - digits.length) ' ' ++ digits) ++
    " │" ++ rail ++ " " ++ row.text

/-- The line that says where the part starts, and a line below it; `rail` is left free there. -/
def header (excerpt : Excerpt) (rail : String) (first : Row) : List String :=
  let column := first.column (excerpt.span.start - first.start)
  [excerpt.unnumbered ("┌─ " ++ excerpt.path ++ ":" ++ Text.natText first.number ++ ":" ++
      Text.natText column),
    excerpt.unnumbered ("│" ++ rail)]

/-- The one row of a part, with carets and a remark below it. -/
def only (excerpt : Excerpt) (row : Row) (remark : String) : List String :=
  let span := excerpt.span
  [excerpt.row "" row,
    excerpt.unnumbered
      ("│ " ++ row.marks (span.start - row.start) (span.stop - row.start) ++ " " ++ remark)]

/-- The first row of several. The rail starts in front of the row if only white space stands
before the part, and below its first character otherwise. -/
def top (excerpt : Excerpt) (row : Row) : List String :=
  let start := excerpt.span.start - row.start
  if row.isMargin start then [excerpt.row " ╭" row]
  else [excerpt.row "  " row, excerpt.unnumbered ("│ ╭" ++ row.rule (start + 1) ++ "^")]

/-- The last row of several, with the end of the rail and a remark below it. -/
def bottom (excerpt : Excerpt) (row : Row) (remark : String) : List String :=
  [excerpt.row " │" row,
    excerpt.unnumbered ("│ ╰" ++ row.rule (excerpt.span.stop - row.start) ++ "^ " ++ remark)]

/-- The rows between the first and the last. Of more than five only the first three and the last
are shown. -/
def middle (excerpt : Excerpt) (between : List Row) : List String :=
  if between.length ≤ 5 then between.map (excerpt.row " │")
  else
    (between.take 3).map (excerpt.row " │") ++ [excerpt.unnumbered "· │"] ++
      (between.drop (between.length - 1)).map (excerpt.row " │")

/-- The lines that show an excerpt with a remark at its end. -/
def lines (excerpt : Excerpt) (remark : String) : List String :=
  match excerpt.rows with
  | [] => []
  | first :: more =>
    match more.getLast? with
    | none => excerpt.header "" first ++ excerpt.only first remark
    | some last =>
      excerpt.header "  " first ++ excerpt.top first ++ excerpt.middle more.dropLast ++
        excerpt.bottom last remark

end Excerpt

/-! ## Errors -/

/-- The lines that show an error in a file. -/
def lines (path source : String) (error : CompileError) : List String :=
  match error.line? with
  | none => ["error: " ++ error.title ++ ": " ++ error.message, ""]
  | some line =>
    ["error: " ++ error.title] ++
      (Excerpt.ofSource path source line.span).lines error.message ++ [""]

/-- The text that shows an error in a file. -/
def text (path source : String) (error : CompileError) : String :=
  String.join ((lines path source error).map (· ++ "\n"))

end StructuredCall.Diagnostic
