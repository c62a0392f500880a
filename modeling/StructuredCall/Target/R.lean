import StructuredCall.CaseStyle

/-!
# R

Scalar templates work on vectors, so those of a composite's elements are applied to all tokens at
once.
-/

namespace StructuredCall.Target.R

def bindings : BindingTable
  | .scalar .integer => .scalar "integer" "as.integer(\x7b0\x7d)" "0L" "as.character(\x7b0\x7d)"
  | .scalar .float => .scalar "numeric" "as.numeric(\x7b0\x7d)" "0" "as.character(\x7b0\x7d)"
  | .scalar .double => .scalar "numeric" "as.numeric(\x7b0\x7d)" "0" "as.character(\x7b0\x7d)"
  | .scalar .long =>
    .scalar "integer" "as.numeric(\x7b0\x7d)" "0" "format(\x7b0\x7d, scientific = FALSE)"
  | .scalar .boolean =>
    .scalar "logical" "(\x7b0\x7d == \"true\")" "FALSE" "tolower(as.character(\x7b0\x7d))"
  | .scalar .character => .scalar "character" "substr(\x7b0\x7d, 1, 1)" "\"\"" "\x7b0\x7d"
  | .scalar .string => .scalar "character" "\x7b0\x7d" "\"\"" "\x7b0\x7d"
  | .container .array => .composite "\x7b0\x7d vector" "\x7b0\x7d" "c()"
  | .container .map => .composite "named \x7b0\x7d list" "\x7b0\x7d" "list()"
  | .container .set => .composite "unique \x7b0\x7d vector" "unique(\x7b0\x7d)" "c()"

/-- Functions that split and collect. -/
def helperLines : List String :=
  ["splitTokens <- function(text) \x7b",
    "  parts <- strsplit(text, \",\", fixed = TRUE)[[1]]",
    "  parts[nzchar(parts)]",
    "\x7d",
    "",
    "toMap <- function(entries, parse) \x7b",
    "  keys <- sub(\":.*$\", \"\", entries)",
    "  values <- parse(sub(\"^[^:]*:\", \"\", entries))",
    "  as.list(setNames(values, keys))",
    "\x7d"]

def sequence (ctx : Context) (container : Container) (element : Scalar) (token : String) :
    Compiled String :=
  let tokens := "splitTokens(" ++ token ++ ")"
  match container with
  | .map => do
    let value ← ctx.parse (.scalar element) "value"
    return "toMap(" ++ tokens ++ ", function(value) " ++ value ++ ")"
  | .array | .set => ctx.parse (.scalar element) tokens

def joined (ctx : Context) (container : Container) (element : Scalar) (value : String) :
    Compiled String := do
  let delimiter ← ctx.delimiter container
  match container with
  | .map =>
    let text ← ctx.format (.scalar element) ("unlist(" ++ value ++ ")")
    return "paste(names(" ++ value ++ "), " ++ text ++ ", sep = \":\", collapse = \"" ++
      delimiter ++ "\")"
  | .array | .set =>
    let text ← ctx.format (.scalar element) value
    return "paste(" ++ text ++ ", collapse = \"" ++ delimiter ++ "\")"

/-- The types of the parameters and of the result as documentation. -/
def stubDoc (ctx : Context) : Compiled (List Step) := do
  let parameters ← ctx.parameters fun name type => "#' @param " ++ name ++ " " ++ type
  let returns ← ctx.returnType
  return parameters.map Step.line ++ [.line ("#' @return " ++ returns)]

/-- The backend. Lists count from one. -/
def backend : Backend where
  language := .r
  indentUnit := "  "
  imports _ := []
  helpers := helperLines.map .line
  stubDoc := stubDoc
  signatureLine ctx := .ok <|
    entryPoint ++ " <- function(" ++ ", ".intercalate ctx.signature.names ++ ") \x7b"
  comment text := "# " ++ text
  returnStatement value := "return(" ++ value ++ ")"
  token index := "input_data[" ++ Text.natText (index + 1) ++ "]"
  sequence := sequence
  joined := joined
  declare _ name _ value := .ok (name ++ " <- " ++ value)
  print expr := "cat(" ++ expr ++ ", \"\\n\", sep = \"\")"
  openMain := [.line "main <- function() \x7b", .indent]
  closeMain := [.dedent, .line "\x7d", .blank, .line "main()"]
  readInput := [.line "input_data <- readLines(file(\"stdin\"))"]

/-- A function that writes a text as a JSON string. -/
def jsonStringLines : List String :=
  ["jsonString <- function(text) \x7b",
    "  text <- gsub(\"\\\\\", \"\\\\\\\\\", text, fixed = TRUE)",
    "  text <- gsub(\"\\\"\", \"\\\\\\\"\", text, fixed = TRUE)",
    "  text <- gsub(\"\\n\", \"\\\\n\", text, fixed = TRUE)",
    "  text <- gsub(\"\\r\", \"\\\\r\", text, fixed = TRUE)",
    "  text <- gsub(\"\\t\", \"\\\\t\", text, fixed = TRUE)",
    "  paste0(\"\\\"\", text, \"\\\"\")",
    "\x7d"]

/-- A line with an argument for an entry of the record. -/
def entryLine (index : Nat) (entry : RecordEntry) : Step :=
  let value := match entry.value with
    | .text expr => "jsonString(" ++ expr ++ ")"
    | .boolean expr => "tolower(" ++ expr ++ ")"
    | .number expr => expr
  .line ("\"" ++ entrySeparator index ++ "\\\"" ++ entry.key ++ "\\\": \", " ++ value ++ ",")

/-- The style of test-case programs. The whole call is captured. -/
def style : CaseStyle where
  language := .r
  prelude backend :=
    backend.imports .materialized ++ [.blank] ++ backend.helpers ++ [.blank] ++
      jsonStringLines.map .line
  charLiteral := charAsText (Text.quoted '"')
  trueLiteral := "TRUE"
  falseLiteral := "FALSE"
  intLiteral scalar n := if scalar = .long then Text.intText n else Text.intText n ++ "L"
  mapEntry key value := key ++ " = " ++ value
  compositeLiteral _ container _ items := .ok <|
    (match container with
      | .map => "list"
      | .array | .set => "c") ++ "(" ++ ", ".intercalate items ++ ")"
  measuredCall call :=
    [.line "started <- proc.time()[[\"elapsed\"]]",
      .line ("captured <- paste(capture.output(" ++ call ++ "), collapse = \"\\n\")"),
      .line "elapsed <- (proc.time()[[\"elapsed\"]] - started) * 1000"]
  equality left right := "identical(" ++ left ++ ", " ++ right ++ ")"
  record entries :=
    [.line "record <- paste0(", .indent, .line "\"\x7b\","] ++ entries.mapIdx entryLine ++
      [.line "\"\x7d\"", .dedent, .line ")", .line "cat(record, \"\\n\", sep = \"\")"]

def target : Target :=
  ⟨bindings, backend, style⟩

end StructuredCall.Target.R
