import StructuredCall.CaseStyle

/-!
# JavaScript

JavaScript for a runtime with a file system. TypeScript shares most of what is said here, with
types added.
-/

namespace StructuredCall.Target.JavaScript

/-- The bindings. A long is a big integer, and a map is an object. -/
def bindings : BindingTable
  | .scalar .integer => .scalar "number" "parseInt(\x7b0\x7d, 10)" "0" "String(\x7b0\x7d)"
  | .scalar .float => .scalar "number" "parseFloat(\x7b0\x7d)" "0" "String(\x7b0\x7d)"
  | .scalar .double => .scalar "number" "parseFloat(\x7b0\x7d)" "0" "String(\x7b0\x7d)"
  | .scalar .long => .scalar "bigint" "BigInt(\x7b0\x7d)" "0n" "String(\x7b0\x7d)"
  | .scalar .boolean => .scalar "boolean" "(\x7b0\x7d === \"true\")" "false" "String(\x7b0\x7d)"
  | .scalar .character => .scalar "string" "\x7b0\x7d[0]" "\"\"" "\x7b0\x7d"
  | .scalar .string => .scalar "string" "\x7b0\x7d" "\"\"" "\x7b0\x7d"
  | .container .array => .composite "\x7b0\x7d[]" "\x7b0\x7d" "[]"
  | .container .map =>
    .composite "Object<string, \x7b0\x7d>" "Object.fromEntries(\x7b0\x7d)" "\x7b\x7d"
  | .container .set => .composite "Set<\x7b0\x7d>" "new Set(\x7b0\x7d)" "new Set()"

/-- The expression of a composite's elements; `pairMark` stands behind the pair of an entry. -/
def sequence (pairMark : String) (ctx : Context) (container : Container) (element : Scalar)
    (token : String) : Compiled String :=
  match container with
  | .map => do
    let value ← ctx.parse (.scalar element) "value"
    return token ++ ".split(\",\").filter((entry) => entry !== \"\")" ++
      ".map((entry) => entry.split(\":\")).map(([key, value]) => [key, " ++ value ++ "]" ++
      pairMark ++ ")"
  | .array | .set => do
    let item ← ctx.parse (.scalar element) "token"
    return token ++ ".split(\",\").filter((token) => token !== \"\").map((token) => " ++ item ++ ")"

def joined (ctx : Context) (container : Container) (element : Scalar) (value : String) :
    Compiled String := do
  let delimiter ← ctx.delimiter container
  match container with
  | .map =>
    let text ← ctx.format (.scalar element) "value"
    return "Object.entries(" ++ value ++ ").map(([key, value]) => key + \":\" + " ++ text ++
      ").join(\"" ++ delimiter ++ "\")"
  | .array | .set =>
    let text ← ctx.format (.scalar element) "item"
    return "Array.from(" ++ value ++ ", (item) => " ++ text ++ ").join(\"" ++ delimiter ++ "\")"

/-- The types of the parameters and of the result as a documentation comment. -/
def stubDoc (ctx : Context) : Compiled (List Step) := do
  let parameters ← ctx.parameters fun name type => " * @param \x7b" ++ type ++ "\x7d " ++ name
  let returns ← ctx.returnType
  return [.line "/**"] ++ parameters.map Step.line ++
    [.line (" * @returns \x7b" ++ returns ++ "\x7d"), .line " */"]

/-- Closes the entry point and calls it. -/
def closeMain : List Step :=
  [.dedent, .line "\x7d", .blank, .line "main();"]

/-- The backend. -/
def backend : Backend where
  language := .javaScript
  imports
    | .harness => [.line "const fs = require(\"fs\");"]
    | .starter | .materialized => []
  stubDoc := stubDoc
  signatureLine ctx := .ok <|
    "function " ++ entryPoint ++ "(" ++ ", ".intercalate ctx.signature.names ++ ") \x7b"
  token index := "inputData[" ++ Text.natText index ++ "]"
  sequence := sequence ""
  joined := joined
  declare _ name _ value := .ok ("const " ++ name ++ " = " ++ value ++ ";")
  print expr := "console.log(" ++ expr ++ ");"
  openMain := [.line "function main() \x7b", .indent]
  closeMain := closeMain
  readInput := [.line "const inputData = fs.readFileSync(0, \"utf8\").split(\"\\n\");"]

/-- A composite from its items. -/
def compositeLiteral (container : Container) (items : List String) : String :=
  let inner := ", ".intercalate items
  match container with
  | .array => "[" ++ inner ++ "]"
  | .map => "\x7b" ++ inner ++ "\x7d"
  | .set => "new Set([" ++ inner ++ "])"

/-- An integer; a long is a big integer. -/
def intLiteral (scalar : Scalar) (n : Int) : String :=
  if scalar = .long then Text.intText n ++ "n" else Text.intText n

/-- Runs the call with the console redirected into a buffer. The two marks are the types of the
buffer and of what is logged. -/
def measuredCall (bufferMark partsMark call : String) : List Step :=
  [.line ("const buffer" ++ bufferMark ++ " = [];"),
    .line "const originalLog = console.log;",
    .line ("console.log = (...parts" ++ partsMark ++ ") => \x7b"),
    .indent, .line "buffer.push(parts.join(\" \"));", .dedent,
    .line "\x7d;",
    .line "const started = performance.now();",
    .line call,
    .line "const elapsed = performance.now() - started;",
    .line "console.log = originalLog;",
    .line "const captured = buffer.join(\"\\n\");"]

/-- Prints the record. -/
def record (entries : List RecordEntry) : List Step :=
  [.line "const record = \x7b", .indent] ++
    entries.map (fun entry => .line (entry.key ++ ": " ++ entry.value.expr ++ ",")) ++
    [.dedent, .line "\x7d;", .line "console.log(JSON.stringify(record));"]

def style : CaseStyle where
  language := .javaScript
  charLiteral := charAsText (Text.quoted '"')
  intLiteral := intLiteral
  compositeLiteral _ container _ items := .ok (compositeLiteral container items)
  measuredCall := measuredCall "" ""
  equality left right := left ++ " === " ++ right
  record := record

def target : Target :=
  ⟨bindings, backend, style⟩

end StructuredCall.Target.JavaScript
