import StructuredCall.CaseStyle

/-!
# Python
-/

namespace StructuredCall.Target.Python

/-- The bindings. Sets and maps are collected from generator expressions. -/
def bindings : BindingTable
  | .scalar .integer => .scalar "int" "int(\x7b0\x7d)" "0" "str(\x7b0\x7d)"
  | .scalar .float => .scalar "float" "float(\x7b0\x7d)" "0.0" "str(\x7b0\x7d)"
  | .scalar .double => .scalar "float" "float(\x7b0\x7d)" "0.0" "str(\x7b0\x7d)"
  | .scalar .long => .scalar "int" "int(\x7b0\x7d)" "0" "str(\x7b0\x7d)"
  | .scalar .boolean =>
    .scalar "bool" "(\x7b0\x7d == \"true\")" "False" "(\"true\" if \x7b0\x7d else \"false\")"
  | .scalar .character => .scalar "str" "\x7b0\x7d[0]" "\"\"" "\x7b0\x7d"
  | .scalar .string => .scalar "str" "\x7b0\x7d" "\"\"" "\x7b0\x7d"
  | .container .array => .composite "List[\x7b0\x7d]" "[\x7b0\x7d]" "[]"
  | .container .map => .composite "Dict[str, \x7b0\x7d]" "dict(\x7b0\x7d)" "\x7b\x7d"
  | .container .set => .composite "Set[\x7b0\x7d]" "\x7b\x7b0\x7d\x7d" "set()"

def sequence (ctx : Context) (container : Container) (element : Scalar) (token : String) :
    Compiled String :=
  match container with
  | .map => do
    let value ← ctx.parse (.scalar element) "value"
    return "(key, " ++ value ++ ") for key, value in (entry.split(\":\", 1) for entry in " ++
      token ++ ".split(\",\") if entry)"
  | .array | .set => do
    let item ← ctx.parse (.scalar element) "token"
    return item ++ " for token in " ++ token ++ ".split(\",\") if token"

def joined (ctx : Context) (container : Container) (element : Scalar) (value : String) :
    Compiled String := do
  let delimiter ← ctx.delimiter container
  match container with
  | .map =>
    let text ← ctx.format (.scalar element) "value"
    return "\"" ++ delimiter ++ "\".join(key + \":\" + " ++ text ++ " for key, value in " ++
      value ++ ".items())"
  | .array | .set =>
    let text ← ctx.format (.scalar element) "item"
    return "\"" ++ delimiter ++ "\".join(" ++ text ++ " for item in " ++ value ++ ")"

/-- The backend. Blocks end with their indentation. -/
def backend : Backend where
  language := .python
  imports
    | .harness => [.line "import sys", .line "from typing import Dict, List, Set"]
    | .starter | .materialized => [.line "from typing import Dict, List, Set"]
  signatureLine ctx := do
    let parameters ← ctx.parameterList fun name type => name ++ ": " ++ type
    return "def " ++ entryPoint ++ "(" ++ parameters ++ ") -> " ++ (← ctx.returnType) ++ ":"
  blockEnd := none
  comment text := "# " ++ text
  returnStatement value := "return " ++ value
  token index := "input_data[" ++ Text.natText index ++ "]"
  sequence := sequence
  joined := joined
  declare _ name _ value := .ok (name ++ " = " ++ value)
  print expr := "print(" ++ expr ++ ")"
  openMain := [.line "if __name__ == \"__main__\":", .indent]
  readInput := [.line "input_data = sys.stdin.read().split(\"\\n\")"]

/-- A composite from its items; an empty set has no literal. -/
def compositeLiteral (container : Container) (items : List String) : String :=
  let inner := ", ".intercalate items
  match container with
  | .array => "[" ++ inner ++ "]"
  | .map => "\x7b" ++ inner ++ "\x7d"
  | .set => if inner.isEmpty then "set()" else "\x7b" ++ inner ++ "\x7d"

/-- The style of test-case programs. The output is captured in a buffer. -/
def style : CaseStyle where
  language := .python
  prelude backend :=
    [.line "import contextlib", .line "import io", .line "import json",
      .line "from time import perf_counter"] ++ backend.imports .materialized
  charLiteral := charAsText (Text.quoted '"')
  trueLiteral := "True"
  falseLiteral := "False"
  compositeLiteral _ container _ items := .ok (compositeLiteral container items)
  measuredCall call :=
    [.line "buffer = io.StringIO()",
      .line "started = perf_counter()",
      .line "with contextlib.redirect_stdout(buffer):",
      .indent, .line call, .dedent,
      .line "elapsed = (perf_counter() - started) * 1000",
      .line "captured = buffer.getvalue()"]
  record entries :=
    [.line "record = \x7b", .indent] ++
      entries.map (fun entry => .line ("\"" ++ entry.key ++ "\": " ++ entry.value.expr ++ ",")) ++
      [.dedent, .line "\x7d", .line "print(json.dumps(record))"]

def target : Target :=
  ⟨bindings, backend, style⟩

end StructuredCall.Target.Python
