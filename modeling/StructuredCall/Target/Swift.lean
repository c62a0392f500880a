import StructuredCall.CaseStyle

/-!
# Swift
-/

namespace StructuredCall.Target.Swift

def bindings : BindingTable
  | .scalar .integer => .scalar "Int" "Int(\x7b0\x7d)!" "0" "String(describing: \x7b0\x7d)"
  | .scalar .float => .scalar "Float" "Float(\x7b0\x7d)!" "0" "String(describing: \x7b0\x7d)"
  | .scalar .double => .scalar "Double" "Double(\x7b0\x7d)!" "0" "String(describing: \x7b0\x7d)"
  | .scalar .long => .scalar "Int64" "Int64(\x7b0\x7d)!" "0" "String(describing: \x7b0\x7d)"
  | .scalar .boolean =>
    .scalar "Bool" "(\x7b0\x7d == \"true\")" "false" "String(describing: \x7b0\x7d)"
  | .scalar .character => .scalar "Character" "\x7b0\x7d.first!" "\" \"" "String(\x7b0\x7d)"
  | .scalar .string => .scalar "String" "String(\x7b0\x7d)" "\"\"" "\x7b0\x7d"
  | .container .array => .composite "[\x7b0\x7d]" "\x7b0\x7d" "[]"
  | .container .map =>
    .composite "[String: \x7b0\x7d]"
      "Dictionary(\x7b0\x7d, uniquingKeysWith: \x7b _, last in last \x7d)" "[:]"
  | .container .set => .composite "Set<\x7b0\x7d>" "Set(\x7b0\x7d)" "[]"

def sequence (ctx : Context) (container : Container) (element : Scalar) (token : String) :
    Compiled String :=
  match container with
  | .map => do
    let value ← ctx.parse (.scalar element)
      "String(entry.drop(while: \x7b $0 != \":\" \x7d).dropFirst())"
    return token ++ ".split(separator: \",\").map \x7b entry in (String(entry.prefix(while: " ++
      "\x7b $0 != \":\" \x7d)), " ++ value ++ ") \x7d"
  | .array | .set => do
    let item ← ctx.parse (.scalar element) "String(token)"
    return token ++ ".split(separator: \",\").map \x7b token in " ++ item ++ " \x7d"

def joined (ctx : Context) (container : Container) (element : Scalar) (value : String) :
    Compiled String := do
  let delimiter ← ctx.delimiter container
  match container with
  | .map =>
    let text ← ctx.format (.scalar element) "entry.value"
    return value ++ ".map \x7b entry in entry.key + \":\" + " ++ text ++
      " \x7d.joined(separator: \"" ++ delimiter ++ "\")"
  | .array | .set =>
    let text ← ctx.format (.scalar element) "item"
    return value ++ ".map \x7b item in " ++ text ++ " \x7d.joined(separator: \"" ++ delimiter ++
      "\")"

/-- The backend. Parameters have no labels. -/
def backend : Backend where
  language := .swift
  imports _ := [.line "import Foundation"]
  signatureLine ctx := do
    let parameters ← ctx.parameterList fun name type => "_ " ++ name ++ ": " ++ type
    return "func " ++ entryPoint ++ "(" ++ parameters ++ ") -> " ++ (← ctx.returnType) ++ " \x7b"
  returnStatement value := "return " ++ value
  token index := "inputData[" ++ Text.natText index ++ "]"
  sequence := sequence
  joined := joined
  declare ctx name type value := do
    return "let " ++ name ++ ": " ++ (← ctx.native type) ++ " = " ++ value
  print expr := "print(" ++ expr ++ ")"
  openMain := [.line "func main() \x7b", .indent]
  closeMain := [.dedent, .line "\x7d", .blank, .line "main()"]
  readInput :=
    [.line "var inputData: [String] = []",
      .line "while let line = readLine() \x7b",
      .indent, .line "inputData.append(line)", .dedent,
      .line "\x7d"]

/-- A composite from its items; an empty map needs a colon. -/
def compositeLiteral (container : Container) (items : List String) : String :=
  if container = .map ∧ items.isEmpty then "[:]" else "[" ++ ", ".intercalate items ++ "]"

/-- The style of test-case programs. The output cannot be captured inside the process, so the
console stays empty. -/
def style : CaseStyle where
  language := .swift
  charLiteral := charAsText (Text.quoted '"')
  compositeLiteral _ container _ items := .ok (compositeLiteral container items)
  measuredCall call :=
    [.line "let started = Date()",
      .line call,
      .line "let elapsed = Date().timeIntervalSince(started) * 1000",
      .line "let captured = \"\""]
  record entries :=
    [.line "let record: [String: Any] = [", .indent] ++
      entries.map (fun entry => .line ("\"" ++ entry.key ++ "\": " ++ entry.value.expr ++ ",")) ++
      [.dedent, .line "]",
        .line "if let data = try? JSONSerialization.data(withJSONObject: record),",
        .line "    let text = String(data: data, encoding: .utf8) \x7b",
        .indent, .line "print(text)", .dedent,
        .line "\x7d"]

def target : Target :=
  ⟨bindings, backend, style⟩

end StructuredCall.Target.Swift
