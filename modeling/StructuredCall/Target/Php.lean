import StructuredCall.CaseStyle

/-!
# PHP
-/

namespace StructuredCall.Target.Php

/-- The bindings. Every composite is an array. -/
def bindings : BindingTable
  | .scalar .integer => .scalar "int" "intval(\x7b0\x7d)" "0" "strval(\x7b0\x7d)"
  | .scalar .float => .scalar "float" "floatval(\x7b0\x7d)" "0.0" "strval(\x7b0\x7d)"
  | .scalar .double => .scalar "float" "floatval(\x7b0\x7d)" "0.0" "strval(\x7b0\x7d)"
  | .scalar .long => .scalar "int" "intval(\x7b0\x7d)" "0" "strval(\x7b0\x7d)"
  | .scalar .boolean =>
    .scalar "bool" "(\x7b0\x7d === \"true\")" "false" "(\x7b0\x7d ? \"true\" : \"false\")"
  | .scalar .character => .scalar "string" "substr(\x7b0\x7d, 0, 1)" "\"\"" "\x7b0\x7d"
  | .scalar .string => .scalar "string" "\x7b0\x7d" "\"\"" "\x7b0\x7d"
  | .container .array => .composite "array" "\x7b0\x7d" "[]"
  | .container .map => .composite "array" "array_column(\x7b0\x7d, 1, 0)" "[]"
  | .container .set => .composite "array" "array_values(array_unique(\x7b0\x7d))" "[]"

/-- The nonempty pieces of a token that is joined by commas. -/
def pieces (token : String) : String :=
  "preg_split('/,/', " ++ token ++ ", -1, PREG_SPLIT_NO_EMPTY)"

/-- A variable is spelled with a dollar sign. -/
def reference (name : String) : String :=
  "$" ++ name

def sequence (ctx : Context) (container : Container) (element : Scalar) (token : String) :
    Compiled String :=
  match container with
  | .map => do
    let value ← ctx.parse (.scalar element) "$parts[1]"
    return "array_map(fn($parts) => [$parts[0], " ++ value ++
      "], array_map(fn($entry) => explode(\":\", $entry, 2), " ++ pieces token ++ "))"
  | .array | .set => do
    let item ← ctx.parse (.scalar element) "$token"
    return "array_map(fn($token) => " ++ item ++ ", " ++ pieces token ++ ")"

def joined (ctx : Context) (container : Container) (element : Scalar) (value : String) :
    Compiled String := do
  let delimiter ← ctx.delimiter container
  match container with
  | .map =>
    let text ← ctx.format (.scalar element) "$value"
    return "implode(\"" ++ delimiter ++ "\", array_map(fn($key, $value) => $key . \":\" . " ++
      text ++ ", array_keys(" ++ value ++ "), " ++ value ++ "))"
  | .array | .set =>
    let text ← ctx.format (.scalar element) "$item"
    return "implode(\"" ++ delimiter ++ "\", array_map(fn($item) => " ++ text ++ ", " ++ value ++
      "))"

def backend : Backend where
  language := .php
  imports _ := [.line "<?php"]
  signatureLine ctx := do
    let parameters ← ctx.parameterList fun name type => type ++ " " ++ reference name
    return "function " ++ entryPoint ++ "(" ++ parameters ++ "): " ++ (← ctx.returnType) ++ " \x7b"
  reference := reference
  token index := "$inputData[" ++ Text.natText index ++ "]"
  sequence := sequence
  joined := joined
  declare _ name _ value := .ok (reference name ++ " = " ++ value ++ ";")
  print expr := "echo " ++ expr ++ " . PHP_EOL;"
  openMain := [.line "function main(): void \x7b", .indent]
  closeMain := [.dedent, .line "\x7d", .blank, .line "main();"]
  readInput := [.line "$inputData = file(\"php://stdin\", FILE_IGNORE_NEW_LINES);"]

/-- A text between double quotes, where a dollar sign would start a variable. -/
def stringLiteral (text : String) : String :=
  Text.escapeDollars (Text.quoted '"' text)

def style : CaseStyle where
  language := .php
  stringLiteral := stringLiteral
  charLiteral := charAsText stringLiteral
  mapEntry key value := key ++ " => " ++ value
  compositeLiteral _ _ _ items := .ok ("[" ++ ", ".intercalate items ++ "]")
  measuredCall call :=
    [.line "ob_start();",
      .line "$started = hrtime(true);",
      .line call,
      .line "$elapsed = (hrtime(true) - $started) / 1e6;",
      .line "$captured = ob_get_clean();"]
  equality left right := left ++ " === " ++ right
  record entries :=
    [.line "$record = [", .indent] ++
      entries.map (fun entry => .line ("\"" ++ entry.key ++ "\" => " ++ entry.value.expr ++ ",")) ++
      [.dedent, .line "];", .line "echo json_encode($record) . PHP_EOL;"]

def target : Target :=
  ⟨bindings, backend, style⟩

end StructuredCall.Target.Php
