import StructuredCall.Target.JavaScript

/-!
# TypeScript
-/

namespace StructuredCall.Target.TypeScript

/-- The bindings: those of JavaScript with another name for maps. -/
def bindings : BindingTable
  | .container .map =>
    .composite "Record<string, \x7b0\x7d>" "Object.fromEntries(\x7b0\x7d)" "\x7b\x7d"
  | kind => JavaScript.bindings kind

/-- The backend. Entries are typed as pairs. -/
def backend : Backend where
  language := .typeScript
  imports
    | .harness => [.line "import * as fs from \"fs\";"]
    | .starter | .materialized => []
  signatureLine ctx := do
    let parameters ← ctx.parameterList fun name type => name ++ ": " ++ type
    return "function " ++ entryPoint ++ "(" ++ parameters ++ "): " ++ (← ctx.returnType) ++ " \x7b"
  token index := "inputData[" ++ Text.natText index ++ "]"
  sequence := JavaScript.sequence " as const"
  joined := JavaScript.joined
  declare ctx name type value := do
    return "const " ++ name ++ ": " ++ (← ctx.native type) ++ " = " ++ value ++ ";"
  print expr := "console.log(" ++ expr ++ ");"
  openMain := [.line "function main(): void \x7b", .indent]
  closeMain := JavaScript.closeMain
  readInput :=
    [.line "const inputData: string[] = fs.readFileSync(0, \"utf8\").split(\"\\n\");"]

def style : CaseStyle where
  language := .typeScript
  charLiteral := charAsText (Text.quoted '"')
  intLiteral := JavaScript.intLiteral
  compositeLiteral _ container _ items := .ok (JavaScript.compositeLiteral container items)
  measuredCall := JavaScript.measuredCall ": string[]" ": unknown[]"
  equality left right := left ++ " === " ++ right
  record := JavaScript.record

def target : Target :=
  ⟨bindings, backend, style⟩

end StructuredCall.Target.TypeScript
