import StructuredCall.CaseStyle

/-!
# C#
-/

namespace StructuredCall.Target.CSharp

def bindings : BindingTable
  | .scalar .integer => .scalar "int" "int.Parse(\x7b0\x7d)" "0" "\x7b0\x7d.ToString()"
  | .scalar .float =>
    .scalar "float" "float.Parse(\x7b0\x7d, CultureInfo.InvariantCulture)" "0f"
      "\x7b0\x7d.ToString(CultureInfo.InvariantCulture)"
  | .scalar .double =>
    .scalar "double" "double.Parse(\x7b0\x7d, CultureInfo.InvariantCulture)" "0.0"
      "\x7b0\x7d.ToString(CultureInfo.InvariantCulture)"
  | .scalar .long => .scalar "long" "long.Parse(\x7b0\x7d)" "0L" "\x7b0\x7d.ToString()"
  | .scalar .boolean =>
    .scalar "bool" "bool.Parse(\x7b0\x7d)" "false" "(\x7b0\x7d ? \"true\" : \"false\")"
  | .scalar .character => .scalar "char" "\x7b0\x7d[0]" "' '" "\x7b0\x7d.ToString()"
  | .scalar .string => .scalar "string" "\x7b0\x7d" "\"\"" "\x7b0\x7d"
  | .container .array => .composite "List<\x7b0\x7d>" "\x7b0\x7d.ToList()" "new List<\x7b0\x7d>()"
  | .container .map =>
    .composite "Dictionary<string, \x7b0\x7d>"
      "\x7b0\x7d.ToDictionary(entry => entry.Key, entry => entry.Value)"
      "new Dictionary<string, \x7b0\x7d>()"
  | .container .set =>
    .composite "HashSet<\x7b0\x7d>" "\x7b0\x7d.ToHashSet()" "new HashSet<\x7b0\x7d>()"

/-- The nonempty pieces of a token that is joined by commas. -/
def pieces (token : String) : String :=
  token ++ ".Split(',', StringSplitOptions.RemoveEmptyEntries)"

def sequence (ctx : Context) (container : Container) (element : Scalar) (token : String) :
    Compiled String :=
  match container with
  | .map => do
    let value ← ctx.parse (.scalar element) "parts[1]"
    return pieces token ++ ".Select(entry => entry.Split(':', 2))" ++
      ".Select(parts => KeyValuePair.Create(parts[0], " ++ value ++ "))"
  | .array | .set => do
    let item ← ctx.parse (.scalar element) "token"
    return pieces token ++ ".Select(token => " ++ item ++ ")"

def joined (ctx : Context) (container : Container) (element : Scalar) (value : String) :
    Compiled String := do
  let delimiter ← ctx.delimiter container
  match container with
  | .map =>
    let text ← ctx.format (.scalar element) "entry.Value"
    return "string.Join(\"" ++ delimiter ++ "\", " ++ value ++
      ".Select(entry => entry.Key + \":\" + " ++ text ++ "))"
  | .array | .set =>
    let text ← ctx.format (.scalar element) "item"
    return "string.Join(\"" ++ delimiter ++ "\", " ++ value ++ ".Select(item => " ++ text ++ "))"

/-- The backend. The program is a class. -/
def backend : Backend where
  language := .cSharp
  imports _ :=
    [.line "using System;", .line "using System.Collections.Generic;",
      .line "using System.Globalization;", .line "using System.Linq;"]
  openUnit := [.line "public class Program \x7b", .indent]
  closeUnit := [.dedent, .line "\x7d"]
  signatureLine ctx := do
    let parameters ← ctx.parameterList fun name type => type ++ " " ++ name
    return "public static " ++ (← ctx.returnType) ++ " " ++ entryPoint ++ "(" ++ parameters ++
      ") \x7b"
  token index := "inputData[" ++ Text.natText index ++ "]"
  sequence := sequence
  joined := joined
  declare ctx name type value := do
    return (← ctx.native type) ++ " " ++ name ++ " = " ++ value ++ ";"
  print expr := "Console.WriteLine(" ++ expr ++ ");"
  openMain := [.line "public static void Main(string[] args) \x7b", .indent]
  readInput :=
    [.line "List<string> inputData = new List<string>();",
      .line "string line;",
      .line "while ((line = Console.ReadLine()) != null) \x7b",
      .indent, .line "inputData.Add(line);", .dedent,
      .line "\x7d"]

/-- A composite from its items. -/
def compositeLiteral (ctx : Context) (container : Container) (element : Scalar)
    (items : List String) : Compiled String := do
  let typeName ← ctx.native (.composite container element)
  if items.isEmpty then return "new " ++ typeName ++ "()"
  else return "new " ++ typeName ++ " \x7b " ++ ", ".intercalate items ++ " \x7d"

/-- The style of test-case programs. The console writes into a buffer meanwhile. -/
def style : CaseStyle where
  language := .cSharp
  prelude backend :=
    backend.imports .materialized ++
      [.line "using System.Diagnostics;", .line "using System.IO;", .line "using System.Text.Json;"]
  intLiteral scalar n := if scalar = .long then Text.intText n ++ "L" else Text.intText n
  realLiteral scalar x := if scalar = .float then x.literalText ++ "f" else x.literalText
  mapEntry key value := "[" ++ key ++ "] = " ++ value
  compositeLiteral := compositeLiteral
  measuredCall call :=
    [.line "TextWriter stdout = Console.Out;",
      .line "StringWriter buffer = new StringWriter();",
      .line "Console.SetOut(buffer);",
      .line "Stopwatch stopwatch = Stopwatch.StartNew();",
      .line call,
      .line "stopwatch.Stop();",
      .line "double elapsed = stopwatch.Elapsed.TotalMilliseconds;",
      .line "Console.SetOut(stdout);",
      .line "string captured = buffer.ToString();"]
  record entries :=
    [.line "Dictionary<string, object> record = new Dictionary<string, object> \x7b", .indent] ++
      entries.map (fun entry =>
        .line ("[\"" ++ entry.key ++ "\"] = " ++ entry.value.expr ++ ",")) ++
      [.dedent, .line "\x7d;", .line "Console.WriteLine(JsonSerializer.Serialize(record));"]

def target : Target :=
  ⟨bindings, backend, style⟩

end StructuredCall.Target.CSharp
