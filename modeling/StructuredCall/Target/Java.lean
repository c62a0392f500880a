import StructuredCall.CaseStyle

/-!
# Java
-/

namespace StructuredCall.Target.Java

/-- The bindings. Scalars are boxed as elements, and composites are collected from streams. -/
def bindings : BindingTable
  | .scalar .integer =>
    .boxedScalar "int" "Integer" "Integer.parseInt(\x7b0\x7d)" "0" "String.valueOf(\x7b0\x7d)"
  | .scalar .float =>
    .boxedScalar "float" "Float" "Float.parseFloat(\x7b0\x7d)" "0.0f" "String.valueOf(\x7b0\x7d)"
  | .scalar .double =>
    .boxedScalar "double" "Double" "Double.parseDouble(\x7b0\x7d)" "0.0"
      "String.valueOf(\x7b0\x7d)"
  | .scalar .long =>
    .boxedScalar "long" "Long" "Long.parseLong(\x7b0\x7d)" "0L" "String.valueOf(\x7b0\x7d)"
  | .scalar .boolean =>
    .boxedScalar "boolean" "Boolean" "Boolean.parseBoolean(\x7b0\x7d)" "false"
      "String.valueOf(\x7b0\x7d)"
  | .scalar .character =>
    .boxedScalar "char" "Character" "\x7b0\x7d.charAt(0)" "' '" "String.valueOf(\x7b0\x7d)"
  | .scalar .string => .scalar "String" "\x7b0\x7d" "\"\"" "\x7b0\x7d"
  | .container .array =>
    .composite "ArrayList<\x7b0\x7d>" "\x7b0\x7d.collect(Collectors.toCollection(ArrayList::new))"
      "new ArrayList<>()"
  | .container .map =>
    .composite "HashMap<String, \x7b0\x7d>"
      "new HashMap<>(\x7b0\x7d.collect(Collectors.toMap(Map.Entry::getKey, Map.Entry::getValue)))"
      "new HashMap<>()"
  | .container .set =>
    .composite "HashSet<\x7b0\x7d>" "\x7b0\x7d.collect(Collectors.toCollection(HashSet::new))"
      "new HashSet<>()"

def sequence (ctx : Context) (container : Container) (element : Scalar) (token : String) :
    Compiled String :=
  match container with
  | .map => do
    let value ← ctx.parse (.scalar element) "parts[1]"
    return "Arrays.stream(" ++ token ++ ".split(\",\")).filter(entry -> !entry.isEmpty())" ++
      ".map(entry -> entry.split(\":\", 2)).map(parts -> Map.entry(parts[0], " ++ value ++ "))"
  | .array | .set => do
    let item ← ctx.parse (.scalar element) "token"
    return "Arrays.stream(" ++ token ++ ".split(\",\")).filter(token -> !token.isEmpty())" ++
      ".map(token -> " ++ item ++ ")"

def joined (ctx : Context) (container : Container) (element : Scalar) (value : String) :
    Compiled String := do
  let delimiter ← ctx.delimiter container
  match container with
  | .map =>
    let text ← ctx.format (.scalar element) "entry.getValue()"
    return value ++ ".entrySet().stream().map(entry -> entry.getKey() + \":\" + " ++ text ++
      ").collect(Collectors.joining(\"" ++ delimiter ++ "\"))"
  | .array | .set =>
    let text ← ctx.format (.scalar element) "item"
    return value ++ ".stream().map(item -> " ++ text ++ ").collect(Collectors.joining(\"" ++
      delimiter ++ "\"))"

/-- The backend. The program is a class. -/
def backend : Backend where
  language := .java
  imports _ :=
    [.line "import java.io.*;", .line "import java.util.*;", .line "import java.util.stream.*;"]
  openUnit := [.line "public class Main \x7b", .indent]
  closeUnit := [.dedent, .line "\x7d"]
  signatureLine ctx := do
    let parameters ← ctx.parameterList fun name type => type ++ " " ++ name
    return "public static " ++ (← ctx.returnType) ++ " " ++ entryPoint ++ "(" ++ parameters ++
      ") \x7b"
  token index := "inputData.get(" ++ Text.natText index ++ ")"
  sequence := sequence
  joined := joined
  declare ctx name type value := do
    return (← ctx.native type) ++ " " ++ name ++ " = " ++ value ++ ";"
  print expr := "System.out.println(" ++ expr ++ ");"
  openMain :=
    [.line "public static void main(String[] args) throws IOException \x7b", .indent]
  readInput :=
    [.line "BufferedReader reader = new BufferedReader(new InputStreamReader(System.in));",
      .line "List<String> inputData = reader.lines().collect(Collectors.toList());"]

/-- A function that writes a text as a JSON string. -/
def jsonStringLines : List String :=
  ["static String jsonString(String text) \x7b",
    "    return \"\\\"\" + text.replace(\"\\\\\", \"\\\\\\\\\")",
    "        .replace(\"\\\"\", \"\\\\\\\"\")",
    "        .replace(\"\\n\", \"\\\\n\")",
    "        .replace(\"\\r\", \"\\\\r\")",
    "        .replace(\"\\t\", \"\\\\t\") + \"\\\"\";",
    "\x7d"]

/-- A composite from its items; an empty one is built without a source. -/
def compositeLiteral (container : Container) (items : List String) : String :=
  let collection := match container with
    | .array => "ArrayList"
    | .map => "HashMap"
    | .set => "HashSet"
  if items.isEmpty then "new " ++ collection ++ "<>()"
  else
    let source := match container with
      | .map => "Map.ofEntries"
      | .array | .set => "List.of"
    "new " ++ collection ++ "<>(" ++ source ++ "(" ++ ", ".intercalate items ++ "))"

/-- A line that appends an entry to the text of the record. -/
def entryLine (index : Nat) (entry : RecordEntry) : Step :=
  let value := match entry.value with
    | .text expr => "jsonString(" ++ expr ++ ")"
    | .boolean expr => "(" ++ expr ++ ")"
    | .number expr => expr
  .line ("+ \"" ++ entrySeparator index ++ "\\\"" ++ entry.key ++ "\\\": \" + " ++ value)

/-- The style of test-case programs. The record is put together as text. -/
def style : CaseStyle where
  language := .java
  support := jsonStringLines.map .line
  intLiteral scalar n := if scalar = .long then Text.intText n ++ "L" else Text.intText n
  realLiteral scalar x := if scalar = .float then x.literalText ++ "f" else x.literalText
  mapEntry key value := "Map.entry(" ++ key ++ ", " ++ value ++ ")"
  compositeLiteral _ container _ items := .ok (compositeLiteral container items)
  measuredCall call :=
    [.line "PrintStream stdout = System.out;",
      .line "ByteArrayOutputStream buffer = new ByteArrayOutputStream();",
      .line "System.setOut(new PrintStream(buffer, true));",
      .line "long started = System.nanoTime();",
      .line call,
      .line "double elapsed = (System.nanoTime() - started) / 1e6;",
      .line "System.setOut(stdout);",
      .line "String captured = buffer.toString();"]
  equality left right := left ++ ".equals(" ++ right ++ ")"
  record entries :=
    [.line "String record = \"\x7b\"", .indent] ++ entries.mapIdx entryLine ++
      [.line "+ \"\x7d\";", .dedent, .line "System.out.println(record);"]

def target : Target :=
  ⟨bindings, backend, style⟩

end StructuredCall.Target.Java
