import StructuredCall.CaseStyle

/-!
# Go
-/

namespace StructuredCall.Target.Go

/-- The bindings. A set is a map of truth values. -/
def bindings : BindingTable
  | .scalar .integer => .scalar "int" "parseInt(\x7b0\x7d)" "0" "fmt.Sprint(\x7b0\x7d)"
  | .scalar .float => .scalar "float32" "parseFloat32(\x7b0\x7d)" "0" "fmt.Sprint(\x7b0\x7d)"
  | .scalar .double => .scalar "float64" "parseFloat64(\x7b0\x7d)" "0" "fmt.Sprint(\x7b0\x7d)"
  | .scalar .long => .scalar "int64" "parseInt64(\x7b0\x7d)" "0" "fmt.Sprint(\x7b0\x7d)"
  | .scalar .boolean => .scalar "bool" "(\x7b0\x7d == \"true\")" "false" "fmt.Sprint(\x7b0\x7d)"
  | .scalar .character => .scalar "rune" "parseRune(\x7b0\x7d)" "0" "string(\x7b0\x7d)"
  | .scalar .string => .scalar "string" "\x7b0\x7d" "\"\"" "\x7b0\x7d"
  | .container .array => .composite "[]\x7b0\x7d" "\x7b0\x7d" "nil"
  | .container .map => .composite "map[string]\x7b0\x7d" "\x7b0\x7d" "nil"
  | .container .set => .composite "map[\x7b0\x7d]bool" "toSet(\x7b0\x7d)" "nil"

/-- The packages that the harness uses. -/
def harnessPackages : List String :=
  ["bufio", "fmt", "os", "sort", "strconv", "strings"]

/-- The packages that a test-case program uses; a package must not be imported in vain. -/
def casePackages : List String :=
  ["encoding/json", "fmt", "io", "os", "sort", "strconv", "strings", "time"]

/-- Functions that split, collect, parse and print. -/
def helperLines : List String :=
  ["func split(text string) []string \x7b",
    "\tparts := []string\x7b\x7d",
    "\tfor _, part := range strings.Split(text, \",\") \x7b",
    "\t\tif part != \"\" \x7b",
    "\t\t\tparts = append(parts, part)",
    "\t\t\x7d",
    "\t\x7d",
    "\treturn parts",
    "\x7d",
    "",
    "func mapTokens[T any](text string, parse func(string) T) []T \x7b",
    "\tvalues := []T\x7b\x7d",
    "\tfor _, token := range split(text) \x7b",
    "\t\tvalues = append(values, parse(token))",
    "\t\x7d",
    "\treturn values",
    "\x7d",
    "",
    "func toSet[T comparable](values []T) map[T]bool \x7b",
    "\tset := map[T]bool\x7b\x7d",
    "\tfor _, value := range values \x7b",
    "\t\tset[value] = true",
    "\t\x7d",
    "\treturn set",
    "\x7d",
    "",
    "func toMap[T any](text string, parse func(string) T) map[string]T \x7b",
    "\tentries := map[string]T\x7b\x7d",
    "\tfor _, entry := range split(text) \x7b",
    "\t\tparts := strings.SplitN(entry, \":\", 2)",
    "\t\tif len(parts) == 2 \x7b",
    "\t\t\tentries[parts[0]] = parse(parts[1])",
    "\t\t\x7d",
    "\t\x7d",
    "\treturn entries",
    "\x7d",
    "",
    "func parseInt(token string) int \x7b",
    "\tvalue, _ := strconv.Atoi(strings.TrimSpace(token))",
    "\treturn value",
    "\x7d",
    "",
    "func parseInt64(token string) int64 \x7b",
    "\tvalue, _ := strconv.ParseInt(strings.TrimSpace(token), 10, 64)",
    "\treturn value",
    "\x7d",
    "",
    "func parseFloat32(token string) float32 \x7b",
    "\tvalue, _ := strconv.ParseFloat(strings.TrimSpace(token), 32)",
    "\treturn float32(value)",
    "\x7d",
    "",
    "func parseFloat64(token string) float64 \x7b",
    "\tvalue, _ := strconv.ParseFloat(strings.TrimSpace(token), 64)",
    "\treturn value",
    "\x7d",
    "",
    "func parseRune(token string) rune \x7b",
    "\tfor _, r := range token \x7b",
    "\t\treturn r",
    "\t\x7d",
    "\treturn 0",
    "\x7d",
    "",
    "func joinValues[T any](values []T, delimiter string, format func(T) string) string \x7b",
    "\tparts := make([]string, 0, len(values))",
    "\tfor _, value := range values \x7b",
    "\t\tparts = append(parts, format(value))",
    "\t\x7d",
    "\treturn strings.Join(parts, delimiter)",
    "\x7d",
    "",
    "func joinSet[T comparable](values map[T]bool, delimiter " ++
      "string, format func(T) string) string \x7b",
    "\tparts := make([]string, 0, len(values))",
    "\tfor value := range values \x7b",
    "\t\tparts = append(parts, format(value))",
    "\t\x7d",
    "\tsort.Strings(parts)",
    "\treturn strings.Join(parts, delimiter)",
    "\x7d",
    "",
    "func joinMap[T any](values map[string]T, delimiter string, " ++
      "format func(T) string) string \x7b",
    "\tkeys := make([]string, 0, len(values))",
    "\tfor key := range values \x7b",
    "\t\tkeys = append(keys, key)",
    "\t\x7d",
    "\tsort.Strings(keys)",
    "\tparts := make([]string, 0, len(keys))",
    "\tfor _, key := range keys \x7b",
    "\t\tparts = append(parts, key+\":\"+format(values[key]))",
    "\t\x7d",
    "\treturn strings.Join(parts, delimiter)",
    "\x7d"]

/-- The import of some packages. -/
def importBlock (packages : List String) : List Step :=
  [.line "import (", .indent] ++ packages.map (fun name => .line ("\"" ++ name ++ "\"")) ++
    [.dedent, .line ")"]

def sequence (ctx : Context) (container : Container) (element : Scalar) (token : String) :
    Compiled String := do
  let helper := match container with
    | .map => "toMap"
    | .array | .set => "mapTokens"
  let generic ← ctx.generic element
  let item ← ctx.parse (.scalar element) "token"
  return helper ++ "(" ++ token ++ ", func(token string) " ++ generic ++ " \x7b return " ++ item ++
    " \x7d)"

def joined (ctx : Context) (container : Container) (element : Scalar) (value : String) :
    Compiled String := do
  let helper := match container with
    | .map => "joinMap"
    | .set => "joinSet"
    | .array => "joinValues"
  let delimiter ← ctx.delimiter container
  let generic ← ctx.generic element
  let text ← ctx.format (.scalar element) "item"
  return helper ++ "(" ++ value ++ ", \"" ++ delimiter ++ "\", func(item " ++ generic ++
    ") string \x7b return " ++ text ++ " \x7d)"

/-- The backend. A starter imports nothing. -/
def backend : Backend where
  language := .go
  indentUnit := "\t"
  imports
    | .starter => [.line "package main"]
    | .harness | .materialized => [.line "package main", .blank] ++ importBlock harnessPackages
  helpers := helperLines.map .line
  signatureLine ctx := do
    let parameters ← ctx.parameterList fun name type => name ++ " " ++ type
    return "func " ++ entryPoint ++ "(" ++ parameters ++ ") " ++ (← ctx.returnType) ++ " \x7b"
  returnStatement value := "return " ++ value
  token index := "inputData[" ++ Text.natText index ++ "]"
  sequence := sequence
  joined := joined
  declare _ name _ value := .ok (name ++ " := " ++ value)
  print expr := "fmt.Println(" ++ expr ++ ")"
  openMain := [.line "func main() \x7b", .indent]
  readInput :=
    [.line "scanner := bufio.NewScanner(os.Stdin)",
      .line "scanner.Buffer(make([]byte, 1024*1024), 1024*1024)",
      .line "inputData := []string\x7b\x7d",
      .line "for scanner.Scan() \x7b",
      .indent, .line "inputData = append(inputData, scanner.Text())", .dedent,
      .line "\x7d"]

/-- A composite from its items; the items of a set are keys. -/
def compositeLiteral (ctx : Context) (container : Container) (element : Scalar)
    (items : List String) : Compiled String := do
  let entries := match container with
    | .set => items.map (· ++ ": true")
    | .array | .map => items
  let typeName ← ctx.native (.composite container element)
  return typeName ++ "\x7b" ++ ", ".intercalate entries ++ "\x7d"

/-- The style of test-case programs. Literals are converted where a short declaration would infer
another width, and a size is a constant because a constant may stay unused. -/
def style : CaseStyle where
  language := .go
  prelude _ :=
    [.line "package main", .blank] ++ importBlock casePackages ++ [.blank] ++ helperLines.map .line
  intLiteral scalar n :=
    if scalar = .long then "int64(" ++ Text.intText n ++ ")" else Text.intText n
  realLiteral scalar x :=
    if scalar = .float then "float32(" ++ x.literalText ++ ")" else x.literalText
  compositeLiteral := compositeLiteral
  sizeConstant _ _ name size := .ok ("const " ++ name ++ " = " ++ Text.natText size)
  measuredCall call :=
    [.line "previous := os.Stdout",
      .line "reader, writer, _ := os.Pipe()",
      .line "os.Stdout = writer",
      .line "started := time.Now()",
      .line call,
      .line "elapsed := float64(time.Since(started).Nanoseconds()) / 1e6",
      .line "writer.Close()",
      .line "os.Stdout = previous",
      .line "captured, _ := io.ReadAll(reader)"]
  console name := "string(" ++ name ++ ")"
  record entries :=
    [.line "record, _ := json.Marshal(map[string]interface\x7b\x7d\x7b", .indent] ++
      entries.map (fun entry => .line ("\"" ++ entry.key ++ "\": " ++ entry.value.expr ++ ",")) ++
      [.dedent, .line "\x7d)", .line "fmt.Println(string(record))"]

def target : Target :=
  ⟨bindings, backend, style⟩

end StructuredCall.Target.Go
