import StructuredCall.CaseStyle

/-!
# C++
-/

namespace StructuredCall.Target.Cpp

def bindings : BindingTable
  | .scalar .integer => .scalar "int" "std::stoi(\x7b0\x7d)" "0" "toText(\x7b0\x7d)"
  | .scalar .float => .scalar "float" "std::stof(\x7b0\x7d)" "0.0f" "toText(\x7b0\x7d)"
  | .scalar .double => .scalar "double" "std::stod(\x7b0\x7d)" "0.0" "toText(\x7b0\x7d)"
  | .scalar .long => .scalar "long long" "std::stoll(\x7b0\x7d)" "0LL" "toText(\x7b0\x7d)"
  | .scalar .boolean => .scalar "bool" "(\x7b0\x7d == \"true\")" "false" "toText(\x7b0\x7d)"
  | .scalar .character => .scalar "char" "\x7b0\x7d[0]" "' '" "toText(\x7b0\x7d)"
  | .scalar .string => .scalar "std::string" "\x7b0\x7d" "\"\"" "\x7b0\x7d"
  | .container .array => .composite "std::vector<\x7b0\x7d>" "\x7b0\x7d" "\x7b\x7d"
  | .container .map =>
    .composite "std::unordered_map<std::string, \x7b0\x7d>" "toMap(\x7b0\x7d)" "\x7b\x7d"
  | .container .set => .composite "std::unordered_set<\x7b0\x7d>" "toSet(\x7b0\x7d)" "\x7b\x7d"

/-- Functions that split, collect and print. -/
def helperLines : List String :=
  ["std::vector<std::string> split(const std::string& text, char delimiter) \x7b",
    "    std::vector<std::string> parts;",
    "    std::stringstream stream(text);",
    "    std::string part;",
    "    while (std::getline(stream, part, delimiter)) \x7b",
    "        if (!part.empty()) \x7b",
    "            parts.push_back(part);",
    "        \x7d",
    "    \x7d",
    "    return parts;",
    "\x7d",
    "",
    "template <typename F>",
    "auto mapTokens(const std::string& text, F parse) \x7b",
    "    std::vector<decltype(parse(std::string()))> values;",
    "    for (const std::string& token : split(text, ',')) \x7b",
    "        values.push_back(parse(token));",
    "    \x7d",
    "    return values;",
    "\x7d",
    "",
    "template <typename F>",
    "auto mapEntries(const std::string& text, F parse) \x7b",
    "    std::vector<std::pair<std::string, decltype(parse(std::string()))>> entries;",
    "    for (const std::string& entry : split(text, ',')) \x7b",
    "        std::size_t colon = entry.find(':');",
    "        entries.emplace_back(entry.substr(0, colon), parse(entry.substr(colon + 1)));",
    "    \x7d",
    "    return entries;",
    "\x7d",
    "",
    "template <typename T>",
    "std::unordered_set<T> toSet(const std::vector<T>& values) \x7b",
    "    return std::unordered_set<T>(values.begin(), values.end());",
    "\x7d",
    "",
    "template <typename T>",
    "std::unordered_map<std::string, T> toMap(const " ++
      "std::vector<std::pair<std::string, T>>& entries) \x7b",
    "    return std::unordered_map<std::string, T>(entries.begin(), entries.end());",
    "\x7d",
    "",
    "std::string toText(const std::string& value) \x7b",
    "    return value;",
    "\x7d",
    "",
    "std::string toText(char value) \x7b",
    "    return std::string(1, value);",
    "\x7d",
    "",
    "std::string toText(bool value) \x7b",
    "    return value ? \"true\" : \"false\";",
    "\x7d",
    "",
    "template <typename T>",
    "std::string toText(const T& value) \x7b",
    "    std::ostringstream out;",
    "    out << value;",
    "    return out.str();",
    "\x7d",
    "",
    "template <typename C>",
    "std::string joinValues(const C& values, const std::string& delimiter) \x7b",
    "    std::string text;",
    "    bool first = true;",
    "    for (const auto& value : values) \x7b",
    "        if (!first) \x7b",
    "            text += delimiter;",
    "        \x7d",
    "        text += toText(value);",
    "        first = false;",
    "    \x7d",
    "    return text;",
    "\x7d",
    "",
    "template <typename M>",
    "std::string joinEntries(const M& entries, const std::string& delimiter) \x7b",
    "    std::string text;",
    "    bool first = true;",
    "    for (const auto& [key, value] : entries) \x7b",
    "        if (!first) \x7b",
    "            text += delimiter;",
    "        \x7d",
    "        text += key + \":\" + toText(value);",
    "        first = false;",
    "    \x7d",
    "    return text;",
    "\x7d"]

/-- The headers of a program. -/
def headers : List String :=
  ["<iostream>", "<sstream>", "<string>", "<unordered_map>", "<unordered_set>", "<utility>",
    "<vector>"]

def sequence (ctx : Context) (container : Container) (element : Scalar) (token : String) :
    Compiled String := do
  let helper := match container with
    | .map => "mapEntries"
    | .array | .set => "mapTokens"
  let item ← ctx.parse (.scalar element) "token"
  return helper ++ "(" ++ token ++ ", [](const std::string& token) \x7b return " ++ item ++
    "; \x7d)"

def joined (ctx : Context) (container : Container) (value : String) : Compiled String := do
  let helper := match container with
    | .map => "joinEntries"
    | .array | .set => "joinValues"
  return helper ++ "(" ++ value ++ ", \"" ++ (← ctx.delimiter container) ++ "\")"

def backend : Backend where
  language := .cpp
  imports _ := headers.map fun header => .line ("#include " ++ header)
  helpers := helperLines.map .line
  signatureLine ctx := do
    let parameters ← ctx.parameterList fun name type => type ++ " " ++ name
    return (← ctx.returnType) ++ " " ++ entryPoint ++ "(" ++ parameters ++ ") \x7b"
  token index := "inputData[" ++ Text.natText index ++ "]"
  sequence := sequence
  joined ctx container _ value := joined ctx container value
  declare ctx name type value := do
    return (← ctx.native type) ++ " " ++ name ++ " = " ++ value ++ ";"
  print expr := "std::cout << " ++ expr ++ " << std::endl;"
  openMain := [.line "int main() \x7b", .indent]
  closeMain := [.line "return 0;", .dedent, .line "\x7d"]
  readInput :=
    [.line "std::vector<std::string> inputData;",
      .line "std::string line;",
      .line "while (std::getline(std::cin, line)) \x7b",
      .indent, .line "inputData.push_back(line);", .dedent,
      .line "\x7d"]

/-- A function that writes a text as a JSON string. -/
def jsonStringLines : List String :=
  ["std::string jsonString(const std::string& text) \x7b",
    "    std::string quoted = \"\\\"\";",
    "    for (char c : text) \x7b",
    "        switch (c) \x7b",
    "            case '\"': quoted += \"\\\\\\\"\"; break;",
    "            case '\\\\': quoted += \"\\\\\\\\\"; break;",
    "            case '\\n': quoted += \"\\\\n\"; break;",
    "            case '\\r': quoted += \"\\\\r\"; break;",
    "            case '\\t': quoted += \"\\\\t\"; break;",
    "            default: quoted += c;",
    "        \x7d",
    "    \x7d",
    "    return quoted + \"\\\"\";",
    "\x7d"]

/-- A line that appends an entry to the text of the record. -/
def entryLine (index : Nat) (entry : RecordEntry) : Step :=
  let value := match entry.value with
    | .text expr => "jsonString(" ++ expr ++ ")"
    | .boolean expr => "((" ++ expr ++ ") ? \"true\" : \"false\")"
    | .number expr => "std::to_string(" ++ expr ++ ")"
  .line ("+ \"" ++ entrySeparator index ++ "\\\"" ++ entry.key ++ "\\\": \" + " ++ value)

/-- The style of test-case programs. The output stream writes into a buffer meanwhile. -/
def style : CaseStyle where
  language := .cpp
  prelude backend :=
    [.line "#include <chrono>"] ++ backend.imports .materialized ++ [.blank] ++
      backend.helpers ++ [.blank] ++ jsonStringLines.map .line
  intLiteral scalar n := if scalar = .long then Text.intText n ++ "LL" else Text.intText n
  realLiteral scalar x := if scalar = .float then x.literalText ++ "f" else x.literalText
  mapEntry key value := "\x7b" ++ key ++ ", " ++ value ++ "\x7d"
  compositeLiteral _ _ _ items := .ok ("\x7b" ++ ", ".intercalate items ++ "\x7d")
  measuredCall call :=
    [.line "std::ostringstream buffer;",
      .line "std::streambuf* previous = std::cout.rdbuf(buffer.rdbuf());",
      .line "auto started = std::chrono::steady_clock::now();",
      .line call,
      .line ("double elapsed = std::chrono::duration<double, std::milli>" ++
        "(std::chrono::steady_clock::now() - started).count();"),
      .line "std::cout.rdbuf(previous);",
      .line "std::string captured = buffer.str();"]
  record entries :=
    [.line "std::string record = std::string(\"\x7b\")", .indent] ++ entries.mapIdx entryLine ++
      [.line "+ \"\x7d\";", .dedent, .line "std::cout << record << std::endl;"]

def target : Target :=
  ⟨bindings, backend, style⟩

end StructuredCall.Target.Cpp
