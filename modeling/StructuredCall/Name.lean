/-!
# Names

Which words may name an input. A name ends up as a parameter or a local variable in every
target language, so it must be an identifier in all of them and a keyword in none, and it must
leave alone the names that the generated programs use themselves.
-/

namespace StructuredCall.Name

/-- Whether a character can start an identifier. -/
def isHead (c : Char) : Bool :=
  ('a' ≤ c && c ≤ 'z') || ('A' ≤ c && c ≤ 'Z') || c = '_'

/-- Whether a character can stand inside an identifier. -/
def isTail (c : Char) : Bool :=
  isHead c || ('0' ≤ c && c ≤ '9')

/-- Identifiers: an ASCII letter or underscore, then letters, digits and underscores. -/
def isIdentifier (name : String) : Bool :=
  match name.toList with
  | [] => false
  | c :: rest => isHead c && rest.all isTail

/-- The end of the name of the constant that holds a composite's number of elements. -/
def sizeSuffix : String :=
  "Size"

/-- The name of the constant that holds a composite's number of elements. -/
def sizeName (name : String) : String :=
  name ++ sizeSuffix

/-- Keywords and common names of Python. -/
def pythonWords : List String :=
  ["False", "None", "True", "and", "as", "assert", "async", "await", "break", "class",
    "continue", "def", "del", "elif", "else", "except", "finally", "for", "from", "global", "if",
    "import", "in", "is", "lambda", "nonlocal", "not", "or", "pass", "raise", "return", "try",
    "while", "with", "yield", "int", "float", "str", "bool", "dict", "set", "print", "List",
    "Dict", "Set"]

/-- Keywords and global names of JavaScript. -/
def javaScriptWords : List String :=
  ["break", "case", "catch", "class", "const", "continue", "debugger", "default", "delete", "do",
    "else", "export", "extends", "false", "finally", "for", "function", "if", "import", "in",
    "instanceof", "new", "null", "return", "super", "switch", "this", "throw", "true", "try",
    "typeof", "var", "void", "while", "with", "yield", "let", "static", "enum", "await",
    "implements", "package", "protected", "interface", "private", "public", "arguments", "eval",
    "undefined", "NaN", "Infinity", "require", "process", "console"]

/-- Words that TypeScript adds to those of JavaScript. -/
def typeScriptWords : List String :=
  ["any", "as", "boolean", "constructor", "declare", "get", "module", "number", "of", "set",
    "string", "symbol", "type", "from", "namespace", "abstract", "readonly", "keyof", "infer",
    "never", "unknown", "is", "asserts", "bigint", "object"]

/-- Keywords and common names of Java. -/
def javaWords : List String :=
  ["abstract", "assert", "boolean", "break", "byte", "case", "catch", "char", "class", "const",
    "continue", "default", "do", "double", "else", "enum", "extends", "final", "finally",
    "float", "for", "goto", "if", "implements", "import", "instanceof", "int", "interface",
    "long", "native", "new", "package", "private", "protected", "public", "return", "short",
    "static", "strictfp", "super", "switch", "synchronized", "this", "throw", "throws",
    "transient", "try", "void", "volatile", "while", "true", "false", "null", "var", "record",
    "yield", "String", "System"]

/-- Keywords of C++ and its standard namespace. -/
def cppWords : List String :=
  ["alignas", "alignof", "and", "and_eq", "asm", "auto", "bitand", "bitor", "bool", "break",
    "case", "catch", "char", "char8_t", "char16_t", "char32_t", "class", "compl", "concept",
    "const", "consteval", "constexpr", "constinit", "const_cast", "continue", "co_await",
    "co_return", "co_yield", "decltype", "default", "delete", "do", "double", "dynamic_cast",
    "else", "enum", "explicit", "export", "extern", "false", "float", "for", "friend", "goto",
    "if", "inline", "int", "long", "mutable", "namespace", "new", "noexcept", "not", "not_eq",
    "nullptr", "operator", "or", "or_eq", "private", "protected", "public", "register",
    "reinterpret_cast", "requires", "return", "short", "signed", "sizeof", "static",
    "static_assert", "static_cast", "struct", "switch", "template", "this", "thread_local",
    "throw", "true", "try", "typedef", "typeid", "typename", "union", "unsigned", "using",
    "virtual", "void", "volatile", "wchar_t", "while", "xor", "xor_eq", "std"]

/-- Keywords and common names of C#. -/
def cSharpWords : List String :=
  ["abstract", "as", "base", "bool", "break", "byte", "case", "catch", "char", "checked",
    "class", "const", "continue", "decimal", "default", "delegate", "do", "double", "else",
    "enum", "event", "explicit", "extern", "false", "finally", "fixed", "float", "for",
    "foreach", "goto", "if", "implicit", "in", "int", "interface", "internal", "is", "lock",
    "long", "namespace", "new", "null", "object", "operator", "out", "override", "params",
    "private", "protected", "public", "readonly", "ref", "return", "sbyte", "sealed", "short",
    "sizeof", "stackalloc", "static", "string", "struct", "switch", "this", "throw", "true",
    "try", "typeof", "uint", "ulong", "unchecked", "unsafe", "ushort", "using", "virtual",
    "void", "volatile", "while", "var", "dynamic", "async", "await", "Console"]

/-- Keywords of PHP. -/
def phpWords : List String :=
  ["abstract", "and", "array", "as", "break", "callable", "case", "catch", "class", "clone",
    "const", "continue", "declare", "default", "do", "echo", "else", "elseif", "empty",
    "enddeclare", "endfor", "endforeach", "endif", "endswitch", "endwhile", "eval", "exit",
    "extends", "final", "finally", "fn", "for", "foreach", "function", "global", "goto", "if",
    "implements", "include", "include_once", "instanceof", "insteadof", "interface", "isset",
    "list", "match", "namespace", "new", "or", "print", "private", "protected", "public",
    "readonly", "require", "require_once", "return", "static", "switch", "throw", "trait", "try",
    "unset", "use", "var", "while", "xor", "yield", "this"]

/-- Keywords and constants of R. -/
def rWords : List String :=
  ["if", "else", "repeat", "while", "function", "for", "next", "break", "TRUE", "FALSE", "NULL",
    "Inf", "NaN", "NA", "NA_integer_", "NA_real_", "NA_complex_", "NA_character_", "in"]

/-- Keywords and type names of Swift. -/
def swiftWords : List String :=
  ["associatedtype", "class", "deinit", "enum", "extension", "fileprivate", "func", "import",
    "init", "inout", "internal", "let", "open", "operator", "private", "precedencegroup",
    "protocol", "public", "rethrows", "static", "struct", "subscript", "typealias", "var",
    "break", "case", "catch", "continue", "default", "defer", "do", "else", "fallthrough", "for",
    "guard", "if", "in", "repeat", "return", "throw", "switch", "where", "while", "Any", "as",
    "await", "false", "is", "nil", "self", "Self", "super", "throws", "true", "try", "async",
    "Int", "Int64", "Double", "Float", "Bool", "String", "Character"]

/-- Keywords, type names and packages of Go. -/
def goWords : List String :=
  ["break", "case", "chan", "const", "continue", "default", "defer", "else", "fallthrough",
    "for", "func", "go", "goto", "if", "import", "interface", "map", "package", "range",
    "return", "select", "struct", "switch", "type", "var", "true", "false", "nil", "iota", "int",
    "int64", "float32", "float64", "string", "bool", "rune", "byte", "len", "make", "append",
    "fmt", "strings", "strconv", "bufio", "os", "error"]

/-- Names that the generated programs declare or call. -/
def scaffoldingWords : List String :=
  ["execute", "main", "Main", "Program", "input_data", "inputData", "lines", "line", "reader",
    "scanner", "result", "record", "output", "token", "tokens", "entry", "item", "parts",
    "value", "args", "argv", "argc", "sys", "fs", "Collectors", "Arrays", "ArrayList", "HashMap",
    "HashSet", "Map", "Entry", "CultureInfo", "mapTokens", "mapEntries", "toMap", "toSet",
    "toText", "split", "parseInt", "parseInt64", "parseFloat32", "parseFloat64", "parseRune",
    "readInput", "startTime", "elapsed", "console_output", "consoleOutput", "buffer", "captured",
    "Result", "joinValues", "joinEntries", "joinSet", "joinMap", "splitTokens", "jsonString",
    "json", "io", "time", "sort", "contextlib", "perf_counter", "stopwatch", "started",
    "Stopwatch", "originalLog", "stdout", "previous", "writer"]

/-- The words that no input may be named. -/
def reservedWords : List String :=
  pythonWords ++ javaScriptWords ++ typeScriptWords ++ javaWords ++ cppWords ++ cSharpWords ++
    phpWords ++ rWords ++ swiftWords ++ goWords ++ scaffoldingWords

/-- Whether a word is reserved in some target language or by the generated programs. -/
def isReserved (name : String) : Bool :=
  reservedWords.contains name

end StructuredCall.Name
