import StructuredCall.DataType
import StructuredCall.Text.Blank

/-!
# Target languages

The programming languages that code is generated for, each with the identifier that the
sandbox knows it by and the name of its source file.
-/

namespace StructuredCall

/-- Languages that code can be generated for. -/
inductive Language
  | python
  | javaScript
  | java
  | cpp
  | cSharp
  | php
  | r
  | typeScript
  | swift
  | go
deriving Repr, DecidableEq, Inhabited

namespace Language

/-- Every language; listings follow this order. -/
def all : List Language :=
  [python, javaScript, java, cpp, cSharp, php, r, typeScript, swift, go]

def id : Language → String
  | python => "python"
  | javaScript => "javascript"
  | java => "java"
  | cpp => "cpp"
  | cSharp => "csharp"
  | php => "php"
  | r => "r"
  | typeScript => "typescript"
  | swift => "swift"
  | go => "go"

/-- The customary name of a source file. -/
def fileName : Language → String
  | python => "main.py"
  | javaScript => "main.js"
  | java => "Main.java"
  | cpp => "main.cpp"
  | cSharp => "Program.cs"
  | php => "main.php"
  | r => "main.R"
  | typeScript => "main.ts"
  | swift => "main.swift"
  | go => "main.go"

/-- The language with an identifier. White space around it and the case of the letters A to Z
do not matter. -/
def ofId? (word : String) : Option Language :=
  let folded := Kind.foldCaseText (Text.trim word)
  all.find? fun language => language.id = folded

end Language

end StructuredCall
