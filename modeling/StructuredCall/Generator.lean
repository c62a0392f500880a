import StructuredCall.Target.Cpp
import StructuredCall.Target.CSharp
import StructuredCall.Target.Go
import StructuredCall.Target.Java
import StructuredCall.Target.JavaScript
import StructuredCall.Target.Php
import StructuredCall.Target.Python
import StructuredCall.Target.R
import StructuredCall.Target.Swift
import StructuredCall.Target.TypeScript

/-!
# Generators

The target languages together, the standard registry, and the generation of starters and
harnesses. Every language succeeds or fails on its own.
-/

namespace StructuredCall

def Language.target : Language → Target
  | python => Target.Python.target
  | javaScript => Target.JavaScript.target
  | java => Target.Java.target
  | cpp => Target.Cpp.target
  | cSharp => Target.CSharp.target
  | php => Target.Php.target
  | r => Target.R.target
  | typeScript => Target.TypeScript.target
  | swift => Target.Swift.target
  | go => Target.Go.target

/-- The bindings of every language. -/
def Registry.standardRows : List BindingRow :=
  Language.all.flatMap fun language => language.target.bindings.rows language

/-- The registry of every language with the standard bindings. -/
def Registry.standard (lenient : Bool) : Compiled Registry :=
  Registry.ofRows standardRows Language.all lenient

/-- The languages for which a program has a backend. -/
abbrev Backends := List Language

namespace Backends

/-- The backend of a language, if it is among those that there are. -/
def find (backends : Backends) (language : Language) : Compiled Backend :=
  if language ∈ backends then .ok language.target.backend
  else .error (.unsupportedLanguage language.id)

/-- The languages in the order of listings, each of them once. -/
def listing (backends : Backends) : List Language :=
  Language.all.filter (· ∈ backends)

end Backends

/-- A registry and the languages that code is generated for. -/
structure Generator where
  registry : Registry
  backends : Backends

namespace Generator

def standard (lenient : Bool) : Compiled Generator := do
  return ⟨← Registry.standard lenient, Language.all⟩

/-- The code for a signature in one language. -/
def generate (generator : Generator) (signature : Signature) (stubOnly : Bool)
    (language : Language) : Compiled String := do
  (← generator.backends.find language).generate generator.registry signature stubOnly

/-- The code for a signature in some languages. -/
def generateEach (generator : Generator) (signature : Signature) (stubOnly : Bool)
    (languages : List Language) : List (Language × Compiled String) :=
  languages.map fun language => (language, generator.generate signature stubOnly language)

end Generator

end StructuredCall
