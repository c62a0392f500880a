import StructuredCall.CommandLine.Host
import StructuredCall.Diagnostic
import StructuredCall.Generator
import StructuredCall.Signature.Compilation

/-!
# The command sclc

Generates starters and harnesses from a source, for one or several languages.
-/

namespace StructuredCall.CommandLine

variable {m : Type → Type} [Monad m]

/-! ## Reading sources -/

/-- Reads the signature of a source. The listings and the error are shown at once; the log is
off. -/
def readSignature (host : Host m) (options : ReadOptions) (path source : String) :
    Command m Signature := do
  let compilation := Compilation.run options source
  host.printError compilation.listing
  match compilation.result with
  | .ok signature => return signature
  | .error e =>
    host.printError (Diagnostic.text path source e)
    Command.fail e.message

def readFile (host : Host m) (path : String) : Command m String :=
  Command.doing ("reading " ++ path) (host.readText path)

def writeFile (host : Host m) (path content : String) : Command m Unit :=
  Command.doing ("writing " ++ path) (host.writeText path content)

/-- Writes a file in a directory, which is created if it is not there. -/
def writeInDirectory (host : Host m) (directory name content : String) : Command m Unit := do
  Command.ofExcept FileError.message (← host.createDirectories directory)
  writeFile host (FileTree.below directory name) content

namespace Generate

/-! ## Arguments -/

def spec : CommandSpec where
  name := "sclc"
  version := "0.1.0"
  maxOperands := 1
  options :=
    [{ long := "lang", short := some 'l', takesValue := true, repeatable := true },
      { long := "output", short := some 'o', takesValue := true, accepts := (· ≠ "") },
      { long := "stub-only" },
      { long := "legacy" },
      { long := "lenient" },
      { long := "list-languages" },
      { long := "verbose", short := some 'v' },
      { long := "dump-tokens" },
      { long := "dump-ir" }]

/-- What is generated, from what and to where. -/
structure Arguments where
  /-- The file of the source; it may be missing if only the languages are listed. -/
  input : Option String
  /-- The identifiers of the languages; none means all. -/
  languages : List String
  /-- The file, or with several languages the directory, to write to. -/
  output : Option String
  stubOnly : Bool
  lenient : Bool
  listLanguages : Bool
  reading : ReadOptions
deriving Repr, DecidableEq, Inhabited

/-- The arguments, if none is missing. -/
def Arguments.ofGiven? (given : Given) : Option Arguments :=
  let listLanguages := given.has "list-languages"
  let input := given.operands.head?
  if input.isNone && !listLanguages then none
  else
    some {
      input, listLanguages
      languages := given.values "lang"
      output := given.value? "output"
      stubOnly := given.has "stub-only"
      lenient := given.has "lenient"
      reading :=
        { legacy := given.has "legacy"
          showTokens := given.has "dump-tokens"
          showSignature := given.has "dump-ir"
          verbose := given.has "verbose" } }

/-! ## The command -/

/-- Writes the code for one language. -/
def emit (host : Host m) (output : Option String) (several : Bool) (language : Language)
    (code : String) : Command m Unit :=
  match output with
  | some path =>
    if several then
      writeInDirectory host (FileTree.below path language.id) language.fileName code
    else writeFile host path code
  | none =>
    if several then host.print ("=== " ++ language.id ++ " ===\n" ++ code ++ "\n")
    else host.print code

/-- Writes the code for each language; the answer is how many languages failed. -/
def emitAll (host : Host m) (output : Option String) (several : Bool) :
    List (Language × Compiled String) → Command m Nat
  | [] => return 0
  | (language, .ok code) :: rest => do
    emit host output several language code
    emitAll host output several rest
  | (language, .error e) :: rest => do
    host.printError ("error: " ++ language.id ++ ": " ++ e.message ++ "\n")
    return (← emitAll host output several rest) + 1

/-- The languages to generate code for. -/
def chosenLanguages (generator : Generator) (ids : List String) : Compiled (List Language) :=
  if ids.isEmpty then .ok generator.backends.listing else ids.mapM Language.find

/-- Generates code from a file. -/
def generateFrom (host : Host m) (generator : Generator) (arguments : Arguments) (path : String) :
    Command m Unit := do
  let source ← readFile host path
  let languages ← Command.ofExcept CompileError.message
    (chosenLanguages generator arguments.languages)
  let signature ← readSignature host arguments.reading path source
  let codes := generator.generateEach signature arguments.stubOnly languages
  let failed ← emitAll host arguments.output (1 < languages.length) codes
  if failed ≠ 0 then
    Command.fail ("generation failed for " ++ Text.natText failed ++ " of " ++
      Text.natText languages.length ++ " language(s)")

def command (host : Host m) (arguments : Arguments) : Command m Unit := do
  let generator ← Command.ofExcept CompileError.message (Generator.standard arguments.lenient)
  if arguments.listLanguages then
    host.print (String.join (generator.backends.listing.map (·.id ++ "\n")))
  else
    match arguments.input with
    | some path => generateFrom host generator arguments path
    | none => Command.fail "no input file given"

/-- Runs the command; the answer is the exit code. -/
def run (host : Host m) (arguments : List String) : m Nat :=
  spec.run host Arguments.ofGiven? (command host) arguments

end Generate

end StructuredCall.CommandLine
