import StructuredCall.CommandLine.Judge

/-!
# The program

The commands in the real world. The first argument names the command.
-/

namespace StructuredCall.CommandLine

/-- An error of the system as one of paths. -/
def systemError : IO.Error → FileError
  | .noFileOrDirectory _ _ _ => .notFound
  | .alreadyExists _ _ _ => .alreadyThere
  | .inappropriateType _ code details =>
    if code = 20 then .notDirectory else if code = 21 then .isDirectory else .refused details
  | e => .refused (toString e)

/-- The result of an action that the system may refuse. -/
def attempt (action : IO α) : IO (Except FileError α) := do
  return (← action.toBaseIO).mapError systemError

/-- The host that is the system. -/
def systemHost : Host IO where
  readText path := attempt (IO.FS.readFile path)
  writeText path content := attempt (IO.FS.writeFile path content)
  createDirectories path := attempt (IO.FS.createDirAll path)
  print text := IO.print text
  printError text := IO.eprint text

/-- Runs the command that the first argument names. -/
def runSystem : List String → IO Nat
  | "sclc" :: arguments => Generate.run systemHost arguments
  | "scl-judge" :: arguments => Judge.run systemHost (fun _ _ => Judge.noTransport) arguments
  | _ => do
    IO.eprintln "usage: (sclc | scl-judge) ARGUMENTS"
    return 2

end StructuredCall.CommandLine

/-- The entry point; the exit code is that of the command. -/
def main (arguments : List String) : IO UInt32 := do
  return (← StructuredCall.CommandLine.runSystem arguments).toUInt32
