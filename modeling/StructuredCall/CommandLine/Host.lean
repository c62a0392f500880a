import StructuredCall.CommandLine.Arguments
import StructuredCall.FileTree

/-!
# Hosts

What a command can do to the outside: read and write files, and print. A command runs in any
host; a `Session` is a host whose outside is a value.
-/

namespace StructuredCall.CommandLine

/-- The operations of a host. -/
structure Host (m : Type → Type) where
  readText : String → m (Except FileError String)
  writeText : String → String → m (Except FileError Unit)
  createDirectories : String → m (Except FileError Unit)
  print : String → m Unit
  printError : String → m Unit

/-! ## Commands -/

/-- Steps of a command; one that fails ends the command with a message. -/
abbrev Command (m : Type → Type) := ExceptT String m

namespace Command

variable {m : Type → Type} [Monad m]

/-- Ends the command with a message. -/
def fail (message : String) : Command m α :=
  throw message

/-- The value of a result; what is wrong becomes the message. -/
def ofExcept (message : ε → String) : Except ε α → Command m α
  | .ok value => pure value
  | .error e => fail (message e)

/-- Does something in the host, with what it is about in front of the message. -/
def doing (activity : String) (action : m (Except FileError α)) : Command m α := do
  ofExcept (fun e => activity ++ ": " ++ e.message) (← action)

/-- Runs a command; the answer is the exit code. -/
def exitCode (host : Host m) (command : Command m Unit) : m Nat := do
  match ← command.run with
  | .ok () => return 0
  | .error message =>
    host.printError ("error: " ++ message ++ "\n")
    return 1

end Command

/-- Runs a command with the arguments that it is given; the answer is the exit code. -/
def CommandSpec.run {m : Type → Type} [Monad m] (spec : CommandSpec) (host : Host m)
    (typed : Given → Option α) (command : α → Command m Unit) (arguments : List String) :
    m Nat := do
  match spec.read arguments with
  | .error .showVersion =>
    host.print (spec.name ++ " " ++ spec.version ++ "\n")
    return 0
  | .error .invalid => refuse
  | .ok given =>
    match typed given with
    | some arguments => (command arguments).exitCode host
    | none => refuse
where
  /-- Says that the arguments are not right. -/
  refuse : m Nat := do
    host.printError ("error: invalid arguments for " ++ spec.name ++ "\n")
    return 2

/-! ## Sessions -/

/-- The outside of a command as a value. -/
structure Session where
  tree : FileTree
  /-- The place of the working directory. -/
  here : List String
  stdout : String := ""
  stderr : String := ""
deriving Repr, Inhabited

namespace Session

/-- Changes the tree, unless that fails. -/
def change (f : FileTree → List String → Except FileError FileTree) :
    StateM Session (Except FileError Unit) :=
  fun session =>
    match f session.tree session.here with
    | .ok tree => (.ok (), { session with tree })
    | .error e => (.error e, session)

/-- The host whose outside is a session. -/
def host : Host (StateM Session) where
  readText path := fun session => (session.tree.read session.here path, session)
  writeText path content := change fun tree here => tree.write here path content
  createDirectories path := change fun tree here => tree.createDirectories here path
  print text := modify fun session => { session with stdout := session.stdout ++ text }
  printError text := modify fun session => { session with stderr := session.stderr ++ text }

end Session

end StructuredCall.CommandLine
