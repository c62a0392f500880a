import StructuredCall.Text.Pieces

/-!
# File trees

The files and directories that a command reads and writes. The place of an entry is the list of
the names on the way from the root. A path is a text of names with slashes between them, and
everything on its way has to be a directory. A path that starts with a slash leads on from the
root, any other from the working directory, whose place is `here`.
-/

namespace StructuredCall

/-- What can be wrong with a path. -/
inductive FileError
  | notFound
  | alreadyThere
  | notDirectory
  | isDirectory
  /-- Any other refusal of the system, in its own words. -/
  | refused (reason : String)
deriving Repr, DecidableEq, Inhabited

def FileError.message : FileError → String
  | notFound => "No such file or directory (os error 2)"
  | alreadyThere => "File exists (os error 17)"
  | notDirectory => "Not a directory (os error 20)"
  | isDirectory => "Is a directory (os error 21)"
  | refused reason => reason

/-- What is at a place. -/
inductive FileTree.Entry
  | file (content : String)
  | directory
deriving Repr, DecidableEq, Inhabited

/-- Entries by their places. The root is a directory that is always there. -/
structure FileTree where
  entries : List (List String × FileTree.Entry) := []
deriving Repr, DecidableEq, Inhabited

namespace FileTree

def find? (tree : FileTree) (place : List String) : Option Entry :=
  if place = [] then some .directory else tree.entries.lookup place

def set (tree : FileTree) (place : List String) (entry : Entry) : FileTree :=
  { entries := tree.entries.filter (·.1 ≠ place) ++ [(place, entry)] }

/-! ## Paths -/

def names (path : String) : List String :=
  ((Text.pieces '/' path.toList).filter (· ≠ [])).map String.ofList

def endsInSlash (path : String) : Bool :=
  path.toList.getLast? = some '/'

/-- The place that a name leads to from another place. -/
def enter (here : List String) (name : String) : List String :=
  if name = "." then here
  else if name = ".." then here.dropLast
  else here ++ [name]

/-- The place that names lead to; all but the last have to lead to directories. -/
def resolve (tree : FileTree) (here : List String) : List String → Except FileError (List String)
  | [] => .ok here
  | [name] => .ok (enter here name)
  | name :: rest =>
    match tree.find? (enter here name) with
    | none => .error .notFound
    | some (.file _) => .error .notDirectory
    | some .directory => tree.resolve (enter here name) rest

/-- The place from which a path leads on. -/
def origin (here : List String) (path : String) : List String :=
  if path.toList.head? = some '/' then [] else here

/-- The place that a path leads to. -/
def locate (tree : FileTree) (here : List String) (path : String) :
    Except FileError (List String) :=
  tree.resolve (origin here path) (names path)

/-! ## Files -/

/-- The content of the file at a path. -/
def read (tree : FileTree) (here : List String) (path : String) : Except FileError String := do
  match tree.find? (← tree.locate here path) with
  | none => throw .notFound
  | some .directory => throw .isDirectory
  | some (.file content) => if endsInSlash path then throw .notDirectory else return content

/-- The tree with a content written to the file at a path. -/
def write (tree : FileTree) (here : List String) (path content : String) :
    Except FileError FileTree := do
  let place ← tree.locate here path
  match tree.find? place with
  | some .directory => throw .isDirectory
  | some (.file _) =>
    if endsInSlash path then throw .notDirectory else return tree.set place (.file content)
  | none =>
    if endsInSlash path then throw .isDirectory else return tree.set place (.file content)

/-! ## Directories -/

/-- The tree with a directory at every place on the way of names. -/
def addDirectories (tree : FileTree) (here : List String) : List String → Except FileError FileTree
  | [] => .ok tree
  | name :: rest =>
    let next := enter here name
    match tree.find? next with
    | some .directory => tree.addDirectories next rest
    | some (.file _) => .error (if rest.isEmpty then .alreadyThere else .notDirectory)
    | none => (tree.set next .directory).addDirectories next rest

/-- The tree with the directory at a path and all directories on its way. -/
def createDirectories (tree : FileTree) (here : List String) (path : String) :
    Except FileError FileTree :=
  tree.addDirectories (origin here path) (names path)

/-- A path below a directory. -/
def below (directory name : String) : String :=
  if endsInSlash directory then directory ++ name else directory ++ "/" ++ name

/-! ## Comparing trees -/

/-- The tree with some files below the working directory, and with the directories on the way to
them. -/
def ofFiles (here : List String) (files : List (String × String)) : FileTree :=
  let withDirectories (tree : FileTree) (place : List String) : FileTree :=
    (tree.addDirectories [] place).toOption.getD tree
  files.foldl
    (fun tree file =>
      let place := here ++ names file.1
      (withDirectories tree place.dropLast).set place (.file file.2))
    (withDirectories {} here)

/-- The files below the working directory that are new or have another content than before. Their
paths lead on from there. -/
def changes (here : List String) (before after : FileTree) : List (String × String) :=
  after.entries.filterMap fun (place, entry) =>
    match entry with
    | .file content =>
      if place.take here.length ≠ here || before.find? place = some (.file content) then none
      else some ("/".intercalate (place.drop here.length), content)
    | .directory => none

end FileTree

end StructuredCall
