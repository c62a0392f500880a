import StructuredCall.Signature.Reader

/-!
# The named-result dialect

In an older form of the notation the result is declared by the name of an input, as
`return -> name`, and has that input's type. Upgrading puts lines in their place that give
the type itself, spelled as at the latest declaration of the name, and keeps all other lines,
so that line numbers still fit.
-/

namespace StructuredCall.Dialect

/-- The type words of a declared name, as written. -/
structure Spelling where
  name : String
  type : String
  element : Option String
deriving Repr, DecidableEq, Inhabited

/-- The line that declares the result with a spelled type. -/
def Spelling.returnLine (spelling : Spelling) : String :=
  match spelling.element with
  | some element => spelling.type ++ " -> " ++ element ++ " " ++ Declaration.returnWord
  | none => spelling.type ++ " -> " ++ Declaration.returnWord

/-- The words of a line; an arrow is `none`. -/
def shape (tokens : List Token) : List (Option String) :=
  (tokens.filter fun token => token.kind ≠ .endOfLine).map Token.word?

/-- What a line is to the dialect. -/
inductive Role
  | returnsNamed (name : String)
  | declares (spelling : Spelling)
  | other
deriving Repr, DecidableEq

/-- The role of a line with a given shape. A composite may be followed by any words. -/
def Role.ofShape : List (Option String) → Role
  | [some type, none, some name] =>
    if type = Declaration.returnWord then .returnsNamed name
    else .declares ⟨name, type, none⟩
  | some type :: none :: some element :: some name :: _ =>
    match Kind.ofWord? type with
    | some (.container _) => .declares ⟨name, type, some element⟩
    | _ => .other
  | _ => .other

/-- The upgraded lines; `known` holds the declared names, the latest first. -/
def upgradeLines (known : List Spelling) : List Line → Compiled (List String)
  | [] => .ok []
  | line :: rest =>
    if line.isIgnored then (upgradeLines known rest).map (line.content :: ·)
    else do
      match Role.ofShape (shape (← Token.ofLine line)) with
      | .returnsNamed name =>
        match known.find? fun spelling => spelling.name = name with
        | none => throw (.undeclaredReturn name line)
        | some spelling => return spelling.returnLine :: (← upgradeLines known rest)
      | .declares spelling => return line.content :: (← upgradeLines (spelling :: known) rest)
      | .other => return line.content :: (← upgradeLines known rest)

/-- The source with every named result replaced by its type. -/
def upgrade (source : String) : Compiled String := do
  return "\n".intercalate (← upgradeLines [] (Source.lines source))

end StructuredCall.Dialect
