import StructuredCall.Signature.Dialect

/-!
# Compilations

Reading a source with the options of the command line. What the options ask for besides, listings
and a line in the log, is kept beside the result.
-/

namespace StructuredCall

/-- How to read a source. -/
structure ReadOptions where
  /-- Upgrade named results first. -/
  legacy : Bool := false
  /-- List the tokens. -/
  showTokens : Bool := false
  /-- Show the signature. -/
  showSignature : Bool := false
  /-- Tell the log when reading begins. -/
  verbose : Bool := false
deriving Repr, DecidableEq, Inhabited

/-- The listings written on the way, and the signature or the error that ended the reading. -/
structure Compilation where
  listing : String
  /-- Whether the log was told that reading begins. -/
  announced : Bool
  result : Compiled Signature

namespace Compilation

/-- The source in the current form of the notation. -/
def currentSource (options : ReadOptions) (source : String) : Compiled String :=
  if options.legacy then Dialect.upgrade source else .ok source

/-- The listing of the signature of a current source. -/
def signatureListing (options : ReadOptions) (signature : Signature) : String :=
  if options.showSignature then
    "=== IR ===\n" ++ signature.render ++ "\n=== End IR ===\n\n"
  else ""

/-- Reads a current source after `listing` has been written. -/
def readAfter (options : ReadOptions) (source listing : String) : Compilation :=
  match Signature.ofSource source with
  | .error e => ⟨listing, options.verbose, .error e⟩
  | .ok signature =>
    ⟨listing ++ signatureListing options signature, options.verbose, .ok signature⟩

/-- Reads a source in the current form. -/
def ofCurrent (options : ReadOptions) (source : String) : Compilation :=
  if options.showTokens then
    let header := "=== SCL Tokens ===\n"
    match Token.list source with
    | .error e => ⟨header, false, .error e⟩
    | .ok listing => readAfter options source (header ++ listing ++ "=== End Tokens ===\n\n")
  else readAfter options source ""

/-- Reads a source. -/
def run (options : ReadOptions) (source : String) : Compilation :=
  match currentSource options source with
  | .error e => ⟨"", false, .error e⟩
  | .ok current => ofCurrent options current

end Compilation

/-- The signature of a source, upgraded first if it is in the older form. -/
def Signature.compile (legacy : Bool) (source : String) : Compiled Signature :=
  (Compilation.run { legacy } source).result

end StructuredCall
