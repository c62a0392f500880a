/-!
# Cancellation

Whoever holds the handle of a dispatch can raise a flag, also more than once, or let go of the
handle. A task that watches the flag reads it, waits until it is written again, and then reads
it once more. When the handle is gone and the flag is not raised, the task waits forever.
-/

namespace StructuredCall

/-- The flag that withdraws a dispatch. -/
structure CancelFlag where
  raised : Bool := false
  /-- How often the flag was written. -/
  version : Nat := 0
  /-- Whether the handle is gone. -/
  closed : Bool := false
deriving Repr, DecidableEq, Inhabited

namespace CancelFlag

/-- How far a task is with watching the flag. -/
inductive Watch
  | unread
  /-- Read in a version, and waiting for the next one. -/
  | read (version : Nat)
  /-- Waiting for nothing: the handle is gone. -/
  | forever
deriving Repr, DecidableEq, Inhabited

/-- The flag is raised. That takes the handle. -/
def cancel (flag : CancelFlag) : CancelFlag :=
  if flag.closed then flag else { flag with raised := true, version := flag.version + 1 }

/-- The handle is let go of. -/
def close (flag : CancelFlag) : CancelFlag :=
  { flag with closed := true }

/-- Reads the flag, and goes on waiting if it is not raised. The answer is whether it is. -/
def read (flag : CancelFlag) : Bool × Watch :=
  if flag.raised then (true, .read flag.version)
  else if flag.closed then (false, .forever)
  else (false, .read flag.version)

/-- Watches the flag from where the task is; whether it was written is asked before whether the
handle is gone. -/
def look (flag : CancelFlag) : Watch → Bool × Watch
  | .unread => flag.read
  | .read version =>
    if version ≠ flag.version then flag.read
    else if flag.closed then (false, .forever)
    else (false, .read version)
  | .forever => (false, .forever)

end CancelFlag

end StructuredCall
