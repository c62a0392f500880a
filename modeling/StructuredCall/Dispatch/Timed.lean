import StructuredCall.Dispatch.Basic

/-!
# Timed dispatch

A dispatch to a sandbox that is known in advance: each request is answered after a delay, or
never. Time passes only while no task can go on. Tasks go on in the order in which they were
woken; a permit that is given back wakes the first task that waits for one, and answers that
come at the same time wake their tasks in the order of the submissions.
-/

namespace StructuredCall

/-- How a sandbox treats the request of one task. -/
structure Dispatch.Script where
  /-- The time from the submission to the answer. -/
  delay : Nat
  /-- The answer; without one the request stays with the sandbox. An answer that the task failed
  makes it crash. -/
  answer : Option SandboxAnswer

/-- The reply that an answer in a script stands for. -/
def Dispatch.Reply.ofAnswer : SandboxAnswer → Dispatch.Reply
  | .error (.taskFailed reason) => .crash fun _ => reason
  | other => .answer other

/-- A dispatch at a time. -/
structure TimedDispatch where
  dispatch : Dispatch
  now : Nat := 0
  /-- The tasks that go on next, in order. -/
  ready : List Nat
  /-- The answers to come: when, of which task, and which. The earliest comes first. -/
  agenda : List (Nat × Nat × SandboxAnswer) := []
  /-- When the dispatch is cancelled, if that is still to come. -/
  cancelAt : Option Nat
  /-- The most requests that were in flight at once. -/
  peak : Nat := 0

namespace TimedDispatch

open Dispatch (Script Event)

def step (timed : TimedDispatch) (event : Event) : TimedDispatch :=
  let dispatch := timed.dispatch.step event
  { timed with dispatch, peak := max timed.peak dispatch.inFlight }

/-- An agenda with one more answer, behind those that come at the same time. -/
def schedule (due : Nat) (task : Nat) (answer : SandboxAnswer) :
    List (Nat × Nat × SandboxAnswer) → List (Nat × Nat × SandboxAnswer)
  | [] => [(due, task, answer)]
  | entry :: rest =>
    if due < entry.1 then (due, task, answer) :: entry :: rest
    else entry :: schedule due task answer rest

/-- Wakes the task that was given a permit. -/
def wakeGranted (timed : TimedDispatch) : TimedDispatch :=
  let granted := (List.range timed.dispatch.tasks.length).filter fun task =>
    (timed.dispatch.phase? task).any (·.isGranted) && !timed.ready.contains task
  { timed with ready := timed.ready ++ granted }

/-- The end of a task is reported at once, and its permit wakes another one. -/
def afterPoll (task : Nat) (timed : TimedDispatch) : TimedDispatch :=
  if (timed.dispatch.phase? task).any (·.isEnded) then (timed.step (.report task)).wakeGranted
  else timed

/-- The sandbox takes in the request of a task. An answer without delay comes before the task
rests. -/
def takeIn (scripts : List Script) (task : Nat) (timed : TimedDispatch) : TimedDispatch :=
  match scripts[task]? with
  | some ⟨delay, some answer⟩ =>
    if delay = 0 then (timed.step (.reply task (.ofAnswer answer))).step (.poll task)
    else { timed with agenda := schedule (timed.now + delay) task answer timed.agenda }
  | _ => timed

def poll (scripts : List Script) (timed : TimedDispatch) (task : Nat) : TimedDispatch :=
  let next := timed.step (.poll task)
  let submitted := next.dispatch.submitted.length ≠ timed.dispatch.submitted.length
  afterPoll task (if submitted then takeIn scripts task next else next)

def unfinished (dispatch : Dispatch) : List Nat :=
  (List.range dispatch.tasks.length).filter fun task =>
    (dispatch.phase? task).any (!·.isEnded)

/-- The cancellation comes and wakes every task. -/
def cancel (timed : TimedDispatch) (time : Nat) : TimedDispatch :=
  let timed := timed.step .cancel
  { timed with now := time, cancelAt := none, ready := unfinished timed.dispatch }

/-- The first answer on the agenda comes, and with it those of the same time. -/
def answerAt (time : Nat) (timed : TimedDispatch) : TimedDispatch :=
  let due := timed.agenda.takeWhile (·.1 = time)
  let answered :=
    due.foldl (fun timed entry => timed.step (.reply entry.2.1 (.ofAnswer entry.2.2))) timed
  { answered with
    now := time
    ready := due.map (·.2.1)
    agenda := timed.agenda.dropWhile (·.1 = time) }

/-- Time passes up to the next answer or the cancellation. -/
def passTime (timed : TimedDispatch) : TimedDispatch :=
  match timed.agenda, timed.cancelAt with
  | [], none => timed
  | [], some time => timed.cancel time
  | (due, _) :: _, none => timed.answerAt due
  | (due, _) :: _, some time => if time < due then timed.cancel time else timed.answerAt due

/-- Goes on for a number of rounds, or until every task has ended. -/
def advance (scripts : List Script) : Nat → TimedDispatch → TimedDispatch
  | 0, timed => timed
  | rounds + 1, timed =>
    match timed.ready with
    | task :: rest => advance scripts rounds (poll scripts { timed with ready := rest } task)
    | [] =>
      if timed.dispatch.isFinished then timed else advance scripts rounds timed.passTime

/-- A dispatch at its beginning. A cancellation at time zero comes before the tasks start. -/
def start (maxConcurrency : Nat) (programs : List CaseProgram) (cancelAt : Option Nat) :
    TimedDispatch :=
  let dispatch :=
    (Dispatch.start maxConcurrency programs).run ((List.range programs.length).map .spawn)
  let timed : TimedDispatch :=
    { dispatch, ready := List.range programs.length, cancelAt }
  if cancelAt = some 0 then timed.cancel 0 else timed

/-- The dispatch of programs with what the sandbox makes of them, until every task has ended or
nothing is to come. A task goes on once at the start, once with a permit, once with its answer
and once when it is cancelled, and time passes once for every answer and for the
cancellation. -/
def run (maxConcurrency : Nat) (cancelAt : Option Nat) (scripted : List (CaseProgram × Script)) :
    TimedDispatch :=
  advance (scripted.map (·.2)) (5 * scripted.length + 2)
    (start maxConcurrency (scripted.map (·.1)) cancelAt)

end TimedDispatch

end StructuredCall
