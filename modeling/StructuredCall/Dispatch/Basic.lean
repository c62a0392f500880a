import StructuredCall.Dispatch.Cancellation
import StructuredCall.JudgeError

/-!
# Dispatch

Every program is submitted by a task of its own. A task waits for one of a limited number of
permits, holds it until the answer has come, and ends with an outcome. A cancellation ends every
task that is still there. The dispatcher starts the tasks and then collects what they report. A
task that crashes reports no outcome, so the dispatcher remembers the case of each task.

Tasks, the sandbox, the dispatcher and whoever cancels act in any order. Such an order is a list
of events, and a dispatch is run by taking its events one after the other; an event that is not
possible changes nothing.
-/

namespace StructuredCall

/-- What became of the program of a test case. -/
structure Outcome where
  caseNo : Nat
  caseId : String
  result : Judged Receipt

namespace Dispatch

/-- What comes back for a request. -/
inductive Reply
  | answer (answer : SandboxAnswer)
  /-- The task that submitted the request crashes. What is told of that names the task. -/
  | crash (told : Nat → String)

/-- How a task ends. -/
inductive Ending
  | returned (outcome : Outcome)
  | crashed (reason : String)

/-- How far a task has come. -/
inductive Phase
  /-- Started, and nothing more. -/
  | fresh
  /-- Waiting for a permit in the queue. -/
  | queued
  /-- Given a permit, and not gone on since. -/
  | granted
  /-- Submitted, and no reply is there. -/
  | inFlight
  /-- The reply is there, and the task has not seen it yet. -/
  | answered (reply : Reply)
  | ended (ending : Ending)

/-- A task and the program that it submits. -/
structure Task where
  /-- What the task is known by. -/
  id : Nat
  program : CaseProgram
  watch : CancelFlag.Watch := .unread
  phase : Phase := .fresh
  /-- Whether the dispatcher has been told of the end. -/
  reported : Bool := false

/-- The case of a task, as the dispatcher remembers it. -/
structure Label where
  id : Nat
  caseNo : Nat
  caseId : String
deriving Repr, DecidableEq, Inhabited

/-- The permits. A permit that is given back goes to the task that has waited longest. -/
structure Permits where
  /-- The number of permits that no task has. -/
  free : Nat
  /-- The tasks that wait, the longest waiting first. -/
  queue : List Nat := []
deriving Repr, DecidableEq, Inhabited

/-- A request that was handed to the sandbox, and the task that did it. -/
structure Submission where
  task : Nat
  request : SandboxRequest
deriving Repr, DecidableEq, Inhabited

/-- What can happen while programs are dispatched. Tasks are counted from zero, in the order of
their starts. -/
inductive Event
  /-- The dispatcher starts a task for the next program, to be known by `id`. -/
  | spawn (id : Nat)
  /-- A task goes on as far as it can. A reply that comes in the same go is a poll, the reply
  and one more poll. -/
  | poll (task : Nat)
  /-- The reply to the request of a task comes. -/
  | reply (task : Nat) (reply : Reply)
  /-- The dispatcher is told of the end of a task. -/
  | report (task : Nat)
  | cancel
  /-- The handle that can cancel is let go of. -/
  | dropHandle

end Dispatch

/-- The state of a dispatch. -/
structure Dispatch where
  /-- The programs whose tasks are still to be started, in order. -/
  pending : List CaseProgram
  tasks : List Dispatch.Task := []
  labels : List Dispatch.Label := []
  permits : Dispatch.Permits
  flag : CancelFlag := {}
  /-- The requests that were handed to the sandbox, in order. -/
  submitted : List Dispatch.Submission := []
  /-- The outcomes of the tasks that were reported, in order. -/
  collected : List Outcome := []

namespace Dispatch

/-! ## Phases -/

namespace Phase

/-- Whether a permit belongs to the task. -/
def holdsPermit : Phase → Bool
  | granted | inFlight | answered _ => true
  | fresh | queued | ended _ => false

/-- Whether a request is with the sandbox, or its reply has not been seen. -/
def isSubmitted : Phase → Bool
  | inFlight | answered _ => true
  | fresh | queued | granted | ended _ => false

/-- Whether a task has a permit that it has not used. -/
def isGranted : Phase → Bool
  | granted => true
  | fresh | queued | inFlight | answered _ | ended _ => false

def isEnded : Phase → Bool
  | ended _ => true
  | fresh | queued | granted | inFlight | answered _ => false

end Phase

/-- The outcome of a task with a result. -/
def Task.outcome (task : Task) (result : Judged Receipt) : Outcome :=
  ⟨task.program.caseNo, task.program.caseId, result⟩

/-- Whether a task finds the flag raised. -/
def Task.isCancelled (task : Task) (flag : CancelFlag) : Bool :=
  (flag.look task.watch).1

/-- A task that has looked at the flag. -/
def Task.looked (task : Task) (flag : CancelFlag) : Task :=
  { task with watch := (flag.look task.watch).2 }

def phase? (dispatch : Dispatch) (task : Nat) : Option Phase :=
  (dispatch.tasks[task]?).map (·.phase)

/-- The number of requests with the sandbox. -/
def inFlight (dispatch : Dispatch) : Nat :=
  dispatch.tasks.countP (·.phase.isSubmitted)

def cancelled (dispatch : Dispatch) : Bool :=
  dispatch.flag.raised

/-- Whether every program has a task that has ended and was reported. -/
def isFinished (dispatch : Dispatch) : Bool :=
  dispatch.pending.isEmpty && dispatch.tasks.all fun task => task.phase.isEnded && task.reported

/-! ## Tasks -/

/-- A dispatch before anything has happened; at least one request may be in flight. -/
def start (maxConcurrency : Nat) (programs : List CaseProgram) : Dispatch :=
  { pending := programs, permits := { free := max 1 maxConcurrency } }

def setTask (dispatch : Dispatch) (index : Nat) (task : Task) : Dispatch :=
  { dispatch with tasks := dispatch.tasks.set index task }

/-- The dispatcher starts a task, which is known by no other task's name. -/
def spawn (dispatch : Dispatch) (id : Nat) : Dispatch :=
  match dispatch.pending with
  | [] => dispatch
  | program :: rest =>
    if dispatch.tasks.any (·.id = id) then dispatch
    else
      { dispatch with
        pending := rest
        tasks := dispatch.tasks ++ [{ id, program }]
        labels := dispatch.labels ++ [⟨id, program.caseNo, program.caseId⟩] }

/-- A task that has a permit submits its request. -/
def submit (dispatch : Dispatch) (index : Nat) (task : Task) : Dispatch :=
  { dispatch.setTask index { task with phase := .inFlight } with
    submitted := dispatch.submitted ++ [⟨index, task.program.request⟩] }

/-- A task asks for a permit, and submits its request if one is free. -/
def acquire (dispatch : Dispatch) (index : Nat) (task : Task) : Dispatch :=
  let permits := dispatch.permits
  if permits.free = 0 then
    { dispatch.setTask index { task with phase := .queued } with
      permits := { permits with queue := permits.queue ++ [index] } }
  else
    { dispatch.submit index task with permits := { permits with free := permits.free - 1 } }

def release (dispatch : Dispatch) : Dispatch :=
  let permits := dispatch.permits
  match permits.queue with
  | [] => { dispatch with permits := { permits with free := permits.free + 1 } }
  | next :: rest =>
    { dispatch with
      permits := { permits with queue := rest }
      tasks := dispatch.tasks.modify next fun task => { task with phase := .granted } }

def leaveQueue (dispatch : Dispatch) (index : Nat) : Dispatch :=
  { dispatch with permits.queue := dispatch.permits.queue.erase index }

/-- A task ends. What it held or waited for is let go of, whatever the end. -/
def finish (dispatch : Dispatch) (index : Nat) (task : Task) (ending : Ending) : Dispatch :=
  let ended := dispatch.setTask index { task with phase := .ended ending }
  match task.phase with
  | .fresh | .ended _ => ended
  | .queued => ended.leaveQueue index
  | .granted | .inFlight | .answered _ => ended.release

/-- A task that is not cancelled goes on. -/
def goOn (dispatch : Dispatch) (index : Nat) (task : Task) : Dispatch :=
  match task.phase with
  | .fresh => dispatch.acquire index task
  | .granted => dispatch.submit index task
  | .answered (.answer answer) =>
    let result := answer.mapError (.dispatch task.program.caseNo)
    dispatch.finish index task (.returned (task.outcome result))
  | .answered (.crash told) => dispatch.finish index task (.crashed (told task.id))
  | .queued | .inFlight | .ended _ => dispatch.setTask index task

/-- A task goes on. It looks for a cancellation first. -/
def poll (dispatch : Dispatch) (index : Nat) (task : Task) : Dispatch :=
  let looked := task.looked dispatch.flag
  if task.isCancelled dispatch.flag then
    let result := .error (.cancelled task.program.caseNo)
    dispatch.finish index looked (.returned (task.outcome result))
  else dispatch.goOn index looked

/-! ## The dispatcher -/

/-- The dispatcher takes down the outcome of a task. That of a crashed task is made up from what
is remembered of it. -/
def collect (dispatch : Dispatch) (id : Nat) : Ending → Dispatch
  | .returned outcome => { dispatch with collected := dispatch.collected ++ [outcome] }
  | .crashed reason =>
    match dispatch.labels.find? (·.id = id) with
    | none => dispatch
    | some label =>
      let result := .error (.dispatch label.caseNo (.taskFailed reason))
      { dispatch with
        labels := dispatch.labels.filter (·.id ≠ id)
        collected := dispatch.collected ++ [⟨label.caseNo, label.caseId, result⟩] }

/-- The dispatcher is told of the end of a task, once and only after all tasks were started. -/
def report (dispatch : Dispatch) (index : Nat) (task : Task) : Dispatch :=
  match task.phase with
  | .ended ending =>
    if dispatch.pending.isEmpty && !task.reported then
      (dispatch.setTask index { task with reported := true }).collect task.id ending
    else dispatch
  | .fresh | .queued | .granted | .inFlight | .answered _ => dispatch

/-! ## Steps -/

def step (dispatch : Dispatch) : Event → Dispatch
  | .spawn id => dispatch.spawn id
  | .poll index =>
    match dispatch.tasks[index]? with
    | some task => if task.phase.isEnded then dispatch else dispatch.poll index task
    | none => dispatch
  | .reply index reply =>
    match dispatch.tasks[index]? with
    | some task =>
      match task.phase with
      | .inFlight => dispatch.setTask index { task with phase := .answered reply }
      | .fresh | .queued | .granted | .answered _ | .ended _ => dispatch
    | none => dispatch
  | .report index =>
    match dispatch.tasks[index]? with
    | some task => dispatch.report index task
    | none => dispatch
  | .cancel => { dispatch with flag := dispatch.flag.cancel }
  | .dropHandle => { dispatch with flag := dispatch.flag.close }

def run (dispatch : Dispatch) (events : List Event) : Dispatch :=
  events.foldl step dispatch

/-! ## Results -/

/-- The outcomes so far by the numbers of their cases; of equal numbers the one that was reported
first comes first. -/
def outcomes (dispatch : Dispatch) : List Outcome :=
  dispatch.collected.mergeSort fun a b => a.caseNo ≤ b.caseNo

/-- What a dispatch returns, once it is finished. -/
def result? (dispatch : Dispatch) : Option (List Outcome) :=
  if dispatch.isFinished then some dispatch.outcomes else none

def requests (dispatch : Dispatch) : List SandboxRequest :=
  dispatch.submitted.map (·.request)

end Dispatch

end StructuredCall
