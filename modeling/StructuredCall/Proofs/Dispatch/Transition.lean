import Mathlib.Data.List.Basic
import StructuredCall.Dispatch.Basic

/-!
# What one event does

Every event changes a dispatch in one of ten ways, or not at all. `Transition` lists them with
what makes them possible, and `step_transition` shows that there are no others, so that an
invariant is a matter of ten cases.
-/

namespace StructuredCall.Dispatch

/-! ## Transitions -/

/-- How a task that goes on comes to its end. -/
inductive Concludes (flag : CancelFlag) (task : Task) : Ending → Prop
  | cancelled : task.isCancelled flag = true →
      Concludes flag task (.returned (task.outcome (.error (.cancelled task.program.caseNo))))
  | answered {answer : SandboxAnswer} : task.isCancelled flag = false →
      task.phase = .answered (.answer answer) →
      Concludes flag task
        (.returned (task.outcome (answer.mapError (.dispatch task.program.caseNo))))
  | crashed {told : Nat → String} : task.isCancelled flag = false →
      task.phase = .answered (.crash told) → Concludes flag task (.crashed (told task.id))

/-- What an event can do. -/
inductive Transition (d : Dispatch) : Event → Dispatch → Prop
  | nothing {event : Event} : Transition d event d
  | spawn {id : Nat} {program : CaseProgram} {rest : List CaseProgram} :
      d.pending = program :: rest → (∀ task ∈ d.tasks, task.id ≠ id) →
      Transition d (.spawn id)
        { d with
          pending := rest
          tasks := d.tasks ++ [{ id, program }]
          labels := d.labels ++ [⟨id, program.caseNo, program.caseId⟩] }
  | wait {i : Nat} {task : Task} : d.tasks[i]? = some task → task.isCancelled d.flag = false →
      task.phase = .queued ∨ task.phase = .inFlight →
      Transition d (.poll i) (d.setTask i (task.looked d.flag))
  | enqueue {i : Nat} {task : Task} : d.tasks[i]? = some task →
      task.isCancelled d.flag = false → task.phase = .fresh → d.permits.free = 0 →
      Transition d (.poll i)
        { d.setTask i { task.looked d.flag with phase := .queued } with
          permits := { d.permits with queue := d.permits.queue ++ [i] } }
  | take {i : Nat} {task : Task} : d.tasks[i]? = some task → task.isCancelled d.flag = false →
      task.phase = .fresh → d.permits.free ≠ 0 →
      Transition d (.poll i)
        { d.submit i (task.looked d.flag) with
          permits := { d.permits with free := d.permits.free - 1 } }
  | submit {i : Nat} {task : Task} : d.tasks[i]? = some task →
      task.isCancelled d.flag = false → task.phase = .granted →
      Transition d (.poll i) (d.submit i (task.looked d.flag))
  | finish {i : Nat} {task : Task} {ending : Ending} : d.tasks[i]? = some task →
      task.phase.isEnded = false → Concludes d.flag task ending →
      Transition d (.poll i) (d.finish i (task.looked d.flag) ending)
  | reply {i : Nat} {task : Task} {reply : Reply} : d.tasks[i]? = some task →
      task.phase = .inFlight →
      Transition d (.reply i reply) (d.setTask i { task with phase := .answered reply })
  | report {i : Nat} {task : Task} {ending : Ending} : d.tasks[i]? = some task →
      task.phase = .ended ending → d.pending = [] → task.reported = false →
      Transition d (.report i)
        ((d.setTask i { task with reported := true }).collect task.id ending)
  | cancel : Transition d .cancel { d with flag := d.flag.cancel }
  | dropHandle : Transition d .dropHandle { d with flag := d.flag.close }

theorem spawn_transition (d : Dispatch) (id : Nat) : Transition d (.spawn id) (d.spawn id) := by
  unfold spawn
  cases hp : d.pending with
  | nil => exact .nothing
  | cons program rest =>
    by_cases h : d.tasks.any (·.id = id)
    · simpa only [h, if_true] using .nothing
    · simp only [h]
      exact .spawn hp (by simpa using h)

theorem poll_transition {d : Dispatch} {i : Nat} {task : Task} (ht : d.tasks[i]? = some task)
    (hphase : task.phase.isEnded = false) : Transition d (.poll i) (d.poll i task) := by
  unfold poll
  cases hc : task.isCancelled d.flag with
  | true => exact .finish ht hphase (.cancelled hc)
  | false =>
    show Transition d (.poll i) (d.goOn i (task.looked d.flag))
    have hlooked : (task.looked d.flag).phase = task.phase := rfl
    unfold goOn
    rw [hlooked]
    cases hp : task.phase with
    | fresh =>
      show Transition d (.poll i) (d.acquire i (task.looked d.flag))
      unfold acquire
      by_cases hf : d.permits.free = 0
      · simpa only [hf, if_true] using Transition.enqueue ht hc hp hf
      · simpa only [hf, if_false] using Transition.take ht hc hp hf
    | queued => exact .wait ht hc (.inl hp)
    | granted => exact .submit ht hc hp
    | inFlight => exact .wait ht hc (.inr hp)
    | answered reply =>
      cases reply with
      | answer answer => exact .finish ht hphase (.answered hc hp)
      | crash told => exact .finish ht hphase (.crashed hc hp)
    | ended ending => simp [hp, Phase.isEnded] at hphase

theorem report_transition {d : Dispatch} {i : Nat} {task : Task} (ht : d.tasks[i]? = some task) :
    Transition d (.report i) (d.report i task) := by
  unfold report
  split
  · next ending hp =>
    split
    · next h =>
      simp only [Bool.and_eq_true, List.isEmpty_iff, Bool.not_eq_true'] at h
      exact .report ht hp h.1 h.2
    · exact .nothing
  all_goals exact .nothing

/-- **Every event is one of the transitions.** -/
theorem step_transition (d : Dispatch) (event : Event) : Transition d event (d.step event) := by
  cases event with
  | spawn id => exact spawn_transition d id
  | poll i =>
    simp only [step]
    split
    · next task ht =>
      cases hp : task.phase.isEnded with
      | true => exact .nothing
      | false => exact poll_transition ht hp
    · exact .nothing
  | reply i reply =>
    simp only [step]
    split
    · next task ht =>
      split
      · next hp => exact .reply ht hp
      all_goals exact .nothing
    · exact .nothing
  | report i =>
    simp only [step]
    split
    · next task ht => exact report_transition ht
    · exact .nothing
  | cancel => exact .cancel
  | dropHandle => exact .dropHandle

/-! ## Runs -/

theorem run_append (d : Dispatch) (events more : List Event) :
    d.run (events ++ more) = (d.run events).run more := List.foldl_append

theorem run_append_singleton (d : Dispatch) (events : List Event) (event : Event) :
    d.run (events ++ [event]) = (d.run events).step event := run_append d events [event]

end StructuredCall.Dispatch
