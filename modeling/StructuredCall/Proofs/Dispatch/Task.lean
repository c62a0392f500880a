import StructuredCall.Proofs.Dispatch.Permits

/-!
# What becomes of a task

Most of what is to be shown of a dispatch is about one task at a time. `Change` says what an
event can make of a task. Every task stays or changes in that way (`Transition.change`), every
other one was started by the event, and so a property of tasks that starts keep and changes keep
holds of the tasks of every run (`task_induction`).
-/

namespace StructuredCall.Dispatch

variable {d after : Dispatch} {event : Event} {i j : Nat} {task other next : Task}

/-- How a task has ended. -/
def Phase.ending? : Phase → Option Ending
  | ended ending => some ending
  | fresh | queued | granted | inFlight | answered _ => none

theorem Phase.ending?_eq_some_iff {phase : Phase} {ending : Ending} :
    phase.ending? = some ending ↔ phase = .ended ending := by
  cases phase <;> simp [ending?]

theorem Phase.isEnded_iff {phase : Phase} :
    phase.isEnded = true ↔ ∃ ending, phase = .ended ending := by
  cases phase <;> simp [isEnded]

def ending? (d : Dispatch) (i : Nat) : Option Ending :=
  (d.phase? i).bind (·.ending?)

theorem ending?_eq_some_iff {ending : Ending} :
    d.ending? i = some ending ↔ d.phase? i = some (.ended ending) := by
  unfold ending?
  rw [Option.bind_eq_some_iff]
  simp only [Phase.ending?_eq_some_iff, exists_eq_right]

theorem ending?_of_task (ht : d.tasks[i]? = some task) : d.ending? i = task.phase.ending? := by
  rw [ending?, phase?_of_task ht]
  rfl

theorem task_of_ending? {ending : Ending} (h : d.ending? i = some ending) :
    ∃ task, d.tasks[i]? = some task ∧ task.phase.ending? = some ending := by
  obtain ⟨task, ht, hp⟩ := phase?_eq_some_iff.mp (ending?_eq_some_iff.mp h)
  exact ⟨task, ht, Phase.ending?_eq_some_iff.mpr hp⟩

theorem isSome_ending? (ht : d.tasks[i]? = some task) (hended : task.phase.isEnded = true) :
    (d.ending? i).isSome = true := by
  obtain ⟨ending, hending⟩ := Phase.isEnded_iff.mp hended
  rw [ending?_eq_some_iff.mpr (hending ▸ phase?_of_task ht)]
  rfl

/-- What an event can make of a task. -/
inductive Change (d : Dispatch) (i : Nat) (task : Task) : Event → Task → Prop
  | same {event : Event} : Change d i task event task
  | grant {event : Event} : task.phase = .queued →
      Change d i task event { task with phase := .granted }
  | wait : task.isCancelled d.flag = false → task.phase = .queued ∨ task.phase = .inFlight →
      Change d i task (.poll i) (task.looked d.flag)
  | enqueue : task.isCancelled d.flag = false → task.phase = .fresh →
      Change d i task (.poll i) { task.looked d.flag with phase := .queued }
  | submit : task.isCancelled d.flag = false → task.phase = .fresh ∨ task.phase = .granted →
      Change d i task (.poll i) { task.looked d.flag with phase := .inFlight }
  | finish {ending : Ending} : task.phase.isEnded = false → Concludes d.flag task ending →
      Change d i task (.poll i) { task.looked d.flag with phase := .ended ending }
  | reply {reply : Reply} : task.phase = .inFlight →
      Change d i task (.reply i reply) { task with phase := .answered reply }
  | report {ending : Ending} : task.phase = .ended ending → d.pending = [] →
      task.reported = false → Change d i task (.report i) { task with reported := true }

namespace Change

theorem program_eq (h : Change d i task event next) : next.program = task.program := by
  cases h <;> rfl

theorem ended {ending : Ending} (h : Change d i task event next)
    (hended : task.phase = .ended ending) : next.phase = .ended ending := by
  cases h with
  | same | report => exact hended
  | grant hp | enqueue _ hp | reply hp => simp [hp] at hended
  | wait _ hp | submit _ hp => rcases hp with hp | hp <;> simp [hp] at hended
  | finish hp => simp [hended, Phase.isEnded] at hp

end Change

/-! ## The tasks after an event -/

theorem looked_phase (task : Task) (flag : CancelFlag) :
    (task.looked flag).phase = task.phase := rfl

theorem task_setTask (hj : d.tasks[j]? = some task) :
    (d.setTask i next).tasks[j]? = some (if i = j then next else task) := by
  obtain ⟨hlt, -⟩ := List.getElem?_eq_some_iff.mp hj
  rw [setTask_tasks]
  split
  · next h => exact h ▸ List.getElem?_set_self (h ▸ hlt)
  · next h => rw [List.getElem?_set_ne h, hj]

/-- The dispatcher takes down an outcome and changes nothing else but its labels. -/
theorem collect_eq (id : Nat) (ending : Ending) : d.collect id ending =
    { d with
      labels := (d.collect id ending).labels
      collected := (d.collect id ending).collected } := by
  unfold collect
  split
  · rfl
  · split <;> rfl

theorem release_eq (d : Dispatch) :
    d.release = { d with tasks := d.release.tasks, permits := d.release.permits } := by
  unfold release
  cases h : d.permits.queue <;> simp only [h]

theorem finish_eq (i : Nat) (task : Task) (ending : Ending) : d.finish i task ending =
    { d with
      tasks := (d.finish i task ending).tasks
      permits := (d.finish i task ending).permits } := by
  cases hp : task.phase.holdsPermit with
  | true =>
    rw [finish_of_holdsPermit hp, release_eq]
    rfl
  | false =>
    rw [finish_of_not_holdsPermit hp]
    rfl

/-- A permit that is given back may change one task: it may have the permit now. -/
theorem release_tasks (hq : d.QueueSound) : d.release.tasks = d.tasks ∨
    ∃ k waiting, d.tasks[k]? = some waiting ∧ waiting.phase = .queued ∧
      d.release.tasks = (d.setTask k { waiting with phase := .granted }).tasks := by
  cases h : d.permits.queue with
  | nil => exact .inl (by rw [release_nil h])
  | cons k rest =>
    obtain ⟨waiting, hw, hphase, heq⟩ := release_cons hq h
    exact .inr ⟨k, waiting, hw, hphase, by rw [heq]⟩

/-- The same holds for a task that ends. -/
theorem finish_tasks (hq : d.QueueSound) (ht : d.tasks[i]? = some task)
    (h : next.phase = task.phase) (ending : Ending) :
    (d.finish i next ending).tasks = (d.setTask i { next with phase := .ended ending }).tasks ∨
    ∃ k waiting, (d.setTask i { next with phase := .ended ending }).tasks[k]? = some waiting ∧
      waiting.phase = .queued ∧
      (d.finish i next ending).tasks =
        ((d.setTask i { next with phase := .ended ending }).setTask k
          { waiting with phase := .granted }).tasks := by
  cases hp : next.phase.holdsPermit with
  | true =>
    rw [finish_of_holdsPermit hp]
    have hqueued : task.phase ≠ .queued := by
      rintro hqueued
      simp [h, hqueued, Phase.holdsPermit] at hp
    exact release_tasks (hq.setTask ht _ (iff_of_false (by simp) hqueued))
  | false => exact .inl (by rw [finish_of_not_holdsPermit hp])

theorem change_setTask (ht : d.tasks[i]? = some task) (hj : d.tasks[j]? = some other)
    (h : Change d i task event next) :
    ∃ result, (d.setTask i next).tasks[j]? = some result ∧ Change d j other event result := by
  refine ⟨_, task_setTask hj, ?_⟩
  split
  · next heq =>
    subst heq
    exact Option.some_inj.mp (ht.symm.trans hj) ▸ h
  · exact .same

theorem finish_length (hq : d.QueueSound) (ht : d.tasks[i]? = some task)
    (h : next.phase = task.phase) (ending : Ending) :
    (d.finish i next ending).tasks.length = d.tasks.length := by
  obtain heq | ⟨k, waiting, -, -, heq⟩ := finish_tasks hq ht h ending
  · rw [heq]
    exact List.length_set
  · rw [heq]
    exact List.length_set.trans List.length_set

theorem finish_self (hq : d.QueueSound) (ht : d.tasks[i]? = some task)
    (h : next.phase = task.phase) (ending : Ending) :
    (d.finish i next ending).tasks[i]? = some { next with phase := .ended ending } := by
  have hset : (d.setTask i { next with phase := .ended ending }).tasks[i]? = _ := task_setTask ht
  rw [if_pos rfl] at hset
  obtain heq | ⟨k, waiting, hw, hphase, heq⟩ := finish_tasks hq ht h ending
  · rw [heq, hset]
  · have hk : k ≠ i := by
      rintro rfl
      simp [← Option.some_inj.mp (hset.symm.trans hw)] at hphase
    rw [heq, task_setTask hset, if_neg hk]

/-- A task that ends may let another one have its permit. -/
theorem finish_other (hq : d.QueueSound) (ht : d.tasks[i]? = some task)
    (h : next.phase = task.phase) (ending : Ending) (hj : d.tasks[j]? = some other)
    (hij : i ≠ j) :
    ∃ result, (d.finish i next ending).tasks[j]? = some result ∧
      Change d j other event result := by
  have hset : (d.setTask i { next with phase := .ended ending }).tasks[j]? = _ := task_setTask hj
  rw [if_neg hij] at hset
  obtain heq | ⟨k, waiting, hw, hphase, heq⟩ := finish_tasks hq ht h ending
  · exact ⟨other, heq ▸ hset, .same⟩
  · refine ⟨_, heq ▸ task_setTask hset, ?_⟩
    split
    · next hk =>
      subst hk
      cases hw.symm.trans hset
      exact .grant hphase
    · exact .same

namespace Transition

/-- **A task stays or changes.** -/
theorem change (hq : d.QueueSound) (h : Transition d event after) (hj : d.tasks[j]? = some task) :
    ∃ next, after.tasks[j]? = some next ∧ Change d j task event next := by
  cases h with
  | nothing => exact ⟨task, hj, .same⟩
  | spawn =>
    obtain ⟨hlt, -⟩ := List.getElem?_eq_some_iff.mp hj
    exact ⟨task, (List.getElem?_append_left hlt).trans hj, .same⟩
  | wait ht hc hp => exact change_setTask ht hj (.wait hc hp)
  | enqueue ht hc hp => exact change_setTask ht hj (.enqueue hc hp)
  | take ht hc hp => exact change_setTask ht hj (.submit hc (.inl hp))
  | submit ht hc hp => exact change_setTask ht hj (.submit hc (.inr hp))
  | @finish i _ ending ht hp hends =>
    by_cases hij : i = j
    · subst hij
      cases ht.symm.trans hj
      exact ⟨_, finish_self hq ht (looked_phase task d.flag) ending, .finish hp hends⟩
    · exact finish_other hq ht (looked_phase _ d.flag) ending hj hij
  | reply ht hp => exact change_setTask ht hj (.reply hp)
  | report ht hp hpending hr =>
    rw [collect_eq]
    exact change_setTask ht hj (.report hp hpending hr)
  | cancel => exact ⟨task, hj, .same⟩
  | dropHandle => exact ⟨task, hj, .same⟩

/-- Only a start makes the tasks more, and it makes them one more. -/
theorem tasks_length (hq : d.QueueSound) (h : Transition d event after) :
    after.pending = d.pending ∧ after.tasks.length = d.tasks.length ∨
    ∃ (id : Nat) (program : CaseProgram) (rest : List CaseProgram), event = .spawn id ∧
      d.pending = program :: rest ∧ after.pending = rest ∧
      after.tasks = d.tasks ++ [({ id, program } : Task)] := by
  cases h with
  | spawn hpending => exact .inr ⟨_, _, _, rfl, hpending, rfl, rfl⟩
  | finish ht =>
    exact .inl ⟨by rw [finish_eq], finish_length hq ht (looked_phase _ d.flag) _⟩
  | report =>
    rw [collect_eq]
    exact .inl ⟨rfl, List.length_set⟩
  | nothing | cancel | dropHandle => exact .inl ⟨rfl, rfl⟩
  | wait | enqueue | take | submit | reply => exact .inl ⟨rfl, List.length_set⟩

/-- A task that is there after an event was there before or was started by the event. -/
theorem origin (hq : d.QueueSound) (h : Transition d event after)
    (hnext : after.tasks[j]? = some next) :
    (∃ task, d.tasks[j]? = some task ∧ Change d j task event next) ∨
    ∃ (id : Nat) (program : CaseProgram) (rest : List CaseProgram), event = .spawn id ∧
      d.pending = program :: rest ∧ j = d.tasks.length ∧ next = ({ id, program } : Task) := by
  cases hj : d.tasks[j]? with
  | some task =>
    obtain ⟨next', hnext', hchange⟩ := h.change hq hj
    cases hnext.symm.trans hnext'
    exact .inl ⟨task, rfl, hchange⟩
  | none =>
    have hge : d.tasks.length ≤ j := List.getElem?_eq_none_iff.mp hj
    obtain ⟨hlt, -⟩ := List.getElem?_eq_some_iff.mp hnext
    obtain ⟨-, hlen⟩ | ⟨id, program, rest, hevent, hpending, -, htasks⟩ := h.tasks_length hq
    · omega
    · have hlast : j = d.tasks.length := by
        rw [htasks, List.length_append, List.length_singleton] at hlt
        omega
      subst hlast
      rw [htasks, List.getElem?_concat_length] at hnext
      exact .inr ⟨id, program, rest, hevent, hpending, rfl, (Option.some_inj.mp hnext).symm⟩

/-- A task that is there after an event that starts none was there before. -/
theorem before (hq : d.QueueSound) (h : Transition d event after)
    (hlen : after.tasks.length = d.tasks.length) (hnext : after.tasks[j]? = some next) :
    ∃ task, d.tasks[j]? = some task ∧ Change d j task event next := by
  obtain hbefore | ⟨-, -, -, -, -, rfl, -⟩ := h.origin hq hnext
  · exact hbefore
  · rw [← hlen, List.getElem?_length] at hnext
    simp at hnext

theorem map_eq {α : Type} {f : Task → α} (hq : d.QueueSound) (h : Transition d event after)
    (hlen : after.tasks.length = d.tasks.length)
    (hf : ∀ j task next, d.tasks[j]? = some task → Change d j task event next →
      f next = f task) : after.tasks.map f = d.tasks.map f := by
  refine List.ext_getElem? fun j => ?_
  rw [List.getElem?_map, List.getElem?_map]
  cases hnext : after.tasks[j]? with
  | some next =>
    obtain ⟨task, ht, hchange⟩ := h.before hq hlen hnext
    rw [ht, Option.map_some, Option.map_some, hf j task next ht hchange]
  | none =>
    rw [List.getElem?_eq_none_iff, hlen, ← List.getElem?_eq_none_iff] at hnext
    rw [hnext]

theorem programs_eq (hq : d.QueueSound) (h : Transition d event after) :
    after.tasks.map (·.program) ++ after.pending = d.tasks.map (·.program) ++ d.pending := by
  obtain ⟨hpending, hlen⟩ | ⟨id, program, rest, -, hpending, hrest, htasks⟩ := h.tasks_length hq
  · rw [h.map_eq hq hlen fun _ _ _ _ hchange => hchange.program_eq, hpending]
  · rw [htasks, hrest, hpending, List.map_append, List.append_assoc]
    rfl

end Transition

/-! ## The tasks of a run -/

section Run

variable {maxConcurrency : Nat} {programs : List CaseProgram} {events more : List Event}

/-- **What starts and changes keep holds of every task of every run.** -/
theorem task_induction (maxConcurrency : Nat) (programs : List CaseProgram)
    {P : List Event → Nat → Task → Prop}
    (spawn : ∀ events i id program, P (events ++ [.spawn id]) i { id, program })
    (change : ∀ events event i task next,
      ((start maxConcurrency programs).run events).tasks[i]? = some task →
      Change ((start maxConcurrency programs).run events) i task event next →
      P events i task → P (events ++ [event]) i next)
    (ht : ((start maxConcurrency programs).run events).tasks[i]? = some task) :
    P events i task := by
  induction events using List.reverseRecOn generalizing i task with
  | nil => simp [run, start] at ht
  | append_singleton events event ih =>
    rw [run_append_singleton] at ht
    have hq := queueSound_run maxConcurrency programs events
    obtain ⟨before, hbefore, hchange⟩ | ⟨id, program, rest, rfl, -, -, rfl⟩ :=
      (step_transition _ event).origin hq ht
    · exact change events event i before task hbefore hchange (ih hbefore)
    · exact spawn events i id program

/-- **A task that has ended stays as it ended.** -/
theorem ending?_append {ending : Ending}
    (h : ((start maxConcurrency programs).run events).ending? i = some ending) :
    ((start maxConcurrency programs).run (events ++ more)).ending? i = some ending := by
  induction more using List.reverseRecOn with
  | nil => rwa [List.append_nil]
  | append_singleton more event ih =>
    obtain ⟨task, ht, hended⟩ := task_of_ending? ih
    have hq := queueSound_run maxConcurrency programs (events ++ more)
    obtain ⟨next, hnext, hchange⟩ := (step_transition _ event).change hq ht
    rw [← List.append_assoc, run_append_singleton, ending?_of_task hnext,
      hchange.ended (Phase.ending?_eq_some_iff.mp hended)]
    rfl

/-- Tasks are started in the order of the programs. -/
theorem map_program_append_pending (maxConcurrency : Nat) (programs : List CaseProgram)
    (events : List Event) :
    ((start maxConcurrency programs).run events).tasks.map (·.program) ++
      ((start maxConcurrency programs).run events).pending = programs :=
  invariant_run (P := fun d => d.tasks.map (·.program) ++ d.pending = programs) maxConcurrency
    programs rfl (fun _ _ _ hq h ih => (h.programs_eq hq).trans ih) events

/-- A task is that of the program in the same place. -/
theorem getElem?_programs
    (ht : ((start maxConcurrency programs).run events).tasks[i]? = some task) :
    programs[i]? = some task.program := by
  obtain ⟨hi, -⟩ := List.getElem?_eq_some_iff.mp ht
  rw [← map_program_append_pending maxConcurrency programs events,
    List.getElem?_append_left (by simpa using hi), List.getElem?_map, ht]
  rfl

theorem length_tasks_of_pending
    (h : ((start maxConcurrency programs).run events).pending = []) :
    ((start maxConcurrency programs).run events).tasks.length = programs.length := by
  have hall := map_program_append_pending maxConcurrency programs events
  rw [h, List.append_nil] at hall
  simpa using congrArg List.length hall

end Run

end StructuredCall.Dispatch
