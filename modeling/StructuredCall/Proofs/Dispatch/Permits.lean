import Mathlib.Data.List.Induction
import Mathlib.Data.List.Nodup
import StructuredCall.Proofs.Dispatch.Transition

/-!
# Permits

A permit is free, or one task holds it. A task that is cancelled, answered or crashed lets go of
its permit as it ends, and the permit goes on to the task that has waited longest, so the number
of permits never changes (`permitCount_run`).

A permit is only handed on to a task that waits. This needs that the queue is sound
(`QueueSound`): it holds the waiting tasks, each one once.
-/

namespace StructuredCall.Dispatch

variable {d : Dispatch} {i j : Nat} {task next : Task}

/-! ## The state of one task -/

theorem setTask_tasks : (d.setTask i next).tasks = d.tasks.set i next := rfl

theorem setTask_permits : (d.setTask i next).permits = d.permits := rfl

theorem phase?_eq_some_iff {phase : Phase} :
    d.phase? i = some phase ↔ ∃ task, d.tasks[i]? = some task ∧ task.phase = phase := by
  unfold phase?
  exact Option.map_eq_some_iff

theorem phase?_of_task (ht : d.tasks[i]? = some task) : d.phase? i = some task.phase := by
  unfold phase?
  rw [ht]
  rfl

theorem phase?_setTask_self (ht : d.tasks[i]? = some task) :
    (d.setTask i next).phase? i = some next.phase := by
  obtain ⟨hi, -⟩ := List.getElem?_eq_some_iff.mp ht
  exact phase?_of_task (List.getElem?_set_self hi)

theorem phase?_setTask_ne (h : i ≠ j) : (d.setTask i next).phase? j = d.phase? j := by
  unfold phase?
  rw [setTask_tasks, List.getElem?_set_ne h]

/-- A state of one task takes the place of the one before in every count. -/
theorem countP_setTask (p : Task → Bool) (ht : d.tasks[i]? = some task) :
    (d.setTask i next).tasks.countP p + (p task).toNat = d.tasks.countP p + (p next).toNat := by
  obtain ⟨hi, rfl⟩ := List.getElem?_eq_some_iff.mp ht
  have hle : (p d.tasks[i]).toNat ≤ d.tasks.countP p := by
    cases hp : p d.tasks[i] with
    | false => exact Nat.zero_le _
    | true => exact List.countP_pos_iff.mpr ⟨_, List.getElem_mem hi, hp⟩
  rw [setTask_tasks, List.countP_set hi]
  cases hp : p d.tasks[i] <;> cases hn : p next <;> rw [hp] at hle <;>
    simp only [Bool.toNat_true, Bool.toNat_false, if_true, if_false, Bool.false_eq_true]
      at hle ⊢ <;>
    omega

/-! ## The queue -/

/-- The queue holds the tasks that wait, each one once. -/
structure QueueSound (d : Dispatch) : Prop where
  nodup : d.permits.queue.Nodup
  waits : ∀ j, j ∈ d.permits.queue ↔ d.phase? j = some .queued

theorem release_nil (h : d.permits.queue = []) :
    d.release = { d with permits := { d.permits with free := d.permits.free + 1 } } := by
  unfold release
  simp only [h]

theorem release_cons (hq : d.QueueSound) {rest : List Nat} (h : d.permits.queue = j :: rest) :
    ∃ waiting, d.tasks[j]? = some waiting ∧ waiting.phase = .queued ∧
      d.release = { d.setTask j { waiting with phase := .granted } with
        permits := { d.permits with queue := rest } } := by
  obtain ⟨waiting, hw, hphase⟩ := phase?_eq_some_iff.mp ((hq.waits j).mp (by simp [h]))
  refine ⟨waiting, hw, hphase, ?_⟩
  obtain ⟨hj, rfl⟩ := List.getElem?_eq_some_iff.mp hw
  unfold release setTask
  simp only [h, List.modify_eq_set_getElem?, hw]
  rfl

theorem finish_of_holdsPermit (h : task.phase.holdsPermit = true) (ending : Ending) :
    d.finish i task ending = (d.setTask i { task with phase := .ended ending }).release := by
  unfold finish
  cases hp : task.phase with
  | granted | inFlight | answered => rfl
  | fresh | queued | ended => simp [hp, Phase.holdsPermit] at h

/-- A task without a permit changes nothing but the queue, besides that it ends. -/
theorem finish_of_not_holdsPermit (h : task.phase.holdsPermit = false) (ending : Ending) :
    d.finish i task ending = { d.setTask i { task with phase := .ended ending } with
      permits := (d.finish i task ending).permits } := by
  unfold finish
  cases hp : task.phase with
  | fresh | queued | ended => rfl
  | granted | inFlight | answered => simp [hp, Phase.holdsPermit] at h

namespace QueueSound

theorem setTask (hq : d.QueueSound) (ht : d.tasks[i]? = some task) (next : Task)
    (h : next.phase = .queued ↔ task.phase = .queued) : (d.setTask i next).QueueSound := by
  refine ⟨hq.nodup, fun j => ?_⟩
  rw [setTask_permits, hq.waits]
  by_cases hj : i = j
  · subst hj
    rw [phase?_setTask_self ht, phase?_of_task ht, Option.some_inj, Option.some_inj, h]
  · rw [phase?_setTask_ne hj]

theorem release (hq : d.QueueSound) : d.release.QueueSound := by
  cases h : d.permits.queue with
  | nil =>
    rw [release_nil h]
    exact ⟨hq.nodup, hq.waits⟩
  | cons j rest =>
    obtain ⟨waiting, hw, hphase, heq⟩ := release_cons hq h
    obtain ⟨hj, hrest⟩ := List.nodup_cons.mp (h ▸ hq.nodup)
    rw [heq]
    refine ⟨hrest, fun k => ?_⟩
    show k ∈ rest ↔ (d.setTask j { waiting with phase := .granted }).phase? k = some .queued
    by_cases hk : j = k
    · subst hk
      simp [phase?_setTask_self hw, hj]
    · rw [phase?_setTask_ne hk, ← hq.waits, h, List.mem_cons, or_iff_right (Ne.symm hk)]

theorem enqueue (hq : d.QueueSound) (ht : d.tasks[i]? = some task) (h : task.phase ≠ .queued)
    (hn : next.phase = .queued) :
    { d.setTask i next with
      permits := { d.permits with queue := d.permits.queue ++ [i] } : Dispatch }.QueueSound := by
  have hi : i ∉ d.permits.queue := by
    rw [hq.waits, phase?_of_task ht, Option.some_inj]
    exact h
  refine ⟨List.nodup_append.mpr ⟨hq.nodup, List.nodup_singleton i, ?_⟩, fun j => ?_⟩
  · rintro a ha b hb rfl
    exact hi (List.mem_singleton.mp hb ▸ ha)
  · show j ∈ d.permits.queue ++ [i] ↔ (d.setTask i next).phase? j = some .queued
    rw [List.mem_append, List.mem_singleton]
    by_cases hj : i = j
    · subst hj
      simp [phase?_setTask_self ht, hn]
    · rw [phase?_setTask_ne hj, hq.waits, or_iff_left (Ne.symm hj)]

theorem leaveQueue (hq : d.QueueSound) (ht : d.tasks[i]? = some task) (hn : next.phase ≠ .queued) :
    ((d.setTask i next).leaveQueue i).QueueSound := by
  refine ⟨hq.nodup.erase i, fun j => ?_⟩
  show j ∈ d.permits.queue.erase i ↔ (d.setTask i next).phase? j = some .queued
  by_cases hj : i = j
  · subst hj
    rw [phase?_setTask_self ht, Option.some_inj]
    exact iff_of_false hq.nodup.not_mem_erase hn
  · rw [List.mem_erase_of_ne (Ne.symm hj), phase?_setTask_ne hj, hq.waits]

theorem finish (hq : d.QueueSound) (ht : d.tasks[i]? = some task) (h : next.phase = task.phase)
    (ending : Ending) : (d.finish i next ending).QueueSound := by
  have hended (hp : task.phase ≠ .queued) :
      (d.setTask i { next with phase := .ended ending }).QueueSound :=
    hq.setTask ht _ (iff_of_false nofun hp)
  unfold Dispatch.finish
  rw [h]
  cases hp : task.phase with
  | fresh => exact hended (by simp [hp])
  | queued => exact hq.leaveQueue ht nofun
  | granted => exact (hended (by simp [hp])).release
  | inFlight => exact (hended (by simp [hp])).release
  | answered reply => exact (hended (by simp [hp])).release
  | ended other => exact hended (by simp [hp])

theorem start (maxConcurrency : Nat) (programs : List CaseProgram) :
    (start maxConcurrency programs).QueueSound :=
  ⟨List.nodup_nil, fun j => by simp [Dispatch.start, phase?]⟩

theorem spawn (hq : d.QueueSound) (hn : next.phase ≠ .queued) {pending : List CaseProgram}
    {labels : List Label} :
    { d with pending, tasks := d.tasks ++ [next], labels : Dispatch }.QueueSound := by
  refine ⟨hq.nodup, fun j => (hq.waits j).trans ?_⟩
  unfold phase?
  rw [List.getElem?_append]
  split
  · exact Iff.rfl
  · next hj =>
    rw [List.getElem?_eq_none (by omega), List.getElem?_singleton]
    split <;> simp [hn]

theorem collect (hq : d.QueueSound) (id : Nat) (ending : Ending) :
    (d.collect id ending).QueueSound := by
  unfold Dispatch.collect
  split
  · exact ⟨hq.nodup, hq.waits⟩
  · split
    · exact hq
    · exact ⟨hq.nodup, hq.waits⟩

theorem submit (hq : d.QueueSound) (ht : d.tasks[i]? = some task) (h : task.phase ≠ .queued) :
    (d.submit i next).QueueSound := by
  have hset : (d.setTask i { next with phase := .inFlight }).QueueSound :=
    hq.setTask ht _ (iff_of_false (by simp) h)
  exact ⟨hset.nodup, hset.waits⟩

theorem transition (hq : d.QueueSound) {event : Event} {after : Dispatch}
    (h : Transition d event after) : after.QueueSound := by
  cases h with
  | nothing => exact hq
  | spawn => exact hq.spawn (by simp)
  | wait ht => exact hq.setTask ht _ Iff.rfl
  | enqueue ht _ hp => exact hq.enqueue ht (by simp [hp]) rfl
  | @take i task ht _ hp =>
    have hsubmit : (d.submit i (task.looked d.flag)).QueueSound := hq.submit ht (by simp [hp])
    exact ⟨hsubmit.nodup, hsubmit.waits⟩
  | submit ht _ hp => exact hq.submit ht (by simp [hp])
  | finish ht => exact hq.finish ht (by rfl) _
  | reply ht hp => exact hq.setTask ht _ (by simp [hp])
  | report ht =>
    refine collect ?_ _ _
    exact hq.setTask ht _ Iff.rfl
  | cancel => exact ⟨hq.nodup, hq.waits⟩
  | dropHandle => exact ⟨hq.nodup, hq.waits⟩

end QueueSound

/-- **The queue is sound in every state.** -/
theorem queueSound_run (maxConcurrency : Nat) (programs : List CaseProgram)
    (events : List Event) : ((start maxConcurrency programs).run events).QueueSound := by
  induction events using List.reverseRecOn with
  | nil => exact .start maxConcurrency programs
  | append_singleton events event ih =>
    rw [run_append_singleton]
    exact ih.transition (step_transition _ event)

/-- What holds at the start and is kept by the transitions of sound dispatches always holds. -/
theorem invariant_run {P : Dispatch → Prop} (maxConcurrency : Nat) (programs : List CaseProgram)
    (hstart : P (start maxConcurrency programs))
    (hstep : ∀ d event after, d.QueueSound → Transition d event after → P d → P after)
    (events : List Event) : P ((start maxConcurrency programs).run events) := by
  induction events using List.reverseRecOn with
  | nil => exact hstart
  | append_singleton events event ih =>
    have hq := queueSound_run maxConcurrency programs events
    rw [run_append_singleton]
    exact hstep _ event _ hq (step_transition _ event) ih

/-! ## The number of permits -/

/-- The number of tasks that hold a permit. -/
def held (d : Dispatch) : Nat :=
  d.tasks.countP (·.phase.holdsPermit)

/-- The number of permits, free or held. -/
def permitCount (d : Dispatch) : Nat :=
  d.permits.free + d.held

theorem held_setTask (ht : d.tasks[i]? = some task) (next : Task) :
    (d.setTask i next).held + task.phase.holdsPermit.toNat =
      d.held + next.phase.holdsPermit.toNat :=
  countP_setTask (·.phase.holdsPermit) ht

theorem permitCount_setTask (ht : d.tasks[i]? = some task) (next : Task)
    (h : next.phase.holdsPermit = task.phase.holdsPermit) :
    (d.setTask i next).permitCount = d.permitCount := by
  have hset := held_setTask ht next
  rw [h] at hset
  rw [permitCount, setTask_permits, Nat.add_right_cancel hset, permitCount]

/-- A permit that is given back is free, or a task that had none has it. -/
theorem permitCount_release (hq : d.QueueSound) : d.release.permitCount = d.permitCount + 1 := by
  cases h : d.permits.queue with
  | nil =>
    rw [release_nil h]
    show d.permits.free + 1 + d.held = d.permits.free + d.held + 1
    omega
  | cons j rest =>
    obtain ⟨waiting, hw, hphase, heq⟩ := release_cons hq h
    have hset := held_setTask hw { waiting with phase := .granted }
    simp only [hphase, Phase.holdsPermit, Bool.toNat_true, Bool.toNat_false] at hset
    rw [heq]
    show d.permits.free + (d.setTask j { waiting with phase := .granted }).held = _
    rw [permitCount, Nat.add_assoc, ← hset, Nat.add_zero]

theorem permitCount_finish (hq : d.QueueSound) (ht : d.tasks[i]? = some task)
    (h : next.phase = task.phase) (ending : Ending) :
    (d.finish i next ending).permitCount = d.permitCount := by
  unfold Dispatch.finish
  rw [h]
  cases hp : task.phase with
  | fresh | ended =>
    exact permitCount_setTask ht _ (by simp [hp, Phase.holdsPermit])
  | queued =>
    exact permitCount_setTask ht { next with phase := .ended ending }
      (by simp [hp, Phase.holdsPermit])
  | granted | inFlight | answered =>
    have hset := held_setTask ht { next with phase := .ended ending }
    have hended : (d.setTask i { next with phase := .ended ending }).QueueSound :=
      hq.setTask ht _ (by simp [hp])
    simp only [hp, Phase.holdsPermit, Bool.toNat_true, Bool.toNat_false] at hset
    show (d.setTask i { next with phase := .ended ending }).release.permitCount = _
    rw [permitCount_release hended, permitCount, permitCount, setTask_permits, Nat.add_assoc, hset,
      Nat.add_zero]

theorem permitCount_collect (id : Nat) (ending : Ending) :
    (d.collect id ending).permitCount = d.permitCount := by
  unfold collect
  split
  · rfl
  · split <;> rfl

/-- **No event makes or loses a permit.** -/
theorem permitCount_transition (hq : d.QueueSound) {event : Event} {after : Dispatch}
    (h : Transition d event after) : after.permitCount = d.permitCount := by
  cases h with
  | nothing => rfl
  | spawn => simp [permitCount, held, Phase.holdsPermit]
  | wait ht => exact permitCount_setTask ht _ rfl
  | @enqueue i task ht _ hp =>
    exact permitCount_setTask ht { task.looked d.flag with phase := .queued }
      (by simp [hp, Phase.holdsPermit])
  | @take i task ht _ hp hfree =>
    have hset := held_setTask ht { task.looked d.flag with phase := .inFlight }
    simp only [hp, Phase.holdsPermit, Bool.toNat_true, Bool.toNat_false, Nat.add_zero] at hset
    show d.permits.free - 1 + (d.setTask i { task.looked d.flag with phase := .inFlight }).held = _
    rw [hset, permitCount]
    omega
  | @submit i task ht _ hp =>
    exact permitCount_setTask ht { task.looked d.flag with phase := .inFlight }
      (by simp [hp, Phase.holdsPermit])
  -- whether it held a permit or waited for one, nothing is lost
  | finish ht => exact permitCount_finish hq ht (by rfl) _
  | reply ht hp => exact permitCount_setTask ht _ (by simp [hp, Phase.holdsPermit])
  | report ht =>
    rw [permitCount_collect]
    exact permitCount_setTask ht _ rfl
  | cancel => rfl
  | dropHandle => rfl

/-- **The permits, free and held, are as many as at the start.** -/
theorem permitCount_run (maxConcurrency : Nat) (programs : List CaseProgram)
    (events : List Event) :
    ((start maxConcurrency programs).run events).permitCount = max 1 maxConcurrency :=
  invariant_run (P := fun d => d.permitCount = max 1 maxConcurrency) maxConcurrency programs rfl
    (fun _ _ _ hq h ih => (permitCount_transition hq h).trans ih) events

end StructuredCall.Dispatch
