import Mathlib.Data.List.Perm.Subperm
import StructuredCall.Proofs.Dispatch.Task

/-!
# Submissions

A task submits its request when it gets a permit, and only then, so no request is submitted
twice (`Submitted.nodup`), and the requests that are open are not more than the permits
(`bounded_concurrency`).
-/

namespace StructuredCall.Dispatch

variable {d after : Dispatch} {event : Event} {i : Nat} {task next : Task}

/-- Whether a request is with the sandbox and no reply is there. -/
def Phase.isOpen : Phase → Bool
  | inFlight => true
  | fresh | queued | granted | answered _ | ended _ => false

/-- The requests that were submitted and neither answered nor given up since. -/
def openRequests (d : Dispatch) : List Submission :=
  d.submitted.filter fun submission => (d.phase? submission.task).any (·.isOpen)

/-- What was submitted agrees with how far the tasks are. -/
structure Submitted (d : Dispatch) : Prop where
  nodup : (d.submitted.map (·.task)).Nodup
  /-- A request belongs to a task that is past its submission. -/
  sent : ∀ submission ∈ d.submitted, ∃ task, d.tasks[submission.task]? = some task ∧
    submission.request = task.program.request ∧
    (task.phase.isSubmitted = true ∨ task.phase.isEnded = true)
  /-- A task that waits for a reply has submitted its request. -/
  waits : ∀ i task, d.tasks[i]? = some task → task.phase.isSubmitted = true →
    ⟨i, task.program.request⟩ ∈ d.submitted

/-! ## What one event submits -/

theorem Change.submitted (h : Change d i task event next)
    (hp : task.phase.isSubmitted = true ∨ task.phase.isEnded = true) :
    next.phase.isSubmitted = true ∨ next.phase.isEnded = true := by
  cases h with
  | same | wait | report => exact hp
  | grant hphase | enqueue _ hphase => simp [hphase, Phase.isSubmitted, Phase.isEnded] at hp
  | submit | reply => exact .inl rfl
  | finish => exact .inr rfl

namespace Transition

/-- An event submits nothing, or the request of one task, which gets as far as that by it. -/
theorem submits (h : Transition d event after) : after.submitted = d.submitted ∨
    ∃ i task, d.tasks[i]? = some task ∧ event = .poll i ∧ task.isCancelled d.flag = false ∧
      (task.phase = .fresh ∨ task.phase = .granted) ∧
      after.tasks[i]? = some { task.looked d.flag with phase := .inFlight } ∧
      after.submitted = d.submitted ++ [⟨i, task.program.request⟩] := by
  cases h with
  | take ht hc hp =>
    exact .inr ⟨_, _, ht, rfl, hc, .inl hp, (task_setTask ht).trans (by rw [if_pos rfl]), rfl⟩
  | submit ht hc hp =>
    exact .inr ⟨_, _, ht, rfl, hc, .inr hp, (task_setTask ht).trans (by rw [if_pos rfl]), rfl⟩
  | finish => exact .inl (by rw [finish_eq])
  | report => exact .inl (by rw [collect_eq]; rfl)
  | nothing | spawn | wait | enqueue | reply | cancel | dropHandle => exact .inl rfl

/-- A task that gets as far as waiting for a reply has its request submitted. -/
theorem submitted_of_inFlight (hq : d.QueueSound) (h : Transition d (.poll i) after)
    (ht : d.tasks[i]? = some task) (hp : task.phase = .fresh ∨ task.phase = .granted)
    (hnext : after.tasks[i]? = some next) (hn : next.phase = .inFlight) :
    after.submitted = d.submitted ++ [⟨i, task.program.request⟩] := by
  cases h with
  | nothing =>
    cases ht.symm.trans hnext
    simp [hn] at hp
  -- it stays where it is, which is not in flight
  | wait ht' =>
    cases ht.symm.trans ht'
    rw [task_setTask ht, if_pos rfl] at hnext
    cases hnext
    simp [show task.phase = _ from hn] at hp
  | enqueue ht' =>
    have hset : (d.setTask i _).tasks[i]? = some next := hnext
    rw [task_setTask ht, if_pos rfl] at hset
    cases hset
    simp at hn
  | take ht' | submit ht' =>
    cases ht.symm.trans ht'
    rfl
  | finish ht' =>
    rw [finish_self hq ht' (looked_phase _ d.flag)] at hnext
    cases hnext
    simp at hn

theorem submitted_subset (h : Transition d event after) : d.submitted ⊆ after.submitted := by
  obtain heq | ⟨_, _, -, -, -, -, -, heq⟩ := h.submits
  · exact heq ▸ List.Subset.refl _
  · exact heq ▸ List.subset_append_left _ _

end Transition

/-! ## What a run submits -/

namespace Submitted

theorem start (maxConcurrency : Nat) (programs : List CaseProgram) :
    (start maxConcurrency programs).Submitted :=
  ⟨List.nodup_nil, by simp [Dispatch.start], by simp [Dispatch.start]⟩

theorem not_mem (hs : d.Submitted) (ht : d.tasks[i]? = some task)
    (hp : task.phase = .fresh ∨ task.phase = .granted) : i ∉ d.submitted.map (·.task) := by
  intro hmem
  obtain ⟨submission, hsubmission, rfl⟩ := List.mem_map.mp hmem
  obtain ⟨sender, hsender, -, hphase⟩ := hs.sent submission hsubmission
  cases ht.symm.trans hsender
  rcases hp with hp | hp <;> simp [hp, Phase.isSubmitted, Phase.isEnded] at hphase

theorem nodup_transition (hs : d.Submitted) (h : Transition d event after) :
    (after.submitted.map (·.task)).Nodup := by
  obtain heq | ⟨i, task, ht, -, -, hp, -, heq⟩ := h.submits
  · rw [heq]
    exact hs.nodup
  · rw [heq, List.map_append, List.map_singleton, ← List.concat_eq_append]
    exact hs.nodup.concat (hs.not_mem ht hp)

theorem sent_transition (hs : d.Submitted) (hq : d.QueueSound) (h : Transition d event after) :
    ∀ submission ∈ after.submitted, ∃ task, after.tasks[submission.task]? = some task ∧
      submission.request = task.program.request ∧
      (task.phase.isSubmitted = true ∨ task.phase.isEnded = true) := by
  have hold : ∀ submission ∈ d.submitted, ∃ task, after.tasks[submission.task]? = some task ∧
      submission.request = task.program.request ∧
      (task.phase.isSubmitted = true ∨ task.phase.isEnded = true) := by
    intro submission hmem
    obtain ⟨task, ht, hrequest, hphase⟩ := hs.sent submission hmem
    obtain ⟨next, hnext, hchange⟩ := h.change hq ht
    exact ⟨next, hnext, by rw [hrequest, hchange.program_eq], hchange.submitted hphase⟩
  obtain heq | ⟨i, task, ht, -, -, -, hnext, heq⟩ := h.submits
  · exact heq ▸ hold
  · intro submission hmem
    rw [heq, List.mem_append, List.mem_singleton] at hmem
    obtain hmem | rfl := hmem
    · exact hold submission hmem
    · exact ⟨_, hnext, rfl, .inl rfl⟩

theorem waits_transition (hs : d.Submitted) (hq : d.QueueSound) (h : Transition d event after)
    (hnext : after.tasks[i]? = some next) (hp : next.phase.isSubmitted = true) :
    ⟨i, next.program.request⟩ ∈ after.submitted := by
  obtain ⟨task, ht, hchange⟩ | ⟨id, program, rest, -, -, -, rfl⟩ := h.origin hq hnext
  · have hold (hphase : task.phase.isSubmitted = true) :
        ⟨i, task.program.request⟩ ∈ after.submitted :=
      h.submitted_subset (hs.waits i task ht hphase)
    rw [hchange.program_eq]
    cases hchange with
    | same | wait | report => exact hold hp
    | reply hphase => exact hold (by simp [hphase, Phase.isSubmitted])
    | submit _ hphase =>
      rw [h.submitted_of_inFlight hq ht hphase hnext rfl]
      exact List.mem_append_right _ (List.mem_singleton.mpr rfl)
    | grant | enqueue | finish => simp [Phase.isSubmitted] at hp
  · simp [Phase.isSubmitted] at hp

theorem transition (hs : d.Submitted) (hq : d.QueueSound) (h : Transition d event after) :
    after.Submitted :=
  ⟨hs.nodup_transition h, hs.sent_transition hq h, fun _ _ ht hp => hs.waits_transition hq h ht hp⟩

end Submitted

theorem submitted_run (maxConcurrency : Nat) (programs : List CaseProgram)
    (events : List Event) : ((start maxConcurrency programs).run events).Submitted :=
  invariant_run maxConcurrency programs (.start maxConcurrency programs)
    (fun _ _ _ hq h ih => ih.transition hq h) events

/-! ## Bounded concurrency -/

theorem map_range_tasks (d : Dispatch) :
    (List.range d.tasks.length).map (d.tasks[·]?) = d.tasks.map some := by
  refine List.ext_getElem (by simp) fun i h _ => ?_
  simp at h ⊢

theorem inFlight_eq (d : Dispatch) :
    d.inFlight = ((List.range d.tasks.length).filter fun i =>
      (d.phase? i).any (·.isSubmitted)).length := by
  have hsome : d.inFlight = (d.tasks.map some).countP fun task? =>
      (task?.map (·.phase)).any (·.isSubmitted) := by
    rw [List.countP_map]
    rfl
  rw [hsome, ← map_range_tasks, List.countP_map, List.countP_eq_length_filter]
  rfl

/-- Open requests belong to different tasks, each of which has a request with the sandbox. -/
theorem length_openRequests_le (hs : d.Submitted) : d.openRequests.length ≤ d.inFlight := by
  have hnodup : (d.openRequests.map (·.task)).Nodup :=
    hs.nodup.sublist (List.filter_sublist.map _)
  have hsub : d.openRequests.map (·.task) ⊆
      (List.range d.tasks.length).filter fun i => (d.phase? i).any (·.isSubmitted) := by
    intro i hi
    obtain ⟨submission, hsubmission, rfl⟩ := List.mem_map.mp hi
    obtain ⟨hmem, hopen⟩ := List.mem_filter.mp hsubmission
    obtain ⟨task, ht, -, -⟩ := hs.sent submission hmem
    obtain ⟨hlt, -⟩ := List.getElem?_eq_some_iff.mp ht
    rw [phase?_of_task ht] at hopen
    refine List.mem_filter.mpr ⟨List.mem_range.mpr hlt, ?_⟩
    rw [phase?_of_task ht]
    cases hp : task.phase <;> simp [hp, Phase.isOpen, Phase.isSubmitted] at hopen ⊢
  rw [inFlight_eq, ← List.length_map (·.task)]
  exact (List.subperm_of_subset hnodup hsub).length_le

theorem inFlight_le_held (d : Dispatch) : d.inFlight ≤ d.held := by
  refine List.countP_mono_left fun task _ h => ?_
  cases hp : task.phase <;> simp [hp, Phase.isSubmitted, Phase.holdsPermit] at h ⊢

theorem inFlight_le (maxConcurrency : Nat) (programs : List CaseProgram) (events : List Event) :
    ((start maxConcurrency programs).run events).inFlight ≤ max 1 maxConcurrency := by
  rw [← permitCount_run maxConcurrency programs events]
  exact Nat.le_trans (inFlight_le_held _) (Nat.le_add_left _ _)

/-- **No more requests are open than there may be, and no permit is lost or made.** -/
theorem bounded_concurrency (maxConcurrency : Nat) (programs : List CaseProgram)
    (events : List Event) :
    let d := (start maxConcurrency programs).run events
    d.openRequests.length ≤ max 1 maxConcurrency ∧ d.inFlight ≤ max 1 maxConcurrency ∧
      d.permits.free + d.held = max 1 maxConcurrency := by
  intro d
  have hinFlight : d.inFlight ≤ max 1 maxConcurrency := inFlight_le maxConcurrency programs events
  have hopen : d.openRequests.length ≤ d.inFlight :=
    length_openRequests_le (submitted_run maxConcurrency programs events)
  have hcount : d.permits.free + d.held = max 1 maxConcurrency :=
    permitCount_run maxConcurrency programs events
  exact ⟨Nat.le_trans hopen hinFlight, hinFlight, hcount⟩

end StructuredCall.Dispatch
