import StructuredCall.Proofs.Dispatch.Report
import StructuredCall.Proofs.Dispatch.Submission

/-!
# Cancellation

**Theorem (`cancellation_safety`).** Once a dispatch is cancelled, no request is submitted any
more, the tasks that have ended keep their results, and all others end as cancelled. A dispatch
that is never cancelled has no cancelled outcome, also when the handle is gone.

A task does not look at the flag itself but at how the flag has changed since it last looked. What
has to be shown is that a task that has not ended always finds the flag as it is
(`isCancelled_eq_raised`). It holds because a task that finds the flag raised ends there and then:
one that goes on has read the flag before it was written, or waits for nothing because the handle
was gone when nothing had been written.
-/

namespace StructuredCall

/-! ## Watching the flag -/

namespace CancelFlag

/-- The flag was written if and only if it is raised. -/
def Sound (flag : CancelFlag) : Prop :=
  flag.raised = true ↔ flag.version ≠ 0

/-- What a task that goes on knows of the flag. -/
def WatchedBy (flag : CancelFlag) : Watch → Prop
  | .unread => True
  | .read version => version = 0
  | .forever => flag.closed = true ∧ flag.raised = false

variable {flag : CancelFlag} {watch : Watch}

theorem Sound.cancel (h : flag.Sound) : flag.cancel.Sound := by
  unfold CancelFlag.cancel
  split
  · exact h
  · exact iff_of_true rfl (Nat.succ_ne_zero _)

theorem WatchedBy.cancel (h : flag.WatchedBy watch) : flag.cancel.WatchedBy watch := by
  cases watch with
  | unread | read => exact h
  | forever =>
    unfold CancelFlag.cancel
    rw [if_pos h.1]
    exact h

theorem WatchedBy.close (h : flag.WatchedBy watch) : flag.close.WatchedBy watch := by
  cases watch with
  | unread | read => exact h
  | forever => exact ⟨rfl, h.2⟩

theorem read_fst (flag : CancelFlag) : flag.read.1 = flag.raised := by
  unfold CancelFlag.read
  split
  · next h => exact h.symm
  · next h => split <;> exact (Bool.eq_false_iff.mpr h).symm

theorem look_fst (hf : flag.Sound) (hw : flag.WatchedBy watch) :
    (flag.look watch).1 = flag.raised := by
  cases watch with
  | unread => exact read_fst flag
  | read version =>
    obtain rfl : version = 0 := hw
    simp only [look]
    split
    · exact read_fst flag
    · next hversion =>
      have hraised : flag.raised = false := by
        rw [Bool.eq_false_iff]
        exact fun h => hversion (Ne.symm (hf.mp h))
      rw [hraised]
      split <;> rfl
  | forever => exact hw.2.symm

/-- A task that finds the flag not raised knows no more of it than that. -/
theorem look_snd (hf : flag.Sound) (hraised : flag.raised = false) (hw : flag.WatchedBy watch) :
    flag.WatchedBy (flag.look watch).2 := by
  have hversion : flag.version = 0 := by
    by_contra h
    rw [hf.mpr h] at hraised
    cases hraised
  have hread : flag.WatchedBy flag.read.2 := by
    unfold CancelFlag.read
    rw [hraised]
    split
    · next h => cases h
    · split
      · next hclosed => exact ⟨hclosed, hraised⟩
      · exact hversion
  cases watch with
  | unread => exact hread
  | read version =>
    simp only [look]
    split
    · exact hread
    · split
      · next hclosed => exact ⟨hclosed, hraised⟩
      · exact hw
  | forever => exact hw

end CancelFlag

/-- Whether an outcome is that of a cancellation. -/
def Outcome.IsCancelled (outcome : Outcome) : Prop :=
  ∃ caseNo, outcome.result = .error (.cancelled caseNo)

/-- The outcome of a program that was withdrawn. -/
def CaseProgram.withdrawn (program : CaseProgram) : Outcome :=
  ⟨program.caseNo, program.caseId, .error (.cancelled program.caseNo)⟩

namespace Dispatch

variable {d after : Dispatch} {event : Event} {i : Nat} {task next : Task}
variable {maxConcurrency : Nat} {programs : List CaseProgram} {events : List Event}

/-! ## The flag of a dispatch -/

/-- Events that are not about the flag leave it alone. -/
theorem Transition.flag_cases (h : Transition d event after) : after.flag = d.flag ∨
    event = .cancel ∧ after.flag = d.flag.cancel ∨
    event = .dropHandle ∧ after.flag = d.flag.close := by
  cases h with
  | finish => exact .inl (by rw [finish_eq])
  | report => exact .inl (by rw [collect_eq]; rfl)
  | cancel => exact .inr (.inl ⟨rfl, rfl⟩)
  | dropHandle => exact .inr (.inr ⟨rfl, rfl⟩)
  | nothing | spawn | wait | enqueue | take | submit | reply => exact .inl rfl

theorem Transition.watchedBy {watch : CancelFlag.Watch} (h : Transition d event after)
    (hw : d.flag.WatchedBy watch) : after.flag.WatchedBy watch := by
  obtain heq | ⟨-, heq⟩ | ⟨-, heq⟩ := h.flag_cases
  · exact heq ▸ hw
  · exact heq ▸ hw.cancel
  · exact heq ▸ hw.close

theorem Transition.raised (h : Transition d event after) (hr : d.flag.raised = true) :
    after.flag.raised = true := by
  obtain heq | ⟨-, heq⟩ | ⟨-, heq⟩ := h.flag_cases
  · rw [heq, hr]
  · rw [heq, CancelFlag.cancel]
    split
    · exact hr
    · rfl
  · rw [heq]
    exact hr

theorem Transition.flag_sound (h : Transition d event after) (hf : d.flag.Sound) :
    after.flag.Sound := by
  obtain heq | ⟨-, heq⟩ | ⟨-, heq⟩ := h.flag_cases
  · exact heq ▸ hf
  · exact heq ▸ hf.cancel
  · rw [heq]
    exact hf

theorem flag_sound_run (maxConcurrency : Nat) (programs : List CaseProgram)
    (events : List Event) : ((start maxConcurrency programs).run events).flag.Sound :=
  invariant_run (P := fun d => d.flag.Sound) maxConcurrency programs
    (iff_of_false nofun fun h => h rfl) (fun _ _ _ _ h ih => h.flag_sound ih) events

theorem closed_run (h : .dropHandle ∉ events) :
    ((start maxConcurrency programs).run events).flag.closed = false := by
  induction events using List.reverseRecOn with
  | nil => rfl
  | append_singleton events event ih =>
    rw [List.mem_append, List.mem_singleton, not_or] at h
    have hstep := step_transition ((start maxConcurrency programs).run events) event
    rw [run_append_singleton]
    obtain heq | ⟨-, heq⟩ | ⟨rfl, -⟩ := hstep.flag_cases
    · rw [heq, ih h.1]
    · rw [heq, CancelFlag.cancel, if_neg (by rw [ih h.1]; exact Bool.false_ne_true)]
      exact ih h.1
    · exact absurd rfl h.2

theorem raised_run (h : .cancel ∉ events) :
    ((start maxConcurrency programs).run events).flag.raised = false := by
  induction events using List.reverseRecOn with
  | nil => rfl
  | append_singleton events event ih =>
    rw [List.mem_append, List.mem_singleton, not_or] at h
    have hstep := step_transition ((start maxConcurrency programs).run events) event
    rw [run_append_singleton]
    obtain heq | ⟨rfl, -⟩ | ⟨-, heq⟩ := hstep.flag_cases
    · rw [heq, ih h.1]
    · exact absurd rfl h.2
    · rw [heq]
      exact ih h.1

/-! ## What tasks know of the flag -/

theorem Change.not_isEnded (h : Change d i task event next) (hnext : next.phase.isEnded = false) :
    task.phase.isEnded = false := by
  by_contra hended
  obtain ⟨ending, hending⟩ := Phase.isEnded_iff.mp (Bool.not_eq_false _ ▸ hended)
  simp [h.ended hending, Phase.isEnded] at hnext

/-- A task that goes on has found the flag not raised, or not looked at it. -/
theorem Change.watch_cases (h : Change d i task event next) (hnext : next.phase.isEnded = false) :
    next.watch = task.watch ∨
    task.isCancelled d.flag = false ∧ next.watch = (d.flag.look task.watch).2 := by
  cases h with
  | same | grant | reply | report => exact .inl rfl
  | wait hc | enqueue hc | submit hc => exact .inr ⟨hc, rfl⟩
  | finish => cases hnext

theorem watchedBy_run (ht : ((start maxConcurrency programs).run events).tasks[i]? = some task)
    (hp : task.phase.isEnded = false) :
    ((start maxConcurrency programs).run events).flag.WatchedBy task.watch := by
  refine task_induction maxConcurrency programs
    (P := fun events _ task => task.phase.isEnded = false →
      ((start maxConcurrency programs).run events).flag.WatchedBy task.watch)
    (fun _ _ _ _ _ => trivial) ?_ ht hp
  intro events event i task next ht hchange ih hnext
  have hf := flag_sound_run maxConcurrency programs events
  have hw := ih (hchange.not_isEnded hnext)
  rw [run_append_singleton]
  refine (step_transition _ event).watchedBy ?_
  obtain hwatch | ⟨hc, hwatch⟩ := hchange.watch_cases hnext
  · exact hwatch ▸ hw
  · rw [hwatch]
    exact CancelFlag.look_snd hf ((CancelFlag.look_fst hf hw).symm.trans hc) hw

/-- **A task that goes on finds the flag as it is.** -/
theorem isCancelled_eq_raised
    (ht : ((start maxConcurrency programs).run events).tasks[i]? = some task)
    (hp : task.phase.isEnded = false) :
    task.isCancelled ((start maxConcurrency programs).run events).flag =
      ((start maxConcurrency programs).run events).flag.raised :=
  CancelFlag.look_fst (flag_sound_run maxConcurrency programs events) (watchedBy_run ht hp)

/-! ## After a cancellation -/

section Raised

variable {more : List Event} {ending : Ending}

theorem raised_append (h : ((start maxConcurrency programs).run events).flag.raised = true) :
    ((start maxConcurrency programs).run (events ++ more)).flag.raised = true := by
  induction more using List.reverseRecOn with
  | nil => rwa [List.append_nil]
  | append_singleton more event ih =>
    rw [← List.append_assoc, run_append_singleton]
    exact (step_transition _ event).raised ih

/-- A task that gets as far as its submission finds the flag not raised. -/
theorem submitted_append (h : ((start maxConcurrency programs).run events).flag.raised = true) :
    ((start maxConcurrency programs).run (events ++ more)).submitted =
      ((start maxConcurrency programs).run events).submitted := by
  induction more using List.reverseRecOn with
  | nil => rw [List.append_nil]
  | append_singleton more event ih =>
    have hstep := step_transition ((start maxConcurrency programs).run (events ++ more)) event
    rw [← List.append_assoc, run_append_singleton]
    obtain heq | ⟨i, task, ht, -, hc, hp, -, -⟩ := hstep.submits
    · rw [heq, ih]
    · have hended : task.phase.isEnded = false := by rcases hp with hp | hp <;> rw [hp] <;> rfl
      rw [isCancelled_eq_raised ht hended, raised_append h] at hc
      cases hc

theorem Change.concludes (h : Change d i task event next) (hp : task.phase.isEnded = false)
    (hnext : next.phase = .ended ending) : Concludes d.flag task ending := by
  cases h with
  | finish _ hends =>
    obtain rfl := Phase.ended.inj hnext
    exact hends
  | same | wait | report => simp [show task.phase = _ from hnext, Phase.isEnded] at hp
  | grant | enqueue | submit | reply => cases hnext

/-- **A task that ends after a cancellation ends as cancelled.** -/
theorem ended_append (h : ((start maxConcurrency programs).run events).flag.raised = true)
    (ht : ((start maxConcurrency programs).run (events ++ more)).tasks[i]? = some task)
    (hp : task.phase = .ended ending) :
    ((start maxConcurrency programs).run events).ending? i = some ending ∨
      ending = .returned task.program.withdrawn := by
  -- The last event ends the task or finds it ended; then it ended the same way before.
  induction more using List.reverseRecOn generalizing task with
  | nil =>
    rw [List.append_nil] at ht
    exact .inl ((ending?_of_task ht).trans (Phase.ending?_eq_some_iff.mpr hp))
  | append_singleton more event ih =>
    rw [← List.append_assoc, run_append_singleton] at ht
    have hq := queueSound_run maxConcurrency programs (events ++ more)
    obtain ⟨before, hbefore, hchange⟩ | ⟨id, program, rest, -, -, -, rfl⟩ :=
      (step_transition _ event).origin hq ht
    · cases hended : before.phase.isEnded with
      | true =>
        obtain ⟨other, hother⟩ := Phase.isEnded_iff.mp hended
        obtain rfl : other = ending := Phase.ended.inj ((hchange.ended hother).symm.trans hp)
        rw [hchange.program_eq]
        exact ih hbefore hother
      | false =>
        have hraised := isCancelled_eq_raised hbefore hended
        rw [raised_append h] at hraised
        rw [hchange.program_eq]
        cases hchange.concludes hended hp with
        | cancelled => exact .inr rfl
        | answered hc | crashed hc =>
          rw [hraised] at hc
          cases hc
    · cases hp

/-- A task that has not ended ends as soon as it goes on. -/
theorem isSome_ending?_poll (h : ((start maxConcurrency programs).run events).flag.raised = true)
    (ht : ((start maxConcurrency programs).run events).tasks[i]? = some task) :
    ((((start maxConcurrency programs).run events).step (.poll i)).ending? i).isSome = true := by
  have hq := queueSound_run maxConcurrency programs events
  have hraised := isCancelled_eq_raised ht
  generalize (start maxConcurrency programs).run events = d at *
  simp only [step, ht]
  cases hended : task.phase.isEnded with
  | true => exact isSome_ending? ht hended
  | false =>
    have hcancelled : task.isCancelled d.flag = true := (hraised hended).trans h
    unfold poll
    rw [if_neg Bool.false_ne_true, if_pos hcancelled]
    exact isSome_ending? (finish_self hq ht (looked_phase task d.flag) _) rfl

end Raised

/-! ## Without a cancellation -/

/-- A task that does not find the flag raised comes to no cancelled outcome. -/
theorem Concludes.not_isCancelled {flag : CancelFlag} {ending : Ending}
    (h : Concludes flag task ending) (hc : task.isCancelled flag = false) :
    ¬ (ending.outcome task.program).IsCancelled := by
  rintro ⟨caseNo, hresult⟩
  cases h with
  | cancelled hc' =>
    rw [hc] at hc'
    cases hc'
  | @answered answer => cases answer <;> cases hresult
  | crashed => cases hresult

theorem not_isCancelled_of_not_mem (h : .cancel ∉ events)
    (ht : ((start maxConcurrency programs).run events).tasks[i]? = some task) {outcome : Outcome}
    (hverdict : task.verdict = some outcome) : ¬ outcome.IsCancelled := by
  refine task_induction maxConcurrency programs
    (P := fun events _ task => .cancel ∉ events → ∀ outcome, task.verdict = some outcome →
      ¬ outcome.IsCancelled)
    (fun _ _ _ _ _ _ h => by cases h) ?_ ht h outcome hverdict
  intro events event i task next ht hchange ih hmem outcome hverdict
  have hbefore : .cancel ∉ events := fun h => hmem (List.mem_append_left _ h)
  cases hended : task.phase.isEnded with
  | true => exact ih hbefore outcome (hchange.verdict_eq hended ▸ hverdict)
  | false =>
    obtain ⟨ending, hending, rfl⟩ := Option.map_eq_some_iff.mp hverdict
    rw [hchange.program_eq]
    refine (hchange.concludes hended (Phase.ending?_eq_some_iff.mp hending)).not_isCancelled ?_
    rw [isCancelled_eq_raised ht hended, raised_run hbefore]

/-! ## Safety -/

variable {pre post : List Event}

theorem raised_cancel (hhandle : .dropHandle ∉ pre) :
    ((start maxConcurrency programs).run (pre ++ [.cancel])).flag.raised = true := by
  rw [run_append_singleton]
  show ((start maxConcurrency programs).run pre).flag.cancel.raised = true
  rw [CancelFlag.cancel, if_neg (by rw [closed_run hhandle]; exact Bool.false_ne_true)]

theorem ended_of_cancel (hhandle : .dropHandle ∉ pre) {ending : Ending}
    (ht : ((start maxConcurrency programs).run (pre ++ .cancel :: post)).tasks[i]? = some task)
    (hp : task.phase.ending? = some ending) :
    ((start maxConcurrency programs).run pre).ending? i = some ending ∨
      ending = .returned task.program.withdrawn := by
  rw [List.append_cons] at ht
  obtain hended | hended :=
    ended_append (raised_cancel hhandle) ht (Phase.ending?_eq_some_iff.mp hp)
  · rw [run_append_singleton] at hended
    exact .inl hended
  · exact .inr hended

/-- What a task that has ended after a cancellation says of its program. -/
theorem outcome_of_cancel (hhandle : .dropHandle ∉ pre) {outcome : Outcome}
    (ht : ((start maxConcurrency programs).run (pre ++ .cancel :: post)).tasks[i]? = some task)
    (hverdict : task.verdict = some outcome) :
    (∀ ending, ((start maxConcurrency programs).run pre).ending? i = some ending →
      outcome = ending.outcome task.program) ∧
    (((start maxConcurrency programs).run pre).ending? i = none →
      outcome = task.program.withdrawn) := by
  obtain ⟨ending, hp, rfl⟩ := Option.map_eq_some_iff.mp hverdict
  refine ⟨fun other hother => ?_, fun hbefore => ?_⟩
  · have hsame : ((start maxConcurrency programs).run (pre ++ .cancel :: post)).ending? i = _ :=
      ending?_append hother
    rw [ending?_of_task ht, hp] at hsame
    rw [Option.some_inj.mp hsame]
  · obtain hended | rfl := ended_of_cancel hhandle ht hp
    · rw [hbefore] at hended
      cases hended
    · rfl

/-- **Cancellation is safe.** -/
theorem cancellation_safety (maxConcurrency : Nat) (programs : List CaseProgram) :
    (∀ pre post, .dropHandle ∉ pre →
      let before := (start maxConcurrency programs).run pre
      let after := (start maxConcurrency programs).run (pre ++ .cancel :: post)
      after.submitted = before.submitted ∧
      (∀ i ending, before.ending? i = some ending → after.ending? i = some ending) ∧
      (∀ i program ending, programs[i]? = some program → before.ending? i = none →
        after.ending? i = some ending → ending = .returned program.withdrawn) ∧
      (∀ i < after.tasks.length, ((after.step (.poll i)).ending? i).isSome = true) ∧
      ∀ outcomes, after.result? = some outcomes →
        ∃ results, outcomes.Perm results ∧ results.length = programs.length ∧
          ∀ i program outcome, programs[i]? = some program → results[i]? = some outcome →
            (∀ ending, before.ending? i = some ending → outcome = ending.outcome program) ∧
            (before.ending? i = none → outcome = program.withdrawn)) ∧
    ∀ events, .cancel ∉ events →
      let d := (start maxConcurrency programs).run events
      (∀ i program ending, programs[i]? = some program → d.ending? i = some ending →
        ¬ (ending.outcome program).IsCancelled) ∧
      ∀ outcomes, d.result? = some outcomes → ∀ outcome ∈ outcomes, ¬ outcome.IsCancelled := by
  refine ⟨fun pre post hhandle => ⟨?_, ?_, ?_, ?_, ?_⟩, fun events hcancel => ⟨?_, ?_⟩⟩
  · rw [List.append_cons, submitted_append (raised_cancel hhandle), run_append_singleton]
    rfl
  · intro i ending hending
    exact ending?_append hending
  · intro i program ending hprogram hbefore hafter
    obtain ⟨task, ht, hp⟩ := task_of_ending? hafter
    obtain rfl := Option.some_inj.mp (hprogram.symm.trans (getElem?_programs ht))
    obtain hended | hended := ended_of_cancel hhandle ht hp
    · rw [hbefore] at hended
      cases hended
    · exact hended
  · intro i hi
    refine isSome_ending?_poll ?_ (List.getElem?_eq_getElem hi)
    rw [List.append_cons]
    exact raised_append (raised_cancel hhandle)
  · intro outcomes houtcomes
    obtain ⟨results, hperm, hlen, hresults⟩ := results_of_result? houtcomes
    refine ⟨results, hperm, hlen, fun i program outcome hprogram houtcome => ?_⟩
    obtain ⟨task, ht, hverdict⟩ := hresults i outcome houtcome
    obtain rfl := Option.some_inj.mp (hprogram.symm.trans (getElem?_programs ht))
    exact outcome_of_cancel hhandle ht hverdict
  · intro i program ending hprogram hending
    obtain ⟨task, ht, hp⟩ := task_of_ending? hending
    obtain rfl := Option.some_inj.mp (hprogram.symm.trans (getElem?_programs ht))
    refine not_isCancelled_of_not_mem hcancel ht ?_
    rw [Task.verdict, hp]
    rfl
  · intro outcomes houtcomes outcome hmem
    obtain ⟨results, hperm, -, hresults⟩ := results_of_result? houtcomes
    obtain ⟨i, hi⟩ := List.mem_iff_getElem?.mp (hperm.mem_iff.mp hmem)
    obtain ⟨task, ht, hverdict⟩ := hresults i outcome hi
    exact not_isCancelled_of_not_mem hcancel ht hverdict

/-- One task has ended, one is in flight and one waits when the dispatch is cancelled. -/
theorem cancellation_safety_of_three :
    let first : CaseProgram := ⟨1, "a", .python, "print(1)"⟩
    let second : CaseProgram := ⟨2, "b", .python, "print(2)"⟩
    let third : CaseProgram := ⟨3, "c", .python, "print(3)"⟩
    let pre : List Event := [.spawn 0, .spawn 1, .spawn 2, .poll 0, .poll 1, .poll 2,
      .reply 0 (.answer (.ok ⟨202, .null⟩)), .poll 0, .poll 1]
    let post : List Event := [.poll 2, .reply 1 (.answer (.ok ⟨202, .null⟩)), .poll 1,
      .report 1, .report 0, .report 2]
    let after := (start 1 [first, second, third]).run (pre ++ .cancel :: post)
    .dropHandle ∉ pre ∧ after.submitted = [⟨0, first.request⟩, ⟨1, second.request⟩] ∧
      ∃ outcomes, after.result? = some outcomes ∧ ∃ results, outcomes.Perm results ∧
        ∀ outcome, results[1]? = some outcome → outcome = second.withdrawn := by
  intro first second third pre post after
  have hhandle : .dropHandle ∉ pre := by simp [pre]
  have hsent : ((start 1 [first, second, third]).run pre).submitted =
      [⟨0, first.request⟩, ⟨1, second.request⟩] := by decide +kernel
  have hopen : (((start 1 [first, second, third]).run pre).ending? 1).isNone = true := by
    decide +kernel
  have hfinished : after.isFinished = true := by decide +kernel
  have hresult : after.result? = some after.outcomes := if_pos hfinished
  obtain ⟨hsubmitted, -, -, -, hresults⟩ :=
    (cancellation_safety 1 [first, second, third]).1 pre post hhandle
  obtain ⟨results, hperm, -, hall⟩ := hresults after.outcomes hresult
  refine ⟨hhandle, hsubmitted.trans hsent, after.outcomes, hresult, results, hperm, ?_⟩
  intro outcome houtcome
  exact (hall 1 second outcome rfl houtcome).2 (Option.isNone_iff_eq_none.mp hopen)

end Dispatch

end StructuredCall
