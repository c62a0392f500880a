import StructuredCall.Proofs.Dispatch.Report
import StructuredCall.Proofs.Dispatch.Submission

/-!
# Every case is accounted for

**Theorem (`outcomes_account`).** When a dispatch returns, there is one outcome for every case, and
it carries the number and the identifier of that case. An outcome that is good is the sandbox's
answer to the request of that very case, and one that is bad is retryable and names the case.

A task only ends for a reason (`Settles`): it was cancelled, or a reply to its own request came.
That is shown for every task by `task_induction`; what the outcomes of the tasks have to do with
those that are returned is a matter of the ledger.
-/

namespace StructuredCall.Dispatch

variable {d : Dispatch} {events : List Event} {i : Nat} {program : CaseProgram} {reply : Reply}

/-! ## Why tasks end -/

/-- In a run from a state, the reply came for the request of a task while it was open. -/
def Replied (d : Dispatch) (events : List Event) (i : Nat) (program : CaseProgram)
    (reply : Reply) : Prop :=
  ∃ pre post, events = pre ++ .reply i reply :: post ∧
    ⟨i, program.request⟩ ∈ (d.run pre).openRequests

theorem Replied.append (h : Replied d events i program reply) (event : Event) :
    Replied d (events ++ [event]) i program reply := by
  obtain ⟨pre, post, rfl, hopen⟩ := h
  exact ⟨pre, post ++ [event], by simp, hopen⟩

/-- The reasons for a task to end, and the ends that they lead to. -/
inductive Settles (d : Dispatch) (events : List Event) (i id : Nat) (program : CaseProgram) :
    Ending → Prop
  | cancelled : Settles d events i id program
      (.returned ⟨program.caseNo, program.caseId, .error (.cancelled program.caseNo)⟩)
  | answered {answer : SandboxAnswer} : Replied d events i program (.answer answer) →
      Settles d events i id program
        (.returned ⟨program.caseNo, program.caseId, answer.mapError (.dispatch program.caseNo)⟩)
  | crashed {told : Nat → String} : Replied d events i program (.crash told) →
      Settles d events i id program (.crashed (told id))

theorem Settles.append {id : Nat} {ending : Ending} (h : Settles d events i id program ending)
    (event : Event) : Settles d (events ++ [event]) i id program ending := by
  cases h with
  | cancelled => exact .cancelled
  | answered hreply => exact .answered (hreply.append event)
  | crashed hreply => exact .crashed (hreply.append event)

/-- A task has its reply, and its end, for a reason. -/
structure Settled (d : Dispatch) (events : List Event) (i : Nat) (task : Task) : Prop where
  answered : ∀ reply, task.phase = .answered reply → Replied d events i task.program reply
  ended : ∀ ending, task.phase = .ended ending → Settles d events i task.id task.program ending

/-- A task that is not yet answered needs no reason. -/
theorem Settled.of_early {task : Task} (ha : ∀ reply, task.phase ≠ .answered reply)
    (he : task.phase.isEnded = false) : Settled d events i task :=
  ⟨fun reply h => absurd h (ha reply), fun ending h => by simp [h, Phase.isEnded] at he⟩

theorem Settled.change {event : Event} {task next : Task} (hs : (d.run events).Submitted)
    (ht : (d.run events).tasks[i]? = some task) (h : Change (d.run events) i task event next)
    (ih : Settled d events i task) : Settled d (events ++ [event]) i next := by
  cases h with
  | same | report =>
    exact ⟨fun reply h => (ih.answered reply h).append _,
      fun ending h => (ih.ended ending h).append _⟩
  | wait _ hp =>
    refine .of_early (fun reply h => ?_) ?_
    · rcases hp with hp | hp <;> cases hp.symm.trans h
    · rcases hp with hp | hp <;> exact congrArg Phase.isEnded hp
  | grant | enqueue | submit => exact .of_early nofun rfl
  | finish hp hends =>
    refine ⟨nofun, fun ending' h => ?_⟩
    obtain rfl := Phase.ended.inj h
    cases hends with
    | cancelled => exact .cancelled
    | answered _ hphase => exact .answered ((ih.answered _ hphase).append _)
    | crashed _ hphase => exact .crashed ((ih.answered _ hphase).append _)
  | @reply reply hp =>
    -- This is the only place where a reply gets in, and the request is open in it.
    refine ⟨fun reply' h => ?_, nofun⟩
    obtain rfl := Phase.answered.inj h
    refine ⟨events, [], rfl, List.mem_filter.mpr ⟨hs.waits i task ht (by rw [hp]; rfl), ?_⟩⟩
    show ((d.run events).phase? i).any (·.isOpen) = true
    rw [phase?_of_task ht, hp]
    rfl

theorem settled_run {maxConcurrency : Nat} {programs : List CaseProgram} {task : Task}
    (ht : ((start maxConcurrency programs).run events).tasks[i]? = some task) :
    Settled (start maxConcurrency programs) events i task :=
  task_induction maxConcurrency programs (fun _ _ _ _ => .of_early nofun rfl)
    (fun events _ _ _ _ => Settled.change (submitted_run maxConcurrency programs events)) ht

/-! ## What outcomes say -/

/-- What holds of the outcome of a program. -/
structure Accounts (d : Dispatch) (events : List Event) (i : Nat) (program : CaseProgram)
    (outcome : Outcome) : Prop where
  caseNo : outcome.caseNo = program.caseNo
  caseId : outcome.caseId = program.caseId
  /-- A receipt is the sandbox's answer to the request of the program. -/
  accepted : ∀ receipt, outcome.result = .ok receipt →
    Replied d events i program (.answer (.ok receipt))
  failed : ∀ e, outcome.result = .error e → e.isRetryable = true ∧
    (e = .cancelled outcome.caseNo ∨ ∃ cause, e = .dispatch outcome.caseNo cause)

theorem Accounts.of_error {e : JudgeError}
    (h : e = .cancelled program.caseNo ∨ ∃ cause, e = .dispatch program.caseNo cause) :
    Accounts d events i program ⟨program.caseNo, program.caseId, .error e⟩ := by
  refine ⟨rfl, rfl, nofun, fun e' he => ?_⟩
  obtain rfl := Except.error.inj he
  refine ⟨?_, h⟩
  obtain rfl | ⟨cause, rfl⟩ := h <;> rfl

theorem Settled.accounts {task : Task} {outcome : Outcome} (h : Settled d events i task)
    (hverdict : task.verdict = some outcome) : Accounts d events i task.program outcome := by
  obtain ⟨ending, hending, rfl⟩ := Option.map_eq_some_iff.mp hverdict
  have hsettles := h.ended ending (Phase.ending?_eq_some_iff.mp hending)
  cases hsettles with
  | cancelled => exact .of_error (.inl rfl)
  | @answered answer hreply =>
    cases answer with
    | error cause => exact .of_error (.inr ⟨cause, rfl⟩)
    | ok receipt =>
      refine ⟨rfl, rfl, fun receipt' h => ?_, nofun⟩
      obtain rfl := Except.ok.inj h
      exact hreply
  | crashed => exact .of_error (.inr ⟨_, rfl⟩)

/-- **Every case has one outcome, and it is that of the case.** -/
theorem outcomes_account {maxConcurrency : Nat} {programs : List CaseProgram}
    {outcomes : List Outcome}
    (h : ((start maxConcurrency programs).run events).result? = some outcomes) :
    let d := (start maxConcurrency programs).run events
    (outcomes.map fun outcome => (outcome.caseNo, outcome.caseId)).Perm
      (programs.map fun program => (program.caseNo, program.caseId)) ∧
    (d.submitted.map (·.task)).Nodup ∧
    (∀ submission ∈ d.submitted, ∃ program, programs[submission.task]? = some program ∧
      submission.request = ⟨program.code, program.language.id⟩) ∧
    ∃ results, outcomes.Perm results ∧ results.length = programs.length ∧
      ∀ i program outcome, programs[i]? = some program → results[i]? = some outcome →
        Accounts (start maxConcurrency programs) events i program outcome := by
  have hs := submitted_run maxConcurrency programs events
  obtain ⟨results, hperm, hlen, hresults⟩ := results_of_result? h
  have haccounts : ∀ i program outcome, programs[i]? = some program →
      results[i]? = some outcome →
      Accounts (start maxConcurrency programs) events i program outcome := by
    intro i program outcome hprogram houtcome
    obtain ⟨task, ht, hverdict⟩ := hresults i outcome houtcome
    obtain rfl := Option.some_inj.mp (hprogram.symm.trans (getElem?_programs ht))
    exact (settled_run ht).accounts hverdict
  refine ⟨?_, hs.nodup, ?_, results, hperm, hlen, haccounts⟩
  · have hkeys : (results.map fun outcome => (outcome.caseNo, outcome.caseId)) =
        programs.map fun program => (program.caseNo, program.caseId) := by
      refine List.ext_getElem (by simpa using hlen) fun i hr hp => ?_
      rw [List.length_map] at hr hp
      have haccount := haccounts i _ _ (List.getElem?_eq_getElem hp) (List.getElem?_eq_getElem hr)
      rw [List.getElem_map, List.getElem_map, haccount.caseNo, haccount.caseId]
    exact hkeys ▸ hperm.map _
  · intro submission hmem
    obtain ⟨task, ht, hrequest, -⟩ := hs.sent submission hmem
    exact ⟨task.program, getElem?_programs ht, hrequest⟩

/-- One case is there twice; one of its programs is accepted, and the task of the other crashes. -/
theorem outcomes_account_of_crash :
    let first : CaseProgram := ⟨1, "a", .python, "print(1)"⟩
    let second : CaseProgram := ⟨1, "a", .go, "package main"⟩
    let events : List Event := [.spawn 7, .spawn 4, .poll 0, .poll 1,
      .reply 0 (.answer (.ok ⟨202, .null⟩)), .poll 0, .poll 1,
      .reply 1 (.crash fun _ => "panicked"), .poll 1, .report 1, .report 0]
    ∃ outcomes, ((start 1 [first, second]).run events).result? = some outcomes ∧
      (outcomes.map fun outcome => (outcome.caseNo, outcome.caseId)).Perm [(1, "a"), (1, "a")] := by
  intro first second events
  have hfinished : ((start 1 [first, second]).run events).isFinished = true := by decide +kernel
  have hresult : ((start 1 [first, second]).run events).result? =
      some ((start 1 [first, second]).run events).outcomes := if_pos hfinished
  exact ⟨_, hresult, (outcomes_account hresult).1⟩

end StructuredCall.Dispatch
