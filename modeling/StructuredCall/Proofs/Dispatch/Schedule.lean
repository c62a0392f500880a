import Mathlib.Data.List.Forall2
import Mathlib.Data.List.Sort
import StructuredCall.Proofs.Dispatch.Account
import StructuredCall.Proofs.Dispatch.Cancellation

/-!
# Dispatches at their own pace

**Theorem (`outcomes_independent_of_schedule`).** When the numbers of the cases are distinct and
nothing is cancelled, what a dispatch returns depends on the replies, and for crashes on the names
of the tasks: not on how many requests may be open, nor on the order in which tasks start, go on,
are answered and are reported.

Outcomes are collected in the order of the reports, so two runs collect them in two orders. Each
outcome follows from one reply (`exists_reply`), and the numbers of the outcomes are those of the
cases (`map_caseNo_perm`). Sorting distinct numbers leaves one order only, so outcomes in the same
place belong to the same case (`forall₂_caseNo`).
-/

namespace StructuredCall.Dispatch

/-! ## Replies and outcomes -/

/-- The outcome of a program that a reply leads to, for a task that is known by `id`. -/
def Reply.outcome (program : CaseProgram) (id : Nat) : Reply → Outcome
  | .answer result =>
    ⟨program.caseNo, program.caseId, result.mapError (.dispatch program.caseNo)⟩
  | .crash told =>
    ⟨program.caseNo, program.caseId, .error (.dispatch program.caseNo (.taskFailed (told id)))⟩

@[simp] theorem Reply.caseNo_outcome (program : CaseProgram) (id : Nat) (reply : Reply) :
    (reply.outcome program id).caseNo = program.caseNo := by
  cases reply <;> rfl

variable {maxConcurrency : Nat} {programs : List CaseProgram} {events : List Event}
variable {outcomes : List Outcome} {outcome : Outcome} {i : Nat} {task : Task}

/-! ## One dispatch -/

/-- **Without a cancellation every outcome follows from a reply.** -/
theorem exists_reply (hcancel : .cancel ∉ events)
    (ht : ((start maxConcurrency programs).run events).tasks[i]? = some task)
    (hverdict : task.verdict = some outcome) :
    ∃ reply : Reply, Replied (start maxConcurrency programs) events i task.program reply ∧
      outcome = reply.outcome task.program task.id := by
  have hopen := not_isCancelled_of_not_mem hcancel ht hverdict
  obtain ⟨ending, hending, rfl⟩ := Option.map_eq_some_iff.mp hverdict
  cases (settled_run ht).ended ending (Phase.ending?_eq_some_iff.mp hending) with
  | cancelled => exact absurd ⟨_, rfl⟩ hopen
  | answered hreplied | crashed hreplied => exact ⟨_, hreplied, rfl⟩

theorem exists_reply_of_mem (hcancel : .cancel ∉ events)
    (h : ((start maxConcurrency programs).run events).result? = some outcomes)
    (hmem : outcome ∈ outcomes) : ∃ (i : Nat) (task : Task) (reply : Reply),
      ((start maxConcurrency programs).run events).tasks[i]? = some task ∧
      Replied (start maxConcurrency programs) events i task.program reply ∧
      outcome = reply.outcome task.program task.id := by
  obtain ⟨results, hperm, -, hresults⟩ := results_of_result? h
  obtain ⟨i, hi⟩ := List.mem_iff_getElem?.mp (hperm.mem_iff.mp hmem)
  obtain ⟨task, ht, hverdict⟩ := hresults i outcome hi
  obtain ⟨reply, hreplied, heq⟩ := exists_reply hcancel ht hverdict
  exact ⟨i, task, reply, ht, hreplied, heq⟩

theorem map_caseNo_perm (h : ((start maxConcurrency programs).run events).result? = some outcomes) :
    (outcomes.map (·.caseNo)).Perm (programs.map (·.caseNo)) := by
  obtain ⟨results, hperm, hlen, hresults⟩ := results_of_result? h
  have hnumbers : results.map (·.caseNo) = programs.map (·.caseNo) := by
    refine List.ext_getElem (by simpa using hlen) fun i hi _ => ?_
    rw [List.length_map] at hi
    obtain ⟨task, ht, hverdict⟩ := hresults i _ (List.getElem?_eq_getElem hi)
    obtain ⟨hlt, hprogram⟩ := List.getElem?_eq_some_iff.mp (getElem?_programs ht)
    rw [List.getElem_map, List.getElem_map, hprogram,
      ((settled_run ht).accounts hverdict).caseNo]
  exact hnumbers ▸ hperm.map _

/-- **Outcomes are sorted by the numbers of their cases.** -/
theorem pairwise_caseNo (hdistinct : (programs.map (·.caseNo)).Nodup)
    (h : ((start maxConcurrency programs).run events).result? = some outcomes) :
    outcomes.Pairwise fun a b => a.caseNo < b.caseNo := by
  have hnodup : (outcomes.map (·.caseNo)).Nodup := (map_caseNo_perm h).nodup_iff.mpr hdistinct
  have hsorted : outcomes.Pairwise fun a b => a.caseNo ≤ b.caseNo := by
    unfold result? at h
    split at h
    · rw [← Option.some_inj.mp h]
      have htrans : ∀ a b c : Outcome, decide (a.caseNo ≤ b.caseNo) = true →
          decide (b.caseNo ≤ c.caseNo) = true → decide (a.caseNo ≤ c.caseNo) = true := by
        simp only [decide_eq_true_eq]
        omega
      have htotal : ∀ a b : Outcome,
          (decide (a.caseNo ≤ b.caseNo) || decide (b.caseNo ≤ a.caseNo)) = true := by
        simp only [Bool.or_eq_true, decide_eq_true_eq]
        omega
      exact (List.pairwise_mergeSort htrans htotal _).imp fun hle => of_decide_eq_true hle
    · cases h
  refine (hsorted.and (List.pairwise_map.mp hnodup)).imp fun hle => ?_
  exact Nat.lt_of_le_of_ne hle.1 hle.2

/-! ## Two dispatches -/

/-- A task that gets a reply in two runs gets the same one. -/
def SameReplies (d : Dispatch) (events : List Event) (d' : Dispatch) (events' : List Event) :
    Prop :=
  ∀ i program reply reply', Replied d events i program reply →
    Replied d' events' i program reply' → reply = reply'

/-- Outcomes in two runs that are the same, but that the text of a crash has the name of the task
in the run. -/
inductive Alike (d : Dispatch) (events : List Event) (d' : Dispatch) (events' : List Event) :
    Outcome → Outcome → Prop
  | same (outcome : Outcome) : Alike d events d' events' outcome outcome
  | crashed {i : Nat} {task task' : Task} {told : Nat → String} :
      (d.run events).tasks[i]? = some task → (d'.run events').tasks[i]? = some task' →
      Replied d events i task.program (.crash told) →
      Replied d' events' i task.program (.crash told) →
      Alike d events d' events' ((Reply.crash told).outcome task.program task.id)
        ((Reply.crash told).outcome task.program task'.id)

variable {limit limit' : Nat} {events' : List Event} {outcomes' : List Outcome}

/-- Outcomes in the same place belong to the same case. -/
theorem forall₂_caseNo (hdistinct : (programs.map (·.caseNo)).Nodup)
    (h : ((start limit programs).run events).result? = some outcomes)
    (h' : ((start limit' programs).run events').result? = some outcomes') :
    List.Forall₂ (fun a b => a.caseNo = b.caseNo) outcomes outcomes' := by
  have hperm : (outcomes.map (·.caseNo)).Perm (outcomes'.map (·.caseNo)) :=
    (map_caseNo_perm h).trans (map_caseNo_perm h').symm
  have hsorted := List.pairwise_map.mpr (pairwise_caseNo hdistinct h)
  have hsorted' := List.pairwise_map.mpr (pairwise_caseNo hdistinct h')
  have hequal : outcomes.map (·.caseNo) = outcomes'.map (·.caseNo) :=
    hperm.eq_of_pairwise' hsorted hsorted'
  rw [← List.forall₂_eq_eq_eq, List.forall₂_map_left_iff, List.forall₂_map_right_iff] at hequal
  exact hequal

/-- **The same replies lead to outcomes that are alike.** -/
theorem forall₂_alike (hdistinct : (programs.map (·.caseNo)).Nodup)
    (hcancel : .cancel ∉ events) (hcancel' : .cancel ∉ events')
    (h : ((start limit programs).run events).result? = some outcomes)
    (h' : ((start limit' programs).run events').result? = some outcomes')
    (hreplies : SameReplies (start limit programs) events (start limit' programs) events') :
    List.Forall₂ (Alike (start limit programs) events (start limit' programs) events') outcomes
      outcomes' := by
  obtain ⟨hlen, hnumbers⟩ := List.forall₂_iff_zip.mp (forall₂_caseNo hdistinct h h')
  refine List.forall₂_iff_zip.mpr ⟨hlen, fun {a b} hmem => ?_⟩
  have hnumber : a.caseNo = b.caseNo := hnumbers hmem
  obtain ⟨ha, hb⟩ := List.of_mem_zip hmem
  obtain ⟨i, task, reply, ht, hreplied, rfl⟩ := exists_reply_of_mem hcancel h ha
  obtain ⟨j, task', reply', ht', hreplied', rfl⟩ := exists_reply_of_mem hcancel' h' hb
  have hprogram := getElem?_programs ht
  have hprogram' := getElem?_programs ht'
  have hcase : (programs.map (·.caseNo))[i]? = (programs.map (·.caseNo))[j]? := by
    rw [Reply.caseNo_outcome, Reply.caseNo_outcome] at hnumber
    rw [List.getElem?_map, List.getElem?_map, hprogram, hprogram', Option.map_some,
      Option.map_some, hnumber]
  -- distinct numbers: the two outcomes are of one task
  obtain ⟨hi, -⟩ := List.getElem?_eq_some_iff.mp hprogram
  obtain rfl : i = j :=
    (List.getElem?_inj (by simpa using hi) hdistinct).mp hcase
  have hsame : task'.program = task.program := Option.some_inj.mp (hprogram'.symm.trans hprogram)
  rw [hsame] at hreplied' ⊢
  obtain rfl := hreplies i task.program reply reply' hreplied hreplied'
  cases reply with
  | answer => exact .same _
  | crash => exact .crashed ht ht' hreplied hreplied'

/-- **What a dispatch returns does not depend on its schedule**, but for the names of tasks that
crash. Take two dispatches of the same cases, whose numbers are distinct, that both return and are
not cancelled, whatever else happens in which order and however many requests may be open. Both
sort their outcomes by number. If the reply to the request of each case is the same in both, the
outcomes are the same, one by one, but that the text of a crash has the name of the task; and they
are the same altogether if no crash is told by the name. -/
theorem outcomes_independent_of_schedule (hdistinct : (programs.map (·.caseNo)).Nodup)
    (hcancel : .cancel ∉ events) (hcancel' : .cancel ∉ events')
    (h : ((start limit programs).run events).result? = some outcomes)
    (h' : ((start limit' programs).run events').result? = some outcomes')
    (hreplies : SameReplies (start limit programs) events (start limit' programs) events') :
    (outcomes.Pairwise fun a b => a.caseNo < b.caseNo) ∧
    (outcomes'.Pairwise fun a b => a.caseNo < b.caseNo) ∧
    List.Forall₂ (Alike (start limit programs) events (start limit' programs) events') outcomes
      outcomes' ∧
    ((∀ i program told, Replied (start limit programs) events i program (.crash told) →
      ∀ id id', told id = told id') → outcomes = outcomes') := by
  have halike := forall₂_alike hdistinct hcancel hcancel' h h' hreplies
  refine ⟨pairwise_caseNo hdistinct h, pairwise_caseNo hdistinct h', halike, fun htold => ?_⟩
  rw [← List.forall₂_eq_eq_eq]
  refine halike.imp fun a b hab => ?_
  cases hab with
  | same => rfl
  | crashed _ _ hreplied => rw [Reply.outcome, htold _ _ _ hreplied, Reply.outcome]

/-- One at a time in the order of the list, or both at once with the second answered first. -/
theorem outcomes_independent_of_schedule_of_two :
    let first : CaseProgram := ⟨2, "b", .python, "print(1)"⟩
    let second : CaseProgram := ⟨1, "a", .go, "package main"⟩
    let accepted : Reply := .answer (.ok ⟨202, .null⟩)
    let crashed : Reply := .crash fun id => "task " ++ Text.natText id ++ " panicked"
    let events : List Event := [.spawn 0, .spawn 1, .poll 0, .poll 1, .reply 0 accepted, .poll 0,
      .poll 1, .reply 1 crashed, .poll 1, .report 0, .report 1]
    let events' : List Event := [.spawn 8, .poll 0, .spawn 5, .poll 1, .reply 1 crashed, .poll 1,
      .report 1, .reply 0 accepted, .poll 0, .report 0]
    ([first, second].map (·.caseNo)).Nodup ∧ .cancel ∉ events ∧ .cancel ∉ events' ∧
    SameReplies (start 1 [first, second]) events (start 2 [first, second]) events' ∧
    ∃ outcomes outcomes', ((start 1 [first, second]).run events).result? = some outcomes ∧
      ((start 2 [first, second]).run events').result? = some outcomes' ∧
      List.Forall₂ (Alike (start 1 [first, second]) events (start 2 [first, second]) events')
        outcomes outcomes' := by
  intro first second accepted crashed events events'
  have hdistinct : ([first, second].map (·.caseNo)).Nodup := by decide
  have hcancel : .cancel ∉ events := by simp [events]
  have hcancel' : .cancel ∉ events' := by simp [events']
  have hfinished : ((start 1 [first, second]).run events).isFinished = true := by decide +kernel
  have hfinished' : ((start 2 [first, second]).run events').isFinished = true := by decide +kernel
  have hsame : SameReplies (start 1 [first, second]) events (start 2 [first, second]) events' := by
    rintro i program reply reply' ⟨pre, post, hsplit, -⟩ ⟨pre', post', hsplit', -⟩
    have hmem : .reply i reply ∈ events := by simp [hsplit]
    have hmem' : .reply i reply' ∈ events' := by simp [hsplit']
    simp [events] at hmem
    simp [events'] at hmem'
    rcases hmem with ⟨rfl, rfl⟩ | ⟨rfl, rfl⟩ <;> simpa [eq_comm] using hmem'
  have hresult : ((start 1 [first, second]).run events).result? =
      some ((start 1 [first, second]).run events).outcomes := if_pos hfinished
  have hresult' : ((start 2 [first, second]).run events').result? =
      some ((start 2 [first, second]).run events').outcomes := if_pos hfinished'
  obtain ⟨-, -, halike, -⟩ :=
    outcomes_independent_of_schedule hdistinct hcancel hcancel' hresult hresult' hsame
  exact ⟨hdistinct, hcancel, hcancel', hsame, _, _, hresult, hresult', halike⟩

/-- A task that crashes is known by another name in another run, and the text of its outcome says
so. -/
theorem outcomes_depend_on_names :
    ¬ ∀ (limit limit' : Nat) (programs : List CaseProgram) (events events' : List Event)
      (outcomes outcomes' : List Outcome), (programs.map (·.caseNo)).Nodup →
      .cancel ∉ events → .cancel ∉ events' →
      ((start limit programs).run events).result? = some outcomes →
      ((start limit' programs).run events').result? = some outcomes' →
      SameReplies (start limit programs) events (start limit' programs) events' →
      outcomes = outcomes' := by
  intro h
  let program : CaseProgram := ⟨1, "a", .go, "package main"⟩
  let crashed : Reply := .crash fun id => "task " ++ Text.natText id ++ " panicked"
  let events (id : Nat) : List Event :=
    [.spawn id, .poll 0, .reply 0 crashed, .poll 0, .report 0]
  have hcancel (id : Nat) : .cancel ∉ events id := by simp [events]
  have hsame : SameReplies (start 1 [program]) (events 7) (start 1 [program]) (events 8) := by
    rintro i program reply reply' ⟨pre, post, hsplit, -⟩ ⟨pre', post', hsplit', -⟩
    have hmem : .reply i reply ∈ events 7 := by simp [hsplit]
    have hmem' : .reply i reply' ∈ events 8 := by simp [hsplit']
    simp [events] at hmem hmem'
    exact hmem.2.trans hmem'.2.symm
  have hone (outcome : Outcome) (le : Outcome → Outcome → Bool) :
      some ([outcome].mergeSort le) = some [outcome] := congrArg some (List.mergeSort_singleton _)
  have hresult : ((start 1 [program]).run (events 7)).result? =
      some [crashed.outcome program 7] := hone _ _
  have hresult' : ((start 1 [program]).run (events 8)).result? =
      some [crashed.outcome program 8] := hone _ _
  have hequal := h 1 1 [program] (events 7) (events 8) _ _ (by decide) (hcancel 7) (hcancel 8)
    hresult hresult' hsame
  have htold := congrArg Outcome.result (List.head_eq_of_cons_eq hequal)
  injection htold with htold
  injection htold with _ htold
  injection htold with htold
  exact absurd htold (by decide +kernel)

end StructuredCall.Dispatch
