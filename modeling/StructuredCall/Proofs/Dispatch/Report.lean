import StructuredCall.Proofs.Dispatch.Task

/-!
# Reports

The dispatcher is told of every task once and takes down one outcome for each. A task that
crashed reports no outcome; its outcome is made up from the label of the task, which is still
there (`Ledger.found`). So when a dispatch is finished, its outcomes are those that the tasks came
to, in another order (`result?_eq_some`).
-/

namespace StructuredCall.Dispatch

variable {d after : Dispatch} {event : Event} {i j : Nat} {task next : Task}

/-! ## What is known of a task -/

/-- What the dispatcher remembers of a task. -/
def Task.label (task : Task) : Label :=
  ⟨task.id, task.program.caseNo, task.program.caseId⟩

/-- The outcome that an end of the task of a program comes to. -/
def Ending.outcome (program : CaseProgram) : Ending → Outcome
  | .returned outcome => outcome
  | .crashed reason =>
    ⟨program.caseNo, program.caseId, .error (.dispatch program.caseNo (.taskFailed reason))⟩

/-- The outcome that a task came to. -/
def Task.verdict (task : Task) : Option Outcome :=
  task.phase.ending?.map (·.outcome task.program)

/-- The outcome that the dispatcher has for a task. -/
def Task.told (task : Task) : Option Outcome :=
  if task.reported then task.verdict else none

namespace Change

theorem label_eq (h : Change d i task event next) : next.label = task.label := by
  cases h <;> rfl

theorem reported_eq (h : Change d i task event next) (hevent : event ≠ .report i) :
    next.reported = task.reported := by
  cases h with
  | report => exact absurd rfl hevent
  | _ => rfl

theorem verdict_eq (h : Change d i task event next) (hended : task.phase.isEnded = true) :
    next.verdict = task.verdict := by
  obtain ⟨ending, hending⟩ := Phase.isEnded_iff.mp hended
  unfold Task.verdict
  rw [h.ended hending, hending, h.program_eq]

theorem told_eq (h : Change d i task event next) (hevent : event ≠ .report i)
    (hr : task.reported = true → task.phase.isEnded = true) : next.told = task.told := by
  unfold Task.told
  rw [h.reported_eq hevent]
  split
  · next hreported => exact h.verdict_eq (hr hreported)
  · rfl

end Change

/-! ## The ledger -/

/-- The outcomes and labels of the dispatcher agree with the tasks. -/
structure Ledger (d : Dispatch) : Prop where
  distinct : (d.tasks.map (·.label.id)).Nodup
  /-- A task that was not reported has its label. -/
  found : ∀ task ∈ d.tasks, task.reported = false →
    d.labels.find? (·.id = task.label.id) = some task.label
  /-- There is no label but for a task. -/
  known : ∀ label ∈ d.labels, label.id ∈ d.tasks.map (·.label.id)
  ended : ∀ task ∈ d.tasks, task.reported = true → task.phase.isEnded = true
  /-- The outcomes are those of the tasks that were reported. -/
  collected : d.collected.Perm (d.tasks.filterMap (·.told))

theorem find?_append_label {labels : List Label} {label : Label}
    (h : ∀ other ∈ labels, other.id ≠ label.id) :
    (labels ++ [label]).find? (·.id = label.id) = some label := by
  rw [List.find?_append, List.find?_eq_none.mpr (by simpa using h)]
  simp

theorem find?_filter_label {labels : List Label} {id other : Nat} (h : other ≠ id) :
    (labels.filter (·.id ≠ id)).find? (·.id = other) = labels.find? (·.id = other) := by
  rw [List.find?_filter]
  congr
  funext label
  by_cases hlabel : label.id = other <;> simp [hlabel, h]

theorem filterMap_told_set {tasks : List Task} {outcome : Outcome} (ht : tasks[i]? = some task)
    (h : task.told = none) (hnext : next.told = some outcome) :
    ((tasks.set i next).filterMap (·.told)).Perm (tasks.filterMap (·.told) ++ [outcome]) := by
  induction tasks generalizing i with
  | nil => simp at ht
  | cons head rest ih =>
    cases i with
    | zero =>
      obtain rfl : head = task := by simpa using ht
      rw [List.set_cons_zero, List.filterMap_cons_some hnext, List.filterMap_cons_none h]
      exact (List.perm_append_singleton outcome _).symm
    | succ i =>
      rw [List.set_cons_succ]
      cases hhead : head.told with
      | none =>
        rw [List.filterMap_cons_none hhead, List.filterMap_cons_none hhead]
        exact ih ht
      | some first =>
        rw [List.filterMap_cons_some hhead, List.filterMap_cons_some hhead]
        exact (ih ht).cons first

namespace Ledger

theorem map_set_self {α : Type} {f : Task → α} {tasks : List Task} (ht : tasks[i]? = some task)
    (h : f next = f task) : (tasks.set i next).map f = tasks.map f := by
  obtain ⟨hi, rfl⟩ := List.getElem?_eq_some_iff.mp ht
  rw [List.map_set, h, ← List.getElem_map f (h := by simpa using hi), List.set_getElem_self]

theorem index_eq (hl : d.Ledger) {other : Task} (ht : d.tasks[i]? = some task)
    (hj : d.tasks[j]? = some other) (h : task.label.id = other.label.id) : i = j := by
  have hi : (d.tasks.map (·.label.id))[i]? = some task.label.id := by
    rw [List.getElem?_map, ht]
    rfl
  have hj : (d.tasks.map (·.label.id))[j]? = some task.label.id := by
    rw [List.getElem?_map, hj, h]
    rfl
  obtain ⟨hlt, -⟩ := List.getElem?_eq_some_iff.mp hi
  exact (List.getElem?_inj hlt hl.distinct).mp (hi.trans hj.symm)

theorem start (maxConcurrency : Nat) (programs : List CaseProgram) :
    (start maxConcurrency programs).Ledger :=
  ⟨List.nodup_nil, by simp [Dispatch.start], by simp [Dispatch.start], by simp [Dispatch.start],
    .nil⟩

/-- An event that starts nothing and reports nothing leaves the ledger good. -/
theorem quiet (hl : d.Ledger) (hq : d.QueueSound) (h : Transition d event after)
    (hevent : ∀ k, event ≠ .report k) (hlen : after.tasks.length = d.tasks.length)
    (hlabels : after.labels = d.labels) (hcollected : after.collected = d.collected) :
    after.Ledger := by
  have hids : after.tasks.map (·.label.id) = d.tasks.map (·.label.id) :=
    h.map_eq hq hlen fun _ _ _ _ hchange => by rw [hchange.label_eq]
  have htold : after.tasks.map (·.told) = d.tasks.map (·.told) :=
    h.map_eq hq hlen fun j task _ ht hchange =>
      hchange.told_eq (hevent j) (hl.ended task (List.mem_of_getElem? ht))
  have hbefore : ∀ next ∈ after.tasks, ∃ task ∈ d.tasks, next.label = task.label ∧
      next.reported = task.reported ∧
      (task.phase.isEnded = true → next.phase.isEnded = true) := by
    intro next hnext
    obtain ⟨j, hnext⟩ := List.mem_iff_getElem?.mp hnext
    obtain ⟨task, ht, hchange⟩ := h.before hq hlen hnext
    refine ⟨task, List.mem_of_getElem? ht, hchange.label_eq, hchange.reported_eq (hevent j), ?_⟩
    intro hended
    obtain ⟨ending, hending⟩ := Phase.isEnded_iff.mp hended
    exact Phase.isEnded_iff.mpr ⟨ending, hchange.ended hending⟩
  refine ⟨hids ▸ hl.distinct, ?_, ?_, ?_, ?_⟩
  · intro next hnext hr
    obtain ⟨task, ht, hlabel, hreported, -⟩ := hbefore next hnext
    rw [hlabels, hlabel]
    exact hl.found task ht (hreported ▸ hr)
  · rw [hlabels, hids]
    exact hl.known
  · intro next hnext hr
    obtain ⟨task, ht, -, hreported, hended⟩ := hbefore next hnext
    exact hended (hl.ended task ht (hreported ▸ hr))
  · have hfilter := congrArg (List.filterMap id) htold
    rw [List.filterMap_map, List.filterMap_map] at hfilter
    rw [hcollected]
    exact hl.collected.trans (.of_eq hfilter.symm)

/-- The label of a task that starts is the one that is found for it. -/
theorem spawn (hl : d.Ledger) {id : Nat} {program : CaseProgram} {rest : List CaseProgram}
    (hid : ∀ task ∈ d.tasks, task.id ≠ id) :
    { d with
      pending := rest
      tasks := d.tasks ++ [{ id, program }]
      labels := d.labels ++ [⟨id, program.caseNo, program.caseId⟩] : Dispatch }.Ledger := by
  have hids : id ∉ d.tasks.map (·.label.id) := by
    intro hmem
    obtain ⟨task, ht, heq⟩ := List.mem_map.mp hmem
    exact hid task ht heq
  refine ⟨?_, ?_, ?_, ?_, ?_⟩
  · show ((d.tasks ++ [({ id, program } : Task)]).map (·.label.id)).Nodup
    rw [List.map_append, List.map_singleton, ← List.concat_eq_append]
    exact hl.distinct.concat hids
  · intro next hnext hr
    obtain hold | hnew := List.mem_append.mp hnext
    · show (d.labels ++ _).find? _ = _
      rw [List.find?_append, hl.found next hold hr]
      rfl
    · obtain rfl := List.mem_singleton.mp hnew
      refine find?_append_label fun label hmem heq => hids ?_
      obtain rfl : label.id = id := heq
      exact hl.known label hmem
  · intro label hmem
    show label.id ∈ (d.tasks ++ [({ id, program } : Task)]).map (·.label.id)
    rw [List.map_append, List.mem_append]
    obtain hold | hnew := List.mem_append.mp hmem
    · exact .inl (hl.known label hold)
    · exact .inr (by rw [List.mem_singleton.mp hnew]; exact List.mem_singleton.mpr rfl)
  · intro next hnext hr
    obtain hold | hnew := List.mem_append.mp hnext
    · exact hl.ended next hold hr
    · rw [List.mem_singleton.mp hnew] at hr
      cases hr
  · show d.collected.Perm ((d.tasks ++ [({ id, program } : Task)]).filterMap (·.told))
    rw [List.filterMap_append]
    simpa [Task.told] using hl.collected

/-- What the dispatcher takes down when it is told of a task whose label is there. -/
theorem collect_cases {ending : Ending} (hp : task.phase = .ended ending)
    (hfound : d.labels.find? (·.id = task.id) = some task.label) :
    ∃ outcome labels, task.verdict = some outcome ∧
      (labels = d.labels ∨ labels = d.labels.filter (·.id ≠ task.id)) ∧
      d.collect task.id ending = { d with labels, collected := d.collected ++ [outcome] } := by
  have hverdict : task.verdict = some (ending.outcome task.program) := by
    rw [Task.verdict, hp]
    rfl
  unfold collect
  cases ending with
  | returned outcome => exact ⟨outcome, d.labels, hverdict, .inl rfl, rfl⟩
  | crashed reason =>
    simp only [hfound]
    exact ⟨_, _, hverdict, .inr rfl, rfl⟩

/-- A report takes the outcome of the task down, and no label that is still of use away. -/
theorem report (hl : d.Ledger) (ht : d.tasks[i]? = some task) {ending : Ending}
    (hp : task.phase = .ended ending) (hr : task.reported = false) :
    ((d.setTask i { task with reported := true }).collect task.id ending).Ledger := by
  have hmem := List.mem_of_getElem? ht
  obtain ⟨outcome, labels, hverdict, hlabels, heq⟩ :=
    collect_cases (d := d.setTask i { task with reported := true }) hp (hl.found task hmem hr)
  have hids : (d.tasks.set i { task with reported := true }).map (·.label.id) =
      d.tasks.map (·.label.id) := map_set_self ht rfl
  have htasks : ∀ next ∈ d.tasks.set i { task with reported := true },
      next = { task with reported := true } ∨ next ∈ d.tasks ∧ next.label.id ≠ task.label.id := by
    intro next hnext
    obtain ⟨j, hj⟩ := List.mem_iff_getElem?.mp hnext
    by_cases hij : i = j
    · subst hij
      obtain ⟨hi, -⟩ := List.getElem?_eq_some_iff.mp ht
      rw [List.getElem?_set_self hi] at hj
      exact .inl (Option.some_inj.mp hj).symm
    · rw [List.getElem?_set_ne hij] at hj
      exact .inr ⟨List.mem_of_getElem? hj, fun h => hij (hl.index_eq hj ht h).symm⟩
  rw [heq]
  refine ⟨hids ▸ hl.distinct, ?_, ?_, ?_, ?_⟩
  · intro next hnext hreported
    show labels.find? _ = _
    obtain rfl | ⟨hold, hne⟩ := htasks next hnext
    · cases hreported
    · obtain rfl | rfl := hlabels
      · exact hl.found next hold hreported
      · exact (find?_filter_label hne).trans (hl.found next hold hreported)
  · intro label hlabel
    show label.id ∈ (d.tasks.set i { task with reported := true }).map (·.label.id)
    rw [hids]
    obtain rfl | rfl := hlabels
    · exact hl.known label hlabel
    · exact hl.known label (List.mem_of_mem_filter hlabel)
  · intro next hnext hreported
    obtain rfl | ⟨hold, -⟩ := htasks next hnext
    · exact Phase.isEnded_iff.mpr ⟨ending, hp⟩
    · exact hl.ended next hold hreported
  · have htold : task.told = none := by rw [Task.told, hr]; rfl
    have hset : ((d.tasks.set i { task with reported := true }).filterMap (·.told)).Perm
        (d.tasks.filterMap (·.told) ++ [outcome]) := filterMap_told_set ht htold hverdict
    exact (hl.collected.append_right [outcome]).trans hset.symm

/-- **The ledger is good after every event.** -/
theorem transition (hl : d.Ledger) (hq : d.QueueSound) (h : Transition d event after) :
    after.Ledger := by
  have hquiet := hl.quiet hq h
  cases h with
  | nothing => exact hl
  | spawn _ hid => exact hl.spawn hid
  | report ht hp _ hr => exact hl.report ht hp hr
  | finish ht =>
    have hlen := finish_length hq ht (looked_phase _ d.flag)
    exact hquiet nofun (hlen _) (by rw [finish_eq]) (by rw [finish_eq])
  | wait | enqueue | take | submit | reply =>
    exact hquiet nofun List.length_set rfl rfl
  | cancel | dropHandle => exact hquiet nofun rfl rfl rfl

end Ledger

theorem ledger_run (maxConcurrency : Nat) (programs : List CaseProgram) (events : List Event) :
    ((start maxConcurrency programs).run events).Ledger :=
  invariant_run maxConcurrency programs (.start maxConcurrency programs)
    (fun _ _ _ hq h ih => ih.transition hq h) events

/-! ## What a dispatch returns -/

theorem isSome_verdict (h : task.phase.isEnded = true) : task.verdict.isSome = true := by
  obtain ⟨ending, hending⟩ := Phase.isEnded_iff.mp h
  rw [Task.verdict, hending]
  rfl

/-- **A finished dispatch returns what its tasks came to, in some order.** -/
theorem result?_eq_some (hl : d.Ledger) {outcomes : List Outcome}
    (h : d.result? = some outcomes) : d.pending = [] ∧
      ∃ results, outcomes.Perm results ∧ results.map some = d.tasks.map (·.verdict) := by
  unfold result? at h
  split at h
  · next hfinished =>
    simp only [isFinished, Bool.and_eq_true, List.isEmpty_iff, List.all_eq_true] at hfinished
    obtain ⟨hpending, hall⟩ := hfinished
    have htold : d.tasks.map (·.told) = d.tasks.map (·.verdict) := by
      refine List.map_congr_left fun task ht => ?_
      rw [Task.told, (hall task ht).2, if_pos rfl]
    refine ⟨hpending, d.tasks.filterMap (·.told), ?_, ?_⟩
    · rw [← Option.some_inj.mp h]
      exact (List.mergeSort_perm _ _).trans hl.collected
    · rw [List.map_filterMap_some_eq_filter_map_isSome, htold, List.filter_eq_self]
      intro verdict? hmem
      obtain ⟨task, ht, rfl⟩ := List.mem_map.mp hmem
      exact isSome_verdict (hall task ht).1
  · cases h

/-- The same by the places of the programs. -/
theorem results_of_result? {maxConcurrency : Nat} {programs : List CaseProgram}
    {events : List Event} {outcomes : List Outcome}
    (h : ((start maxConcurrency programs).run events).result? = some outcomes) :
    ∃ results, outcomes.Perm results ∧ results.length = programs.length ∧
      ∀ (i : Nat) (outcome : Outcome), results[i]? = some outcome → ∃ task : Task,
        ((start maxConcurrency programs).run events).tasks[i]? = some task ∧
        task.verdict = some outcome := by
  obtain ⟨hpending, results, hperm, hverdicts⟩ :=
    result?_eq_some (ledger_run maxConcurrency programs events) h
  have hlen : results.length = ((start maxConcurrency programs).run events).tasks.length := by
    simpa using congrArg List.length hverdicts
  refine ⟨results, hperm, hlen.trans (length_tasks_of_pending hpending), fun i outcome ho => ?_⟩
  have hverdict := congrArg (·[i]?) hverdicts
  simp only [List.getElem?_map, ho, Option.map_some] at hverdict
  exact Option.map_eq_some_iff.mp hverdict.symm

end StructuredCall.Dispatch
