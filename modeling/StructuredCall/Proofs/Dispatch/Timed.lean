import StructuredCall.Dispatch.Timed
import StructuredCall.Proofs.Dispatch.Submission

/-!
# Timed dispatches

A timed dispatch takes its events in an order that depends on delays. Whatever the delays are,
it is one of the runs of a dispatch, and so what holds of every run holds of it
(`dispatch_run_eq`). In particular no more requests were ever in flight than there may be
(`peak_run_le`).
-/

namespace StructuredCall.TimedDispatch

open Dispatch (Event Script)

variable {maxConcurrency : Nat} {programs : List CaseProgram} {timed : TimedDispatch}

/-- Where a timed dispatch is, events have led, and at no time more requests were in flight than
there may be. -/
structure Reached (maxConcurrency : Nat) (programs : List CaseProgram) (timed : TimedDispatch) :
    Prop where
  events : ∃ events, timed.dispatch = (Dispatch.start maxConcurrency programs).run events
  peak : timed.peak ≤ max 1 maxConcurrency

namespace Reached

/-- What changes neither the dispatch nor the peak changes nothing here. -/
theorem congr {other : TimedDispatch} (h : Reached maxConcurrency programs timed)
    (hdispatch : other.dispatch = timed.dispatch) (hpeak : other.peak = timed.peak) :
    Reached maxConcurrency programs other :=
  ⟨hdispatch ▸ h.events, hpeak ▸ h.peak⟩

theorem step (h : Reached maxConcurrency programs timed) (event : Event) :
    Reached maxConcurrency programs (timed.step event) := by
  obtain ⟨events, hevents⟩ := h.events
  have hstep : timed.dispatch.step event =
      (Dispatch.start maxConcurrency programs).run (events ++ [event]) := by
    rw [hevents, Dispatch.run_append_singleton]
  refine ⟨⟨events ++ [event], hstep⟩, Nat.max_le.mpr ⟨h.peak, ?_⟩⟩
  rw [hstep]
  exact Dispatch.inFlight_le maxConcurrency programs _

theorem afterPoll (h : Reached maxConcurrency programs timed) (task : Nat) :
    Reached maxConcurrency programs (afterPoll task timed) := by
  unfold TimedDispatch.afterPoll
  split
  · exact (h.step _).congr rfl rfl
  · exact h

theorem takeIn (h : Reached maxConcurrency programs timed) (scripts : List Script) (task : Nat) :
    Reached maxConcurrency programs (takeIn scripts task timed) := by
  unfold TimedDispatch.takeIn
  split
  · split
    · exact (h.step _).step _
    · exact h.congr rfl rfl
  · exact h

theorem poll (h : Reached maxConcurrency programs timed) (scripts : List Script) (task : Nat) :
    Reached maxConcurrency programs (poll scripts timed task) := by
  unfold TimedDispatch.poll
  refine afterPoll ?_ task
  split
  · exact (h.step _).takeIn scripts task
  · exact h.step _

theorem cancel (h : Reached maxConcurrency programs timed) (time : Nat) :
    Reached maxConcurrency programs (timed.cancel time) :=
  (h.step .cancel).congr rfl rfl

theorem answerAt (h : Reached maxConcurrency programs timed) (time : Nat) :
    Reached maxConcurrency programs (timed.answerAt time) := by
  have hall : ∀ due : List (Nat × Nat × SandboxAnswer), Reached maxConcurrency programs
      (due.foldl (fun timed entry => timed.step (.reply entry.2.1 (.ofAnswer entry.2.2)))
        timed) := by
    intro due
    induction due using List.reverseRecOn with
    | nil => exact h
    | append_singleton due entry ih =>
      rw [List.foldl_append]
      exact ih.step _
  exact (hall _).congr rfl rfl

theorem passTime (h : Reached maxConcurrency programs timed) :
    Reached maxConcurrency programs timed.passTime := by
  unfold TimedDispatch.passTime
  split
  · exact h
  · exact h.cancel _
  · exact h.answerAt _
  · split
    · exact h.cancel _
    · exact h.answerAt _

theorem advance (h : Reached maxConcurrency programs timed) (scripts : List Script)
    (rounds : Nat) : Reached maxConcurrency programs (advance scripts rounds timed) := by
  induction rounds generalizing timed with
  | zero => exact h
  | succ rounds ih =>
    unfold TimedDispatch.advance
    split
    · next task rest _ =>
      have hrest : Reached maxConcurrency programs { timed with ready := rest } := h.congr rfl rfl
      exact ih (hrest.poll scripts task)
    · split
      · exact h
      · exact ih h.passTime

theorem start (maxConcurrency : Nat) (programs : List CaseProgram) (cancelAt : Option Nat) :
    Reached maxConcurrency programs (start maxConcurrency programs cancelAt) := by
  unfold TimedDispatch.start
  split
  · exact cancel ⟨⟨_, rfl⟩, Nat.zero_le _⟩ 0
  · exact ⟨⟨_, rfl⟩, Nat.zero_le _⟩

end Reached

theorem reached_run (maxConcurrency : Nat) (cancelAt : Option Nat)
    (scripted : List (CaseProgram × Script)) :
    Reached maxConcurrency (scripted.map (·.1)) (run maxConcurrency cancelAt scripted) :=
  (Reached.start maxConcurrency _ cancelAt).advance _ _

/-- **A timed dispatch is a run of the dispatch.** -/
theorem dispatch_run_eq (maxConcurrency : Nat) (cancelAt : Option Nat)
    (scripted : List (CaseProgram × Script)) :
    ∃ events, (run maxConcurrency cancelAt scripted).dispatch =
      (Dispatch.start maxConcurrency (scripted.map (·.1))).run events :=
  (reached_run maxConcurrency cancelAt scripted).events

theorem peak_run_le (maxConcurrency : Nat) (cancelAt : Option Nat)
    (scripted : List (CaseProgram × Script)) :
    (run maxConcurrency cancelAt scripted).peak ≤ max 1 maxConcurrency :=
  (reached_run maxConcurrency cancelAt scripted).peak

end StructuredCall.TimedDispatch
