import Osaka.Task.Flags

set_option autoImplicit false

namespace Osaka.Task

open Transitions

variable {V : Type} {c d : Cell V}

theorem Action.touches_cancelled (a : Action V) (aborts : a ≠ .remoteAbort) (shuts : a ≠ .shutdown) :
    a.touches .cancelled = false := by
  cases a with
  | remoteAbort => exact absurd rfl aborts
  | shutdown => exact absurd rfl shuts
  | runNotified | dropNotified | pollPending | pollReady | pollPanic | cancelTask | store | complete | discard
  | wakeJoin | release | terminate | wakeByVal | wakeByRef | cloneWaker | dropWaker | finishDrop | popOwned
  | canReadOutput | unsetJoinWaker | setJoinWaker | unwindJoin | takeOutput | dropJoinHandle | dropJoinHandleSlow
  | dropJoinOutput | dropJoinReference => rfl

theorem shutdown_cancels : c.shutdown.Leads fun d => d.state.has .cancelled = true ∧ d.endings = c.endings ∧
    (d.runner = some .polling → c.runner = some .polling) ∧
    (d.state.has .running = true ∨ d.state.has .complete = true) := by
  unfold Cell.shutdown
  split
  next =>
    rw [transitionToShutdown_eq, Outcome.attempt_ok]
    cases idle : c.state.isIdle with
    | true =>
      apply lock_leads
      exact ⟨by simp, rfl, (nomatch ·), .inl (by simp)⟩
    | false =>
      have busy : c.state.has .running = true ∨ c.state.has .complete = true := by
        by_contra away
        simp_all [Snapshot.isIdle_eq]
      refine ⟨?_, rfl, id, ?_⟩
      · change ((if false then c.state.set .running else c.state).set .cancelled).has .cancelled = true
        simp
      · simpa using busy
  next => trivial

theorem remoteAbort_noop (held : c.join = .held)
    (noop : c.state.has .cancelled = true ∨ c.state.has .complete = true) : c.remoteAbort = .next c := by
  unfold Cell.remoteAbort
  split
  next =>
    rw [transitionToNotifiedAndCancel_noop noop]
    rfl
  next away => exact absurd held away

/-- An abort of a task that is not complete and has not been aborted. -/
structure Aborts (c d : Cell V) : Prop where
  cancelled : d.state.has .cancelled = true
  runner : d.runner = c.runner
  endings : d.endings = c.endings
  notified : d.notified = if c.state.isIdle && !c.state.has .notified then c.notified + 1 else c.notified
  marked : d.state.has .running = true ∨ d.state.has .notified = true

theorem remoteAbort_aborts (sound : Sound c) (within : c.live < 2 ^ 56) (held : c.join = .held)
    (incomplete : c.state.has .complete = false) (uncancelled : c.state.has .cancelled = false) :
    ∃ d, c.remoteAbort = .next d ∧ Aborts c d := by
  simp only [Cell.remoteAbort, held]
  cases running : c.state.has .running with
  | true =>
    rw [transitionToNotifiedAndCancel_running uncancelled incomplete running, Outcome.attempt_ok]
    exact ⟨_, rfl, by simp, rfl, rfl, by simp [Snapshot.isIdle_eq, running], .inr (by simp)⟩
  | false =>
    cases notified : c.state.has .notified with
    | true =>
      rw [transitionToNotifiedAndCancel_queued uncancelled incomplete running notified, Outcome.attempt_ok]
      exact ⟨_, rfl, by simp, rfl, rfl, by simp [notified], .inr (by simp [notified])⟩
    | false =>
      have room : ((c.state.set .cancelled).set .notified).refCount < 2 ^ 56 := by
        simpa [sound.counted.references] using within
      rw [transitionToNotifiedAndCancel_idle uncancelled incomplete running notified
        (by simpa [sound.counted.references] using within), Outcome.attempt_ok]
      refine ⟨_, rfl, ?_, rfl, rfl, ?_, .inr ?_⟩
      · simp [Snapshot.has_add room]
      · simp [Snapshot.isIdle_eq, running, incomplete, notified]
      · simp [Snapshot.has_add room]

def Marked (c : Cell V) : Prop :=
  c.state.has .cancelled = true →
    c.state.has .running = true ∨ c.state.has .complete = true ∨ c.state.has .notified = true

theorem step_marked {a : Action V} (sound : Sound c) (within : c.live < 2 ^ 56) (marked : Marked c)
    (next : c.step a = .next d) : Marked d := by
  have advances := ((step_stepped a sound within).next next).advances
  by_cases aborts : a = .remoteAbort
  · subst aborts
    change c.remoteAbort = .next d at next
    cases held : c.join with
    | held =>
      by_cases noop : c.state.has .cancelled = true ∨ c.state.has .complete = true
      · rw [remoteAbort_noop held noop, Outcome.next.injEq] at next
        exact next ▸ marked
      · simp only [not_or, Bool.not_eq_true] at noop
        obtain ⟨e, stepped, aborted⟩ := remoteAbort_aborts sound within held noop.2 noop.1
        rw [next, Outcome.next.injEq] at stepped
        rcases stepped ▸ aborted.marked with running | notified
        · exact fun _ => .inl running
        · exact fun _ => .inr (.inr notified)
    | unsetting | setting | reading | dropping | droppingOutput | releasing | gone =>
      simp [Cell.remoteAbort, held] at next
  · by_cases shuts : a = .shutdown
    · subst shuts
      obtain ⟨_, _, _, running | complete⟩ := shutdown_cancels.next next
      · exact fun _ => .inl running
      · exact fun _ => .inr (.inl complete)
    · intro cancelled
      have before : c.state.has .cancelled = true := by
        rw [← (step_keeps a (a.touches_cancelled aborts shuts)).next next]
        exact cancelled
      rcases marked before with running | complete | notified
      · cases running' : d.state.has .running with
        | true => exact .inl rfl
        | false =>
          rcases advances.unlocked running running' with complete | ⟨_, uncancelled, _⟩
          · exact .inr (.inl complete)
          · simp [before] at uncancelled
      · exact .inr (.inl (advances.complete complete))
      · rcases advances.notified notified with notified | ⟨_, _, running⟩
        · exact .inr (.inr notified)
        · exact .inl running

theorem reachable_marked (reached : (machine V).Reachable c) : Marked c := by
  apply System.Reachable.relative (fun _ => reachable_sound) _ _ reached
  · rintro _ ⟨closed, rfl⟩
    simp [Marked, Cell.spawn, initial_word]
  · intro c a sound marked within
    change (c.step a).Kept Marked
    cases next : c.step a with
    | next d => exact step_marked sound within marked next
    | disabled => trivial
    | failed fault => exact (step_stepped a sound within).sound fault next

end Osaka.Task
