import Osaka.Task.Steps

set_option autoImplicit false

namespace Osaka.Task

open Transitions

variable {V : Type} {c d : Cell V}

attribute [local grind cases] Scheduled Joined Settled Advances

attribute [local grind] Cell.live Owner.references Runner.references Join.references

section Wakers

theorem hasWaker_live (waker : c.hasWaker = true) : 0 < c.live := by
  unfold Cell.hasWaker at waker
  split at waker
  next polling => grind -linarith
  next => grind -linarith

theorem wakeByVal_kept (sound : Sound c) (within : c.live < 2 ^ 56) : c.wakeByVal.Kept (Stepped c) := by
  unfold Cell.wakeByVal
  split
  next => trivial
  next present =>
    have live : 0 < c.live := by simp only [Cell.live]; omega
    obtain ⟨scheduled, joined, settled, references, deallocs⟩ := sound.unfreed live
    have held : 1 ≤ c.state.refCount := by omega
    cases running : c.state.has .running with
    | true =>
      have locks : Runner.locks c.runner = true := by rw [← scheduled.running, running]
      -- The waker's reference, and the runner's own.
      have own := Runner.references_locks locks
      have two : 1 < c.state.refCount := by simp only [references, Cell.live]; omega
      have held' : 1 ≤ (c.state.set .notified).refCount := by
        rw [Snapshot.refCount_set]
        exact held
      have incomplete := scheduled.exclusive running
      rw [transitionToNotifiedByVal_running running two, Outcome.attempt_ok]
      apply Stepped.alive
      · constructor
        · constructor <;> grind -linarith
        · exact { joined.word (by simp [Snapshot.has_sub held']) (by simp [Snapshot.has_sub held'])
            (by simp [Snapshot.has_sub held']) with }
        · exact { settled.word (by simp [Snapshot.has_sub held']) (by simp [Snapshot.has_sub held']) with }
        · grind -linarith
        · exact deallocs
      · grind -linarith
      · constructor <;> grind -linarith
    | false =>
      by_cases settledWord : c.state.has .complete = true ∨ c.state.has .notified = true
      · have unfreed : Unfreed { c with state := c.state.sub 1, wakers := c.wakers - 1 } := by
          constructor
          · constructor <;> grind -linarith
          · exact { joined.word (by simp [Snapshot.has_sub held]) (by simp [Snapshot.has_sub held])
              (by simp [Snapshot.has_sub held]) with }
          · exact { settled.word (by simp [Snapshot.has_sub held]) (by simp [Snapshot.has_sub held]) with }
          · grind -linarith
          · exact deallocs
        rw [transitionToNotifiedByVal_settled running settledWord held]
        by_cases one : c.state.refCount = 1
        · simp only [one, if_true, Outcome.attempt_ok]
          apply Stepped.dealloc unfreed
          · grind -linarith
          · constructor <;> grind -linarith
        · simp only [one, if_false, Outcome.attempt_ok]
          apply Stepped.alive unfreed
          · grind -linarith
          · constructor <;> grind -linarith
      · simp only [not_or, Bool.not_eq_true] at settledWord
        have room : (c.state.set .notified).refCount < 2 ^ 56 := by
          rw [Snapshot.refCount_set]
          omega
        have away := scheduled.away running settledWord.1
        rw [transitionToNotifiedByVal_idle running settledWord.1 settledWord.2 (by omega), Outcome.attempt_ok]
        apply Stepped.alive
        · constructor
          · constructor <;> grind -linarith
          · exact { joined.word (by simp [Snapshot.has_add room]) (by simp [Snapshot.has_add room])
              (by simp [Snapshot.has_add room]) with }
          · exact { settled.word (by simp [Snapshot.has_add room]) (by simp [Snapshot.has_add room]) with }
          · grind -linarith
          · exact deallocs
        · grind -linarith
        · constructor <;> grind -linarith

theorem wakeByRef_kept (sound : Sound c) (within : c.live < 2 ^ 56) : c.wakeByRef.Kept (Stepped c) := by
  unfold Cell.wakeByRef
  split
  next => trivial
  next waker =>
    have live := hasWaker_live (by simpa using waker)
    obtain ⟨scheduled, joined, settled, references, deallocs⟩ := sound.unfreed live
    by_cases settledWord : c.state.has .complete = true ∨ c.state.has .notified = true
    · rw [transitionToNotifiedByRef_settled settledWord, Outcome.attempt_ok]
      exact ⟨sound, .refl c⟩
    · simp only [not_or, Bool.not_eq_true] at settledWord
      cases running : c.state.has .running with
      | true =>
        rw [transitionToNotifiedByRef_running running settledWord.1 settledWord.2, Outcome.attempt_ok]
        apply Stepped.alive
        · constructor
          · constructor <;> grind -linarith
          · exact { joined.word (by simp) (by simp) (by simp) with }
          · exact { settled.word (by simp) (by simp) with }
          · grind -linarith
          · exact deallocs
        · grind -linarith
        · constructor <;> grind -linarith
      | false =>
        have room : (c.state.set .notified).refCount < 2 ^ 56 := by
          rw [Snapshot.refCount_set]
          omega
        have away := scheduled.away running settledWord.1
        rw [transitionToNotifiedByRef_idle running settledWord.1 settledWord.2 (by omega), Outcome.attempt_ok]
        apply Stepped.alive
        · constructor
          · constructor <;> grind -linarith
          · exact { joined.word (by simp [Snapshot.has_add room]) (by simp [Snapshot.has_add room])
              (by simp [Snapshot.has_add room]) with }
          · exact { settled.word (by simp [Snapshot.has_add room]) (by simp [Snapshot.has_add room]) with }
          · grind -linarith
          · exact deallocs
        · grind -linarith
        · constructor <;> grind -linarith

theorem cloneWaker_kept (sound : Sound c) (within : c.live < 2 ^ 56) : c.cloneWaker.Kept (Stepped c) := by
  unfold Cell.cloneWaker
  split
  next => trivial
  next waker =>
    have live := hasWaker_live (by simpa using waker)
    obtain ⟨scheduled, joined, settled, references, deallocs⟩ := sound.unfreed live
    have room : c.state.refCount < 2 ^ 56 := by omega
    have same (flag : Flag) : c.state.add.has flag = c.state.has flag := Snapshot.has_add room
    rw [refInc_eq room, Outcome.attempt_ok]
    apply Stepped.alive
    · constructor
      · exact { scheduled.word same with }
      · exact { joined.word (same _) (same _) (same _) with }
      · exact { settled.word (same _) (same _) with }
      · grind -linarith
      · exact deallocs
    · grind -linarith
    · constructor <;> grind -linarith

theorem dropWaker_kept (sound : Sound c) : c.dropWaker.Kept (Stepped c) := by
  unfold Cell.dropWaker
  split
  next => trivial
  next present =>
    have live : 0 < c.live := by simp only [Cell.live]; omega
    obtain ⟨scheduled, joined, settled, references, deallocs⟩ := sound.unfreed live
    apply dropReference_kept
    · exact { scheduled with }
    · exact { joined with }
    · exact { settled with }
    · grind -linarith
    · exact deallocs
    · exact { Advances.refl c with }

theorem finishDrop_kept (sound : Sound c) : c.finishDrop.Kept (Stepped c) := by
  unfold Cell.finishDrop
  split
  next => trivial
  next present =>
    have live : 0 < c.live := by simp only [Cell.live]; omega
    obtain ⟨scheduled, joined, settled, references, deallocs⟩ := sound.unfreed live
    apply dropReference_kept
    · exact { scheduled with }
    · exact { joined with }
    · exact { settled with }
    · grind -linarith
    · exact deallocs
    · exact { Advances.refl c with }

end Wakers

section Closing

theorem popOwned_kept (sound : Sound c) : c.popOwned.Kept (Stepped c) := by
  unfold Cell.popOwned
  split
  next listed =>
    have live : 0 < c.live := by grind -linarith
    obtain ⟨scheduled, joined, settled, references, deallocs⟩ := sound.unfreed live
    apply Stepped.alive
    · constructor
      · constructor <;> grind -linarith
      · exact { joined with }
      · exact { settled with }
      · grind -linarith
      · exact deallocs
    · grind -linarith
    · constructor <;> grind -linarith
  next => trivial

theorem shutdown_kept (sound : Sound c) : c.shutdown.Kept (Stepped c) := by
  unfold Cell.shutdown
  split
  next popped =>
    have live : 0 < c.live := by grind -linarith
    obtain ⟨scheduled, joined, settled, references, deallocs⟩ := sound.unfreed live
    rw [transitionToShutdown_eq, Outcome.attempt_ok]
    cases idle : c.state.isIdle with
    | true =>
      have unlocked : c.state.has .running = false ∧ c.state.has .complete = false := by
        simpa [Snapshot.isIdle_eq] using idle
      have away := scheduled.away unlocked.1 unlocked.2
      simp only [if_true, Cell.lock, away]
      apply Stepped.alive
      · constructor
        · constructor <;> grind -linarith
        · constructor <;> grind -linarith
        · constructor <;> grind -linarith [Cell.results]
        · grind -linarith
        · exact deallocs
      · grind -linarith
      · constructor <;> grind -linarith
    | false =>
      have busy : c.state.has .running = true ∨ c.state.has .complete = true := by
        rw [Snapshot.isIdle_eq] at idle
        grind -linarith
      simp only [Bool.false_eq_true, if_false]
      apply Stepped.alive
      · constructor
        · constructor <;> grind -linarith
        · exact { joined.word (by simp) (by simp) (by simp) with }
        · exact { settled.word (by simp) (by simp) with }
        · grind -linarith
        · exact deallocs
      · grind -linarith
      · constructor <;> grind -linarith
  next => trivial

end Closing

section JoinHandle

theorem remoteAbort_kept (sound : Sound c) (within : c.live < 2 ^ 56) : c.remoteAbort.Kept (Stepped c) := by
  unfold Cell.remoteAbort
  split
  next held =>
    have live : 0 < c.live := by grind -linarith
    obtain ⟨scheduled, joined, settled, references, deallocs⟩ := sound.unfreed live
    by_cases noop : c.state.has .cancelled = true ∨ c.state.has .complete = true
    · rw [transitionToNotifiedAndCancel_noop noop, Outcome.attempt_ok]
      exact ⟨sound, .refl c⟩
    · simp only [not_or, Bool.not_eq_true] at noop
      obtain ⟨cancelled, complete⟩ := noop
      cases running : c.state.has .running with
      | true =>
        rw [transitionToNotifiedAndCancel_running cancelled complete running, Outcome.attempt_ok]
        apply Stepped.alive
        · constructor
          · constructor <;> grind -linarith
          · exact { joined.word (by simp) (by simp) (by simp) with }
          · exact { settled.word (by simp) (by simp) with }
          · grind -linarith
          · exact deallocs
        · grind -linarith
        · constructor <;> grind -linarith
      | false =>
        cases notified : c.state.has .notified with
        | true =>
          rw [transitionToNotifiedAndCancel_queued cancelled complete running notified, Outcome.attempt_ok]
          apply Stepped.alive
          · constructor
            · constructor <;> grind -linarith
            · exact { joined.word (by simp) (by simp) (by simp) with }
            · exact { settled.word (by simp) (by simp) with }
            · grind -linarith
            · exact deallocs
          · grind -linarith
          · constructor <;> grind -linarith
        | false =>
          have room : ((c.state.set .cancelled).set .notified).refCount < 2 ^ 56 := by
            rw [Snapshot.refCount_set, Snapshot.refCount_set]
            omega
          have away := scheduled.away running complete
          rw [transitionToNotifiedAndCancel_idle cancelled complete running notified (by omega),
            Outcome.attempt_ok]
          apply Stepped.alive
          · constructor
            · constructor <;> grind -linarith
            · exact { joined.word (by simp [Snapshot.has_add room]) (by simp [Snapshot.has_add room])
                (by simp [Snapshot.has_add room]) with }
            · exact { settled.word (by simp [Snapshot.has_add room]) (by simp [Snapshot.has_add room]) with }
            · grind -linarith
            · exact deallocs
          · grind -linarith
          · constructor <;> grind -linarith
  next => trivial

theorem storeJoinWaker_kept (scheduled : Scheduled d) (settled : Settled d)
    (references : d.state.refCount = d.live) (deallocs : d.deallocs = 0)
    (interested : d.state.has .joinInterest = true) (bare : d.state.has .joinWaker = false)
    (incomplete : d.state.has .complete = false) (present : d.join.references = 1) (advances : Advances c d) :
    (d.storeJoinWaker d.state).Kept (Stepped c) := by
  unfold Cell.storeJoinWaker
  simp only [Snapshot.isJoinInterested, interested, Snapshot.hasJoinWaker, bare, Bool.not_true,
    Bool.false_eq_true, if_false]
  apply Stepped.alive
  · constructor
    · exact { scheduled with }
    · constructor <;> grind -linarith
    · constructor <;> grind -linarith [Cell.results]
    · grind -linarith
    · exact deallocs
  · grind -linarith
  · exact { advances with }

theorem canReadOutput_kept (willWake : Bool) (sound : Sound c) : (c.canReadOutput willWake).Kept (Stepped c) := by
  unfold Cell.canReadOutput
  split
  next held =>
    have live : 0 < c.live := by grind -linarith
    obtain ⟨scheduled, joined, settled, references, deallocs⟩ := sound.unfreed live
    have interested : c.state.has .joinInterest = true := by
      have fits := joined.fits
      rw [held] at fits
      exact fits
    cases complete : c.state.has .complete with
    | true =>
      simp only [Snapshot.isJoinInterested, interested, Bool.not_true, Bool.false_eq_true, if_false,
        Snapshot.isComplete, complete, if_true]
      apply Stepped.alive
      · constructor
        · exact { scheduled with }
        · constructor <;> grind -linarith
        · constructor <;> grind -linarith [Cell.results]
        · grind -linarith
        · exact deallocs
      · grind -linarith
      · constructor <;> grind -linarith
    | false =>
      cases waker : c.state.has .joinWaker with
      | true =>
        simp only [Snapshot.isJoinInterested, interested, Bool.not_true, Bool.false_eq_true, if_false,
          Snapshot.isComplete, complete, Snapshot.hasJoinWaker, waker, if_true, joined.waker waker complete]
        cases willWake with
        | true => exact ⟨sound, .refl c⟩
        | false =>
          apply Stepped.alive
          · constructor
            · exact { scheduled with }
            · constructor <;> grind -linarith
            · constructor <;> grind -linarith [Cell.results]
            · grind -linarith
            · exact deallocs
          · grind -linarith
          · constructor <;> grind -linarith
      | false =>
        simp only [Snapshot.isJoinInterested, interested, Bool.not_true, Bool.false_eq_true, if_false,
          Snapshot.isComplete, complete, Snapshot.hasJoinWaker, waker]
        apply storeJoinWaker_kept scheduled settled references deallocs interested waker complete _ (.refl c)
        rw [held]
        rfl
  next => trivial

theorem unsetJoinWaker_kept (sound : Sound c) : c.unsetJoinWaker.Kept (Stepped c) := by
  unfold Cell.unsetJoinWaker
  split
  next unsetting =>
    have live : 0 < c.live := by grind -linarith
    obtain ⟨scheduled, joined, settled, references, deallocs⟩ := sound.unfreed live
    have known : c.state.has .joinInterest = true ∧ c.state.has .joinWaker = true := by
      have fits := joined.fits
      rw [unsetting] at fits
      simpa [Join.fits] using fits
    rw [unsetWaker_eq known.1 known.2, Outcome.attempt_ok]
    cases complete : c.state.has .complete with
    | true =>
      simp only [if_true, Cell.readAfter, Snapshot.isComplete, complete]
      apply Stepped.alive
      · constructor
        · exact { scheduled with }
        · constructor <;> grind -linarith
        · constructor <;> grind -linarith [Cell.results]
        · grind -linarith
        · exact deallocs
      · grind -linarith
      · constructor <;> grind -linarith
    | false =>
      simp only [Bool.false_eq_true, if_false]
      apply storeJoinWaker_kept (d := { c with state := c.state.unset .joinWaker })
      · constructor <;> grind -linarith
      · constructor <;> grind -linarith [Cell.results]
      · grind -linarith
      · exact deallocs
      · simp [known]
      · simp
      · simp [complete]
      · change c.join.references = 1
        rw [unsetting]
        rfl
      · constructor <;> grind -linarith
  next => trivial

theorem setJoinWaker_kept (sound : Sound c) : c.setJoinWaker.Kept (Stepped c) := by
  unfold Cell.setJoinWaker
  split
  next setting =>
    have live : 0 < c.live := by grind -linarith
    obtain ⟨scheduled, joined, settled, references, deallocs⟩ := sound.unfreed live
    have known : c.state.has .joinInterest = true ∧ c.state.has .joinWaker = false := by
      have fits := joined.fits
      rw [setting] at fits
      simpa [Join.fits] using fits
    rw [setJoinWaker_eq known.1 known.2, Outcome.attempt_ok]
    cases complete : c.state.has .complete with
    | true =>
      simp only [if_true, Cell.readAfter, Snapshot.isComplete, complete]
      apply Stepped.alive
      · constructor
        · exact { scheduled with }
        · constructor <;> grind -linarith
        · constructor <;> grind -linarith [Cell.results]
        · grind -linarith
        · exact deallocs
      · grind -linarith
      · constructor <;> grind -linarith
    | false =>
      simp only [Bool.false_eq_true, if_false]
      apply Stepped.alive
      · constructor
        · constructor <;> grind -linarith
        · constructor <;> grind -linarith
        · constructor <;> grind -linarith [Cell.results]
        · grind -linarith
        · exact deallocs
      · grind -linarith
      · constructor <;> grind -linarith
  next => trivial

theorem unwindJoin_kept (sound : Sound c) : c.unwindJoin.Kept (Stepped c) := by
  unfold Cell.unwindJoin
  split
  next setting =>
    have live : 0 < c.live := by grind -linarith
    obtain ⟨scheduled, joined, settled, references, deallocs⟩ := sound.unfreed live
    apply Stepped.alive
    · constructor
      · exact { scheduled with }
      · constructor <;> grind -linarith
      · constructor <;> grind -linarith [Cell.results]
      · grind -linarith
      · exact deallocs
    · grind -linarith
    · constructor <;> grind -linarith
  next reading =>
    have live : 0 < c.live := by grind -linarith
    obtain ⟨scheduled, joined, settled, references, deallocs⟩ := sound.unfreed live
    apply Stepped.alive
    · constructor
      · exact { scheduled with }
      · constructor <;> grind -linarith
      · constructor <;> grind -linarith [Cell.results]
      · grind -linarith
      · exact deallocs
    · grind -linarith
    · constructor <;> grind -linarith
  next => trivial

theorem takeOutput_kept (sound : Sound c) : c.takeOutput.Kept (Stepped c) := by
  unfold Cell.takeOutput
  split
  next reading =>
    have live : 0 < c.live := by grind -linarith
    obtain ⟨scheduled, joined, settled, references, deallocs⟩ := sound.unfreed live
    have known : c.state.has .joinInterest = true ∧ c.state.has .complete = true := by
      have fits := joined.fits
      rw [reading] at fits
      simpa [Join.fits] using fits
    obtain ⟨result, stage, results⟩ := settled.ended known.2
    split
    next taken finished =>
      apply Stepped.alive
      · constructor
        · exact { scheduled with }
        · constructor <;> grind -linarith
        · constructor <;> grind -linarith [Cell.results, Stage.outputs, Stage.futures, List.append_ne_nil_of_right_ne_nil]
        · grind -linarith
        · exact deallocs
      · grind -linarith
      · constructor <;> grind -linarith
    next unfinished =>
      have consumed : c.stage = .consumed := by grind -linarith
      unfold Cell.dropFutureOrOutput Cell.setStage
      apply Stepped.alive
      · constructor
        · exact { scheduled with }
        · constructor <;> grind -linarith
        · constructor <;> grind -linarith [Cell.results, Stage.outputs, Stage.futures]
        · grind -linarith
        · exact deallocs
      · grind -linarith
      · constructor <;> grind -linarith
  next => trivial

theorem dropJoinHandle_kept (spurious : Bool) (sound : Sound c) : (c.dropJoinHandle spurious).Kept (Stepped c) := by
  unfold Cell.dropJoinHandle
  split
  next held =>
    have live : 0 < c.live := by grind -linarith
    obtain ⟨scheduled, joined, settled, references, deallocs⟩ := sound.unfreed live
    split
    next state fast =>
      obtain ⟨initial, rfl⟩ := dropJoinHandleFast_true fast
      have word : c.state = ⟨INITIAL_STATE⟩ := by rw [← initial]
      have many : c.state.refCount = 3 := by rw [word, initial_refCount]
      have complete : c.state.has .complete = false := by rw [word, initial_word]; rfl
      have held' : 1 ≤ c.state.refCount := by omega
      apply Stepped.alive
      · constructor
        · constructor <;> grind -linarith
        · constructor <;> grind -linarith
        · constructor <;> grind -linarith [Cell.results]
        · grind -linarith
        · exact deallocs
      · grind -linarith
      · constructor <;> grind -linarith
    next state slow =>
      obtain rfl := dropJoinHandleFast_false slow
      apply Stepped.alive
      · constructor
        · exact { scheduled with }
        · constructor <;> grind -linarith
        · constructor <;> grind -linarith [Cell.results]
        · grind -linarith
        · exact deallocs
      · grind -linarith
      · constructor <;> grind -linarith
  next => trivial

theorem dropJoinHandleSlow_kept (sound : Sound c) : c.dropJoinHandleSlow.Kept (Stepped c) := by
  unfold Cell.dropJoinHandleSlow
  split
  next dropping =>
    have live : 0 < c.live := by grind -linarith
    obtain ⟨scheduled, joined, settled, references, deallocs⟩ := sound.unfreed live
    have interested : c.state.has .joinInterest = true := by
      have fits := joined.fits
      rw [dropping] at fits
      exact fits
    rw [unsetJoinInterested_eq interested, Outcome.attempt_ok]
    cases complete : c.state.has .complete with
    | true =>
      simp only [if_true]
      apply Stepped.alive
      · constructor
        · exact { scheduled with }
        · constructor <;> grind -linarith
        · constructor <;> grind -linarith [Cell.results]
        · grind -linarith
        · exact deallocs
      · grind -linarith
      · constructor <;> grind -linarith
    | false =>
      simp only [Bool.false_eq_true, if_false]
      apply Stepped.alive
      · constructor
        · constructor <;> grind -linarith
        · constructor <;> grind -linarith
        · constructor <;> grind -linarith [Cell.results]
        · grind -linarith
        · exact deallocs
      · grind -linarith
      · constructor <;> grind -linarith
  next => trivial

theorem dropJoinOutput_kept (sound : Sound c) : c.dropJoinOutput.Kept (Stepped c) := by
  unfold Cell.dropJoinOutput
  split
  next dropping =>
    have live : 0 < c.live := by grind -linarith
    obtain ⟨scheduled, joined, settled, references, deallocs⟩ := sound.unfreed live
    have known : c.state.has .joinInterest = true ∧ c.state.has .complete = true := by
      have fits := joined.fits
      rw [dropping] at fits
      simpa [Join.fits] using fits
    obtain ⟨result, stage, results⟩ := settled.ended known.2
    unfold Cell.dropFutureOrOutput Cell.setStage
    apply Stepped.alive
    · constructor
      · exact { scheduled with }
      · constructor <;> grind -linarith
      · constructor <;> grind -linarith [Cell.results, Stage.outputs, Stage.futures]
      · grind -linarith
      · exact deallocs
    · grind -linarith
    · constructor <;> grind -linarith
  next => trivial

theorem dropJoinReference_kept (sound : Sound c) : c.dropJoinReference.Kept (Stepped c) := by
  unfold Cell.dropJoinReference
  split
  next releasing =>
    have live : 0 < c.live := by grind -linarith
    obtain ⟨scheduled, joined, settled, references, deallocs⟩ := sound.unfreed live
    apply dropReference_kept
    · exact { scheduled with }
    · constructor <;> grind -linarith
    · constructor <;> grind -linarith [Cell.results]
    · grind -linarith
    · exact deallocs
    · exact { Advances.refl c with }
  next => trivial

end JoinHandle

end Osaka.Task
