import Osaka.Task.Invariant

set_option autoImplicit false

namespace Osaka.Task

open Transitions

variable {V : Type} {c d : Cell V}

attribute [local grind cases] Scheduled Joined Settled Advances

attribute [local grind] Cell.live Owner.references Runner.references Join.references

-- `c` is the cell before the step, `d` the one in which the reference to drop has no holder any more.
theorem dropReference_kept (scheduled : Scheduled d) (joined : Joined d) (settled : Settled d)
    (references : d.state.refCount = d.live + 1) (deallocs : d.deallocs = 0) (advances : Advances c d) :
    d.dropReference.Kept (Stepped c) := by
  have held : 0 < d.state.refCount := by omega
  have same (flag : Flag) : (d.state.sub 1).has flag = d.state.has flag := Snapshot.has_sub held
  have unfreed : Unfreed { d with state := d.state.sub 1 } := by
    constructor
    · exact scheduled.word same
    · exact joined.word (same _) (same _) (same _)
    · exact settled.word (same _) (same _)
    · change (d.state.sub 1).refCount = d.live
      rw [Snapshot.refCount_sub held]
      omega
    · exact deallocs
  rw [Cell.dropReference, refDec_eq held, Outcome.attempt_ok]
  apply Stepped.settle unfreed
  · change decide (d.state.refCount = 1) = true ↔ d.live = 0
    rw [decide_eq_true_iff]
    omega
  · exact advances.word same

section Notifications

theorem runNotified_kept (sound : Sound c) : c.runNotified.Kept (Stepped c) := by
  unfold Cell.runNotified
  split
  next => trivial
  next present =>
    have live : 0 < c.live := by simp only [Cell.live]; omega
    obtain ⟨scheduled, joined, settled, references, deallocs⟩ := sound.unfreed live
    have notified := scheduled.flagged (by omega)
    by_cases busy : c.state.has .running = true ∨ c.state.has .complete = true
    · have held : 0 < c.state.refCount := by omega
      have same (flag : Flag) : (c.state.sub 1).has flag = c.state.has flag := Snapshot.has_sub held
      have unfreed : Unfreed { c with state := c.state.sub 1, notified := c.notified - 1 } := by
        constructor
        · constructor <;> grind -linarith
        · exact { joined.word (same _) (same _) (same _) with }
        · exact { settled.word (same _) (same _) with }
        · grind -linarith
        · exact deallocs
      rw [transitionToRunning_busy notified busy held]
      by_cases one : c.state.refCount = 1
      · simp only [one, if_true, Outcome.attempt_ok]
        apply Stepped.dealloc unfreed
        · grind -linarith
        · constructor <;> grind -linarith
      · simp only [one, if_false, Outcome.attempt_ok]
        apply Stepped.alive unfreed
        · grind -linarith
        · constructor <;> grind -linarith
    · simp only [not_or, Bool.not_eq_true] at busy
      have away := scheduled.away busy.1 busy.2
      have fresh := settled.fresh busy.2 (by rw [away]; rfl)
      rw [transitionToRunning_idle notified busy.1 busy.2]
      cases cancelled : c.state.has .cancelled with
      | true =>
        simp only [if_true, Outcome.attempt_ok, Cell.lock, away]
        apply Stepped.alive
        · constructor
          · constructor <;> grind -linarith
          · constructor <;> grind -linarith
          · constructor <;> grind -linarith
          · grind -linarith
          · exact deallocs
        · grind -linarith
        · constructor <;> grind -linarith
      | false =>
        simp only [Bool.false_eq_true, if_false, Outcome.attempt_ok, Cell.poll, fresh.1, Cell.lock, away]
        apply Stepped.alive
        · constructor
          · constructor <;> grind -linarith
          · constructor <;> grind -linarith
          · constructor <;> grind -linarith
          · grind -linarith
          · exact deallocs
        · grind -linarith
        · constructor <;> grind -linarith

theorem dropNotified_kept (sound : Sound c) : c.dropNotified.Kept (Stepped c) := by
  unfold Cell.dropNotified
  split
  next => trivial
  next present =>
    have live : 0 < c.live := by simp only [Cell.live]; omega
    obtain ⟨scheduled, joined, settled, references, deallocs⟩ := sound.unfreed live
    apply dropReference_kept
    · constructor <;> grind -linarith
    · exact { joined with }
    · exact { settled with }
    · grind -linarith
    · exact deallocs
    · constructor <;> grind -linarith

end Notifications

section Running

theorem pollPending_kept (sound : Sound c) (within : c.live < 2 ^ 56) : c.pollPending.Kept (Stepped c) := by
  unfold Cell.pollPending
  split
  next polling =>
    have live : 0 < c.live := by simp only [Cell.live, polling, Runner.references]; omega
    obtain ⟨scheduled, joined, settled, references, deallocs⟩ := sound.unfreed live
    have running : c.state.has .running = true := by rw [scheduled.running, polling]; rfl
    have incomplete := scheduled.exclusive running
    cases cancelled : c.state.has .cancelled with
    | true =>
      rw [transitionToIdle_cancelled running cancelled, Outcome.attempt_ok]
      apply Stepped.alive
      · constructor
        · constructor <;> grind -linarith
        · constructor <;> grind -linarith
        · constructor <;> grind -linarith
        · grind -linarith
        · exact deallocs
      · grind -linarith
      · constructor <;> grind -linarith
    | false =>
      cases notified : c.state.has .notified with
      | true =>
        have room : (c.state.unset .running).refCount < 2 ^ 56 := by
          rw [Snapshot.refCount_unset]
          omega
        rw [transitionToIdle_notified running cancelled notified (by omega), Outcome.attempt_ok]
        apply Stepped.alive
        · constructor
          · constructor <;> grind -linarith
          · constructor <;> grind -linarith
          · constructor <;> grind -linarith
          · grind -linarith
          · exact deallocs
        · grind -linarith
        · constructor <;> grind -linarith
      | false =>
        have held : 0 < c.state.refCount := by omega
        have held' : 1 ≤ (c.state.unset .running).refCount := by
          rw [Snapshot.refCount_unset]
          exact held
        have unfreed : Unfreed { c with state := (c.state.unset .running).sub 1, runner := none } := by
          constructor
          · constructor <;> grind -linarith
          · constructor <;> grind -linarith
          · constructor <;> grind -linarith
          · grind -linarith
          · exact deallocs
        rw [transitionToIdle_quiet running cancelled notified held]
        by_cases one : c.state.refCount = 1
        · simp only [one, if_true, Outcome.attempt_ok]
          apply Stepped.dealloc unfreed
          · grind -linarith
          · constructor <;> grind -linarith
        · simp only [one, if_false, Outcome.attempt_ok]
          apply Stepped.alive unfreed
          · grind -linarith
          · constructor <;> grind -linarith
  next => trivial

theorem endFuture_kept (ending : Ending V) (sound : Sound c)
    (before : c.runner = some .polling ∨ c.runner = some .cancelling) : Stepped c (c.endFuture ending) := by
  have live : 0 < c.live := by rcases before with phase | phase <;> grind -linarith
  obtain ⟨scheduled, joined, settled, references, deallocs⟩ := sound.unfreed live
  have locks : Runner.locks c.runner = true := by rcases before with phase | phase <;> rw [phase] <;> rfl
  have running : c.state.has .running = true := by rw [scheduled.running, locks]
  have incomplete := scheduled.exclusive running
  obtain ⟨fresh, unended⟩ := settled.fresh incomplete (by rcases before with phase | phase <;> rw [phase] <;> rfl)
  unfold Cell.endFuture Cell.dropFutureOrOutput Cell.setStage
  apply Stepped.alive
  · constructor
    · constructor <;> grind -linarith
    · constructor <;> grind -linarith
    · constructor <;> grind -linarith [Cell.results, Stage.futures, Stage.outputs]
    · grind -linarith
    · exact deallocs
  · grind -linarith
  · constructor <;> grind -linarith

theorem pollReady_kept (value : V) (panics : Bool) (sound : Sound c) :
    (c.pollReady value panics).Kept (Stepped c) := by
  unfold Cell.pollReady
  split
  next polling => exact endFuture_kept _ sound (.inl polling)
  next => trivial

theorem pollPanic_kept (sound : Sound c) : c.pollPanic.Kept (Stepped c) := by
  unfold Cell.pollPanic
  split
  next polling => exact endFuture_kept _ sound (.inl polling)
  next => trivial

theorem cancelTask_kept (panics : Bool) (sound : Sound c) : (c.cancelTask panics).Kept (Stepped c) := by
  unfold Cell.cancelTask
  split
  next cancelling => exact endFuture_kept _ sound (.inr cancelling)
  next => trivial

theorem store_kept (sound : Sound c) : c.store.Kept (Stepped c) := by
  unfold Cell.store
  split
  next result storing =>
    have live : 0 < c.live := by grind -linarith
    obtain ⟨scheduled, joined, settled, references, deallocs⟩ := sound.unfreed live
    have running : c.state.has .running = true := by rw [scheduled.running, storing]; rfl
    have incomplete := scheduled.exclusive running
    obtain ⟨consumed, results⟩ := settled.storing result storing
    unfold Cell.storeOutput Cell.setStage
    apply Stepped.alive
    · constructor
      · constructor <;> grind -linarith
      · constructor <;> grind -linarith
      · constructor <;> grind -linarith [Cell.results, Stage.futures, Stage.outputs]
      · grind -linarith
      · exact deallocs
    · grind -linarith
    · constructor <;> grind -linarith
  next => trivial

theorem complete_kept (sound : Sound c) : c.complete.Kept (Stepped c) := by
  unfold Cell.complete
  split
  next completing =>
    have live : 0 < c.live := by grind -linarith
    obtain ⟨scheduled, joined, settled, references, deallocs⟩ := sound.unfreed live
    have running : c.state.has .running = true := by rw [scheduled.running, completing]; rfl
    have incomplete := scheduled.exclusive running
    obtain ⟨result, finished, results⟩ := settled.completing completing
    have fits := joined.fits
    rw [incomplete] at fits
    have interested := Join.unclaimed fits
    have fits' := Join.fits_complete fits
    rw [transitionToComplete_eq running incomplete, Outcome.attempt_ok]
    simp only [Snapshot.isJoinInterested, Snapshot.hasJoinWaker, Snapshot.has_flip]
    apply Stepped.alive
    · constructor
      · constructor <;> grind -linarith
      · constructor <;> grind -linarith
      · constructor <;> grind -linarith [Cell.results]
      · grind -linarith
      · exact deallocs
    · grind -linarith
    · constructor <;> grind -linarith
  next => trivial

theorem discard_kept (sound : Sound c) : c.discard.Kept (Stepped c) := by
  unfold Cell.discard
  split
  next discarding =>
    have live : 0 < c.live := by grind -linarith
    obtain ⟨scheduled, joined, settled, references, deallocs⟩ := sound.unfreed live
    have complete := scheduled.finishing (by rw [discarding]; rfl)
    have uninterested := joined.discarding discarding
    unfold Cell.dropFutureOrOutput Cell.setStage
    apply Stepped.alive
    · constructor
      · constructor <;> grind -linarith
      · constructor <;> grind -linarith
      · constructor <;> grind -linarith [Cell.results, Stage.futures, Stage.outputs]
      · grind -linarith
      · exact deallocs
    · grind -linarith
    · constructor <;> grind -linarith
  next => trivial

theorem wakeJoin_kept (sound : Sound c) : c.wakeJoin.Kept (Stepped c) := by
  unfold Cell.wakeJoin
  split
  next waking =>
    have live : 0 < c.live := by grind -linarith
    obtain ⟨scheduled, joined, settled, references, deallocs⟩ := sound.unfreed live
    rw [if_pos (joined.waking waking).2]
    apply Stepped.alive
    · constructor
      · constructor <;> grind -linarith
      · constructor <;> grind -linarith
      · constructor <;> grind -linarith [Cell.results]
      · grind -linarith
      · exact deallocs
    · grind -linarith
    · constructor <;> grind -linarith
  next => trivial

theorem release_kept (sound : Sound c) : c.release.Kept (Stepped c) := by
  unfold Cell.release
  split
  next releasing =>
    have live : 0 < c.live := by grind -linarith
    obtain ⟨scheduled, joined, settled, references, deallocs⟩ := sound.unfreed live
    split
    next listed =>
      apply Stepped.alive
      · constructor
        · constructor <;> grind -linarith
        · constructor <;> grind -linarith
        · constructor <;> grind -linarith [Cell.results]
        · grind -linarith
        · exact deallocs
      · grind -linarith
      · constructor <;> grind -linarith
    next =>
      apply Stepped.alive
      · constructor
        · constructor <;> grind -linarith
        · constructor <;> grind -linarith
        · constructor <;> grind -linarith [Cell.results]
        · grind -linarith
        · exact deallocs
      · grind -linarith
      · constructor <;> grind -linarith
  next => trivial

theorem terminate_kept (sound : Sound c) : c.terminate.Kept (Stepped c) := by
  unfold Cell.terminate
  split
  next count terminal =>
    have counts := sound.scheduled.terminal count terminal
    have live : 0 < c.live := by grind -linarith
    obtain ⟨scheduled, joined, settled, references, deallocs⟩ := sound.unfreed live
    have complete := scheduled.finishing (by rw [terminal]; rfl)
    have enough : count ≤ c.state.refCount := by grind -linarith
    have unfreed : Unfreed { c with state := c.state.sub count, runner := none } := by
      constructor
      · constructor <;> grind -linarith
      · constructor <;> grind -linarith
      · constructor <;> grind -linarith [Cell.results]
      · grind -linarith
      · exact deallocs
    rw [transitionToTerminal_eq enough, Outcome.attempt_ok]
    apply Stepped.settle unfreed
    · grind -linarith
    · constructor <;> grind -linarith
  next => trivial

end Running

end Osaka.Task
