import Osaka.Task.Handles

set_option autoImplicit false

namespace Osaka.Task

open Transitions

variable {V : Type} {c d : Cell V}

theorem step_stepped (a : Action V) (sound : Sound c) (within : c.live < 2 ^ 56) :
    (c.step a).Kept (Stepped c) := by
  cases a with
  | runNotified => exact runNotified_kept sound
  | dropNotified => exact dropNotified_kept sound
  | pollPending => exact pollPending_kept sound within
  | pollReady value panics => exact pollReady_kept value panics sound
  | pollPanic => exact pollPanic_kept sound
  | cancelTask panics => exact cancelTask_kept panics sound
  | store => exact store_kept sound
  | complete => exact complete_kept sound
  | discard => exact discard_kept sound
  | wakeJoin => exact wakeJoin_kept sound
  | release => exact release_kept sound
  | terminate => exact terminate_kept sound
  | wakeByVal => exact wakeByVal_kept sound within
  | wakeByRef => exact wakeByRef_kept sound within
  | cloneWaker => exact cloneWaker_kept sound within
  | dropWaker => exact dropWaker_kept sound
  | finishDrop => exact finishDrop_kept sound
  | popOwned => exact popOwned_kept sound
  | shutdown => exact shutdown_kept sound
  | remoteAbort => exact remoteAbort_kept sound within
  | canReadOutput willWake => exact canReadOutput_kept willWake sound
  | unsetJoinWaker => exact unsetJoinWaker_kept sound
  | setJoinWaker => exact setJoinWaker_kept sound
  | unwindJoin => exact unwindJoin_kept sound
  | takeOutput => exact takeOutput_kept sound
  | dropJoinHandle spurious => exact dropJoinHandle_kept spurious sound
  | dropJoinHandleSlow => exact dropJoinHandleSlow_kept sound
  | dropJoinOutput => exact dropJoinOutput_kept sound
  | dropJoinReference => exact dropJoinReference_kept sound

theorem reachable_sound (reached : (machine V).Reachable c) : Sound c := by
  apply System.Reachable.invariant _ _ reached
  · rintro _ ⟨closed, rfl⟩
    exact spawn_sound closed
  · intro c a sound within
    exact (step_stepped a sound within).mono fun _ stepped => stepped.sound

theorem spent_disabled (sound : Sound c) (spent : c.live = 0) (a : Action V) : c.step a = .disabled := by
  obtain ⟨gone, away, _, _⟩ := spent_done sound.scheduled sound.settled spent
  have released : c.owner = .released := by
    cases owner : c.owner <;> simp [Cell.live, owner, Owner.references] at spent ⊢
  have none : c.notified = 0 ∧ c.wakers = 0 ∧ c.dropping = 0 := by
    simp only [Cell.live] at spent
    omega
  obtain ⟨notified, wakers, dropping⟩ := none
  cases a <;>
    simp [Cell.step, Cell.runNotified, Cell.dropNotified, Cell.pollPending, Cell.pollReady, Cell.pollPanic,
      Cell.cancelTask, Cell.store, Cell.complete, Cell.discard, Cell.wakeJoin, Cell.release, Cell.terminate,
      Cell.wakeByVal, Cell.wakeByRef, Cell.cloneWaker, Cell.dropWaker, Cell.finishDrop, Cell.popOwned,
      Cell.shutdown, Cell.remoteAbort, Cell.canReadOutput, Cell.unsetJoinWaker, Cell.setJoinWaker,
      Cell.unwindJoin, Cell.takeOutput, Cell.dropJoinHandle, Cell.dropJoinHandleSlow, Cell.dropJoinOutput,
      Cell.dropJoinReference, Cell.hasWaker, notified, wakers, dropping, away, gone, released]

theorem references_counted (reached : (machine V).Reachable c) :
    c.state.refCount = c.live ∧
    c.notified ≤ 1 ∧
    (0 < c.notified → c.state.isNotified = true) ∧
    (c.state.isIdle = true → (c.state.isNotified = true ↔ 0 < c.notified ∨ c.unrun = true)) ∧
    ¬(c.state.isRunning = true ∧ c.state.isComplete = true) ∧
    c.deallocs = (if c.live = 0 then 1 else 0) ∧
    (c.live = 0 → ∀ a, c.step a = .disabled) ∧
    (c.live < 2 ^ 56 → ∀ a, (∀ fault, c.step a ≠ .failed fault) ∧
      ∀ d, c.step a = .next d → c.state.isComplete = true → d.state.isComplete = true) := by
  have sound := reachable_sound reached
  have scheduled := sound.scheduled
  have counted := sound.counted
  refine ⟨counted.references, scheduled.single, scheduled.flagged, ?_, ?_, counted.freed,
    spent_disabled sound, ?_⟩
  · intro idle
    have unlocked : c.state.has .running = false ∧ c.state.has .complete = false := by
      simpa [Snapshot.isIdle_eq] using idle
    constructor
    · exact scheduled.idle unlocked.1 unlocked.2
    · rintro (present | unrun)
      · exact scheduled.flagged present
      · exact (scheduled.unrun unrun).2
  · rintro ⟨running, complete⟩
    have incomplete := scheduled.exclusive running
    rw [Snapshot.isComplete, incomplete] at complete
    exact absurd complete (by decide)
  · intro within a
    have stepped := step_stepped a sound within
    constructor
    · exact stepped.sound
    · intro d next
      exact (stepped.next next).advances.complete

/-- A task that is run, woken and completes, while its JoinHandle is dropped. -/
def exampleRun : List (Action Nat) :=
  [.runNotified, .cloneWaker, .wakeByRef, .pollPending, .finishDrop, .canReadOutput false, .setJoinWaker,
    .runNotified, .remoteAbort, .pollReady 7 false, .store, .complete, .wakeJoin, .release, .terminate,
    .canReadOutput false, .takeOutput, .dropJoinHandle false, .dropJoinHandleSlow, .dropJoinOutput,
    .dropJoinReference, .wakeByVal]

theorem exampleRun_counts :
    ((machine Nat).run (Cell.spawn false) exampleRun).map (fun c => (c.live, c.deallocs)) = some (0, 1) := by
  decide +kernel

theorem references_counted_run : ∃ c : Cell Nat, c.live = 0 ∧ c.state.refCount = 0 ∧ c.deallocs = 1 := by
  obtain ⟨c, ran, counts⟩ := Option.map_eq_some_iff.mp exampleRun_counts
  have reached := System.reachable_run _ (spawn_reachable false) ran
  obtain ⟨spent, freed⟩ := Prod.mk.inj counts
  have references := (references_counted reached).1
  exact ⟨c, spent, by rw [references, spent], freed⟩

end Osaka.Task
