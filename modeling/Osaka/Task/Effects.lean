import Osaka.Task.Counting

set_option autoImplicit false

namespace Osaka.Task

open Transitions

variable {V : Type} {c d : Cell V}

/-- A step that leaves the scheduling of the task as it is. -/
structure Frame (c d : Cell V) : Prop where
  owner : d.owner = c.owner
  notified : d.notified = c.notified
  runner : d.runner = c.runner
  endings : d.endings = c.endings

theorem Frame.refl (c : Cell V) : Frame c c := ⟨rfl, rfl, rfl, rfl⟩

/-- A step that may give the scheduler a Notified, and leaves the rest of the scheduling as it is. -/
structure Submits (c d : Cell V) : Prop where
  owner : d.owner = c.owner
  notified : d.notified = c.notified ∨ d.notified = c.notified + 1
  runner : d.runner = c.runner
  endings : d.endings = c.endings

theorem Frame.submits (frame : Frame c d) : Submits c d :=
  ⟨frame.owner, .inl frame.notified, frame.runner, frame.endings⟩

structure Effect (owner : Owner) (c d : Cell V) : Prop where
  owner : d.owner = owner
  notified : d.notified = c.notified ∨ d.notified = c.notified + 1
  idle : c.runner = none → d.runner = none
  polling : d.runner = some .polling → c.runner = some .polling
  endings : c.runner ≠ some .polling → d.endings = c.endings ∨
    c.runner = some .cancelling ∧ ∃ panics, d.endings = c.endings ++ [.cancelled panics]

theorem Submits.effect (submits : Submits c d) : Effect c.owner c d := by
  obtain ⟨owner, notified, runner, endings⟩ := submits
  exact ⟨owner, notified, fun idle => runner.trans idle, fun polling => runner.symm.trans polling,
    fun _ => .inl endings⟩

theorem Effect.after {runner : Runner V} {owner : Owner} (busy : c.runner = some runner) (owner' : d.owner = owner)
    (notified : d.notified = c.notified) (away : d.runner ≠ some .polling) (endings : d.endings = c.endings) :
    Effect owner c d := by
  constructor
  · exact owner'
  · exact .inl notified
  · intro idle
    simp [idle] at busy
  · exact fun polling => absurd polling away
  · exact fun _ => .inl endings

section Frames

theorem dealloc_frame (c : Cell V) : Frame c c.dealloc := ⟨rfl, rfl, rfl, rfl⟩

theorem freed_frame (last : Bool) (frame : Frame c d) : Frame c (if last then d.dealloc else d) := by
  cases last with
  | false => exact frame
  | true => exact ⟨frame.owner, frame.notified, frame.runner, frame.endings⟩

theorem dropReference_frame (frame : Frame c d) : d.dropReference.Leads (Frame c) := by
  apply Outcome.Leads.attempt
  rintro ⟨last, state⟩ _
  exact freed_frame last ⟨frame.owner, frame.notified, frame.runner, frame.endings⟩

theorem readAfter_frame (frame : Frame c d) (snapshot : Snapshot) : (d.readAfter snapshot).Leads (Frame c) := by
  unfold Cell.readAfter
  split
  next => exact ⟨frame.owner, frame.notified, frame.runner, frame.endings⟩
  next => trivial

theorem storeJoinWaker_frame (frame : Frame c d) (snapshot : Snapshot) :
    (d.storeJoinWaker snapshot).Leads (Frame c) := by
  unfold Cell.storeJoinWaker
  split
  next => trivial
  next =>
    split
    next => trivial
    next => exact ⟨frame.owner, frame.notified, frame.runner, frame.endings⟩

theorem cloneWaker_frame : c.cloneWaker.Leads (Frame c) := by
  unfold Cell.cloneWaker
  split
  next => trivial
  next =>
    apply Outcome.Leads.attempt
    intro state _
    exact ⟨rfl, rfl, rfl, rfl⟩

theorem dropWaker_frame : c.dropWaker.Leads (Frame c) := by
  unfold Cell.dropWaker
  split
  next => trivial
  next => exact dropReference_frame ⟨rfl, rfl, rfl, rfl⟩

theorem finishDrop_frame : c.finishDrop.Leads (Frame c) := by
  unfold Cell.finishDrop
  split
  next => trivial
  next => exact dropReference_frame ⟨rfl, rfl, rfl, rfl⟩

theorem canReadOutput_frame (willWake : Bool) : (c.canReadOutput willWake).Leads (Frame c) := by
  unfold Cell.canReadOutput
  split
  next =>
    repeat' split
    all_goals first
      | trivial
      | exact storeJoinWaker_frame (.refl c) c.state
      | exact ⟨rfl, rfl, rfl, rfl⟩
  next => trivial

theorem unsetJoinWaker_frame : c.unsetJoinWaker.Leads (Frame c) := by
  unfold Cell.unsetJoinWaker
  split
  next =>
    apply Outcome.Leads.attempt
    intro result _
    cases result with
    | ok snapshot =>
      apply storeJoinWaker_frame
      exact ⟨rfl, rfl, rfl, rfl⟩
    | err snapshot => exact readAfter_frame (.refl c) snapshot
  next => trivial

theorem setJoinWaker_frame : c.setJoinWaker.Leads (Frame c) := by
  unfold Cell.setJoinWaker
  split
  next =>
    apply Outcome.Leads.attempt
    intro result _
    cases result with
    | ok snapshot => exact ⟨rfl, rfl, rfl, rfl⟩
    | err snapshot =>
      apply readAfter_frame
      exact ⟨rfl, rfl, rfl, rfl⟩
  next => trivial

theorem unwindJoin_frame : c.unwindJoin.Leads (Frame c) := by
  unfold Cell.unwindJoin
  split
  next => exact ⟨rfl, rfl, rfl, rfl⟩
  next => exact ⟨rfl, rfl, rfl, rfl⟩
  next => trivial

theorem takeOutput_frame : c.takeOutput.Leads (Frame c) := by
  unfold Cell.takeOutput
  split
  next =>
    split
    next => exact ⟨rfl, rfl, rfl, rfl⟩
    next => exact ⟨rfl, rfl, rfl, rfl⟩
  next => trivial

theorem dropJoinHandle_frame (spurious : Bool) : (c.dropJoinHandle spurious).Leads (Frame c) := by
  unfold Cell.dropJoinHandle
  split
  next =>
    split
    next => exact ⟨rfl, rfl, rfl, rfl⟩
    next => exact ⟨rfl, rfl, rfl, rfl⟩
  next => trivial

theorem dropJoinHandleSlow_frame : c.dropJoinHandleSlow.Leads (Frame c) := by
  unfold Cell.dropJoinHandleSlow
  split
  next =>
    apply Outcome.Leads.attempt
    intro result _
    cases result with
    | ok snapshot => exact ⟨rfl, rfl, rfl, rfl⟩
    | err snapshot => exact ⟨rfl, rfl, rfl, rfl⟩
  next => trivial

theorem dropJoinOutput_frame : c.dropJoinOutput.Leads (Frame c) := by
  unfold Cell.dropJoinOutput
  split
  next => exact ⟨rfl, rfl, rfl, rfl⟩
  next => trivial

theorem dropJoinReference_frame : c.dropJoinReference.Leads (Frame c) := by
  unfold Cell.dropJoinReference
  split
  next => exact dropReference_frame ⟨rfl, rfl, rfl, rfl⟩
  next => trivial

end Frames

section Submissions

theorem wakeByVal_submits : c.wakeByVal.Leads (Submits c) := by
  unfold Cell.wakeByVal
  split
  next => trivial
  next =>
    apply Outcome.Leads.attempt
    rintro ⟨action, state⟩ _
    cases action with
    | submit => exact ⟨rfl, .inr rfl, rfl, rfl⟩
    | dealloc => exact ⟨rfl, .inl rfl, rfl, rfl⟩
    | doNothing => exact ⟨rfl, .inl rfl, rfl, rfl⟩

theorem wakeByRef_submits : c.wakeByRef.Leads (Submits c) := by
  unfold Cell.wakeByRef
  split
  next => trivial
  next =>
    apply Outcome.Leads.attempt
    rintro ⟨action, state⟩ _
    cases action with
    | submit => exact ⟨rfl, .inr rfl, rfl, rfl⟩
    | doNothing => exact ⟨rfl, .inl rfl, rfl, rfl⟩

theorem remoteAbort_submits : c.remoteAbort.Leads (Submits c) := by
  unfold Cell.remoteAbort
  split
  next =>
    apply Outcome.Leads.attempt
    rintro ⟨submit, state⟩ _
    cases submit with
    | false => exact ⟨rfl, .inl rfl, rfl, rfl⟩
    | true => exact ⟨rfl, .inr rfl, rfl, rfl⟩
  next => trivial

end Submissions

section Polls

theorem pollPending_effect : c.pollPending.Leads (Effect c.owner c) := by
  unfold Cell.pollPending
  split
  next polling =>
    have busy : c.runner ≠ none := by simp [polling]
    apply Outcome.Leads.attempt
    rintro ⟨action, state⟩ _
    cases action with
    | ok => exact ⟨rfl, .inl rfl, fun _ => rfl, (nomatch ·), fun away => absurd polling away⟩
    | okNotified => exact ⟨rfl, .inr rfl, fun _ => rfl, (nomatch ·), fun away => absurd polling away⟩
    | okDealloc => exact ⟨rfl, .inl rfl, fun _ => rfl, (nomatch ·), fun away => absurd polling away⟩
    | cancelled =>
      exact ⟨rfl, .inl rfl, fun idle => absurd idle busy, (nomatch ·), fun away => absurd polling away⟩
  next => trivial

theorem endFuture_effect (ending : Ending V) (polling : c.runner = some .polling) :
    Effect c.owner c (c.endFuture ending) := by
  constructor
  · rfl
  · exact .inl rfl
  · intro idle
    simp [polling] at idle
  · exact (nomatch ·)
  · exact fun away => absurd polling away

theorem pollReady_effect (value : V) (panics : Bool) : (c.pollReady value panics).Leads (Effect c.owner c) := by
  unfold Cell.pollReady
  split
  next polling => exact endFuture_effect _ polling
  next => trivial

theorem pollPanic_effect : c.pollPanic.Leads (Effect c.owner c) := by
  unfold Cell.pollPanic
  split
  next polling => exact endFuture_effect _ polling
  next => trivial

end Polls

section Endings

def Runner.remaining : Option (Runner V) → Nat
  | none | some .polling => 0
  | some (.terminal _) => 1
  | some .releasing => 2
  | some .discarding | some .wakingJoin => 3
  | some .completing => 4
  | some (.storing _) => 5
  | some .cancelling => 6

structure Proceeds (owner : Owner) (c d : Cell V) : Prop where
  effect : Effect owner c d
  notified : d.notified = c.notified
  remaining : Runner.remaining d.runner < Runner.remaining c.runner
  live : d.live ≤ c.live

theorem cancelTask_proceeds (panics : Bool) : (c.cancelTask panics).Leads (Proceeds c.owner c) := by
  unfold Cell.cancelTask
  split
  next cancelling =>
    constructor
    · constructor
      · rfl
      · exact .inl rfl
      · intro idle
        simp [cancelling] at idle
      · exact (nomatch ·)
      · exact fun _ => .inr ⟨cancelling, panics, rfl⟩
    · rfl
    · simp [cancelling, Runner.remaining, Cell.endFuture]
    · simp [Cell.live, cancelling, Runner.references, Cell.endFuture, Cell.dropFutureOrOutput, Cell.setStage]
  next => trivial

theorem store_proceeds : c.store.Leads (Proceeds c.owner c) := by
  unfold Cell.store
  split
  next result storing =>
    constructor
    · exact .after storing rfl rfl (nomatch ·) rfl
    · rfl
    · simp [storing, Runner.remaining]
    · simp [Cell.live, storing, Runner.references, Cell.storeOutput, Cell.setStage]
  next => trivial

theorem complete_proceeds : c.complete.Leads (Proceeds c.owner c) := by
  unfold Cell.complete
  split
  next completing =>
    apply Outcome.Leads.attempt
    intro snapshot _
    constructor
    · refine Effect.after completing rfl rfl ?_ rfl
      dsimp only
      repeat' split
      all_goals simp
    · rfl
    · dsimp only
      rw [completing]
      repeat' split
      all_goals simp [Runner.remaining]
    · simp only [Cell.live, completing]
      repeat' split
      all_goals rfl
  next => trivial

theorem discard_proceeds : c.discard.Leads (Proceeds c.owner c) := by
  unfold Cell.discard
  split
  next discarding =>
    constructor
    · exact .after discarding rfl rfl (nomatch ·) rfl
    · rfl
    · simp [discarding, Runner.remaining]
    · simp [Cell.live, discarding, Runner.references, Cell.dropFutureOrOutput, Cell.setStage]
  next => trivial

theorem wakeJoin_proceeds : c.wakeJoin.Leads (Proceeds c.owner c) := by
  unfold Cell.wakeJoin
  split
  next waking =>
    split
    next =>
      constructor
      · exact .after waking rfl rfl (nomatch ·) rfl
      · rfl
      · simp [waking, Runner.remaining]
      · simp [Cell.live, waking, Runner.references]
    next => trivial
  next => trivial

def Owner.removed : Owner → Owner
  | .listed | .released => .released
  | .popped => .popped

theorem release_proceeds : c.release.Leads (Proceeds c.owner.removed c) := by
  unfold Cell.release
  split
  next releasing =>
    split
    next listed =>
      constructor
      · rw [listed]
        exact .after releasing rfl rfl (nomatch ·) rfl
      · rfl
      · simp [releasing, Runner.remaining]
      · simp only [Cell.live, releasing, listed, Runner.references, Owner.references]
        omega
    next unlisted =>
      constructor
      · refine Effect.after releasing ?_ rfl (nomatch ·) rfl
        cases owner : c.owner with
        | listed => exact absurd owner unlisted
        | popped | released => rfl
      · rfl
      · simp [releasing, Runner.remaining]
      · simp [Cell.live, releasing, Runner.references]
  next => trivial

theorem terminate_proceeds : c.terminate.Leads (Proceeds c.owner c) := by
  unfold Cell.terminate
  split
  next count terminal =>
    apply Outcome.Leads.attempt
    rintro ⟨last, state⟩ _
    have ends (d : Cell V) (frame : Frame { c with state := state, runner := none } d)
        (same : d.live = Cell.live { c with state := state, runner := none }) : Proceeds c.owner c d := by
      constructor
      · refine Effect.after terminal frame.owner frame.notified ?_ frame.endings
        simp [frame.runner]
      · exact frame.notified
      · simp [frame.runner, terminal, Runner.remaining]
      · rw [same]
        simp [Cell.live, terminal, Runner.references]
    cases last with
    | false => exact ends _ (.refl _) rfl
    | true => exact ends _ (dealloc_frame _) rfl
  next => trivial

end Endings

section Foreign

def ownerAfter : Action V → Owner → Owner
  | .release, owner => owner.removed
  | _, owner => owner

theorem step_effect (a : Action V) (runs : a ≠ .runNotified) (drops : a ≠ .dropNotified) (pops : a ≠ .popOwned)
    (shuts : a ≠ .shutdown) : (c.step a).Leads (Effect (ownerAfter a c.owner) c) := by
  have submits {outcome : Outcome (Cell V) Fault} (leads : outcome.Leads (Submits c)) :
      outcome.Leads (Effect c.owner c) := leads.mono fun _ => Submits.effect
  have framed {outcome : Outcome (Cell V) Fault} (leads : outcome.Leads (Frame c)) :
      outcome.Leads (Effect c.owner c) := submits (leads.mono fun _ => Frame.submits)
  have proceeds {owner : Owner} {outcome : Outcome (Cell V) Fault} (leads : outcome.Leads (Proceeds owner c)) :
      outcome.Leads (Effect owner c) := leads.mono fun _ => Proceeds.effect
  cases a with
  | runNotified => exact absurd rfl runs
  | dropNotified => exact absurd rfl drops
  | popOwned => exact absurd rfl pops
  | shutdown => exact absurd rfl shuts
  | pollPending => exact pollPending_effect
  | pollReady value panics => exact pollReady_effect value panics
  | pollPanic => exact pollPanic_effect
  | cancelTask panics => exact proceeds (cancelTask_proceeds panics)
  | store => exact proceeds store_proceeds
  | complete => exact proceeds complete_proceeds
  | discard => exact proceeds discard_proceeds
  | wakeJoin => exact proceeds wakeJoin_proceeds
  | release => exact proceeds release_proceeds
  | terminate => exact proceeds terminate_proceeds
  | wakeByVal => exact submits wakeByVal_submits
  | wakeByRef => exact submits wakeByRef_submits
  | cloneWaker => exact framed cloneWaker_frame
  | dropWaker => exact framed dropWaker_frame
  | finishDrop => exact framed finishDrop_frame
  | remoteAbort => exact submits remoteAbort_submits
  | canReadOutput willWake => exact framed (canReadOutput_frame willWake)
  | unsetJoinWaker => exact framed unsetJoinWaker_frame
  | setJoinWaker => exact framed setJoinWaker_frame
  | unwindJoin => exact framed unwindJoin_frame
  | takeOutput => exact framed takeOutput_frame
  | dropJoinHandle spurious => exact framed (dropJoinHandle_frame spurious)
  | dropJoinHandleSlow => exact framed dropJoinHandleSlow_frame
  | dropJoinOutput => exact framed dropJoinOutput_frame
  | dropJoinReference => exact framed dropJoinReference_frame

end Foreign

section Scheduling

structure Consumes (c d : Cell V) : Prop where
  owner : d.owner = c.owner
  notified : d.notified + 1 = c.notified
  endings : d.endings = c.endings
  live : d.live ≤ c.live

theorem dropNotified_consumes : c.dropNotified.Leads fun d => Consumes c d ∧ d.runner = c.runner := by
  unfold Cell.dropNotified
  split
  next => trivial
  next present =>
    apply Outcome.Leads.attempt
    rintro ⟨last, state⟩ _
    have ends (d : Cell V) (frame : Frame { c with notified := c.notified - 1 } d)
        (same : d.live = Cell.live { c with notified := c.notified - 1 }) : Consumes c d ∧ d.runner = c.runner := by
      obtain ⟨owner, notified, runner, endings⟩ := frame
      refine ⟨⟨owner, ?_, endings, ?_⟩, runner⟩
      · simp only [notified]
        omega
      · rw [same]
        simp only [Cell.live]
        omega
    cases last with
    | false => exact ends _ ⟨rfl, rfl, rfl, rfl⟩ rfl
    | true => exact ends _ ⟨rfl, rfl, rfl, rfl⟩ rfl

theorem dropNotified_next (sound : Sound c) (present : 0 < c.notified) : ∃ d, c.dropNotified = .next d := by
  have enabled : c.dropNotified ≠ .disabled := by
    unfold Cell.dropNotified
    rw [if_neg (by omega)]
    exact Outcome.attempt_enabled fun _ => (nomatch ·)
  obtain ⟨d, taken, _⟩ := (dropNotified_kept sound).taken enabled
  exact ⟨d, taken⟩

theorem lock_leads {P : Cell V → Prop} {runner : Runner V} (locked : P { c with runner := some runner }) :
    (c.lock runner).Leads P := by
  unfold Cell.lock
  split
  next => exact locked
  next => trivial

theorem runNotified_consumes : c.runNotified.Leads fun d =>
    d.owner = c.owner ∧ d.notified + 1 = c.notified ∧ d.endings = c.endings := by
  unfold Cell.runNotified
  split
  next => trivial
  next present =>
    apply Outcome.Leads.attempt
    rintro ⟨action, state⟩ _
    have taken : c.notified - 1 + 1 = c.notified := by omega
    cases action with
    | success =>
      dsimp only [Cell.poll]
      split
      next => exact lock_leads ⟨rfl, taken, rfl⟩
      next => trivial
    | cancelled => exact lock_leads ⟨rfl, taken, rfl⟩
    | failed => exact ⟨rfl, taken, rfl⟩
    | dealloc => exact ⟨rfl, taken, rfl⟩

theorem popOwned_next (listed : c.owner = .listed) : c.popOwned = .next { c with owner := .popped } := by
  simp [Cell.popOwned, listed]

structure Shuts (c d : Cell V) : Prop where
  owner : d.owner = .released
  notified : d.notified = c.notified
  endings : d.endings = c.endings
  live : d.live = c.live
  runner : c.state.isIdle = true ∧ c.runner = none ∧ d.runner = some .cancelling ∨
    c.state.isIdle = false ∧ d.runner = c.runner

theorem shutdown_next (sound : Sound c) (popped : c.owner = .popped) : ∃ d, c.shutdown = .next d ∧ Shuts c d := by
  simp only [Cell.shutdown, popped, transitionToShutdown_eq, Outcome.attempt_ok]
  cases idle : c.state.isIdle with
  | true =>
    have unlocked : c.state.has .running = false ∧ c.state.has .complete = false := by
      simpa [Snapshot.isIdle_eq] using idle
    have away := sound.scheduled.away unlocked.1 unlocked.2
    simp only [if_true, Cell.lock, away, Outcome.next.injEq, exists_eq_left']
    refine ⟨rfl, rfl, rfl, ?_, .inl ⟨idle, away, rfl⟩⟩
    simp only [Cell.live, popped, away, Owner.references, Runner.references]
    omega
  | false =>
    simp only [Bool.false_eq_true, if_false, Outcome.next.injEq, exists_eq_left']
    refine ⟨rfl, rfl, rfl, ?_, .inr ⟨idle, rfl⟩⟩
    simp only [Cell.live, popped, Owner.references]
    omega

end Scheduling

end Osaka.Task
