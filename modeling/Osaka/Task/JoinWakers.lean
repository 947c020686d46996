import Osaka.Task.Flags

set_option autoImplicit false

namespace Osaka.Task

open Transitions

/-- A task cell, and where the wakers of its JoinHandle are. -/
structure Joining (V W : Type) where
  cell : Cell V
  -- trailer.waker
  trailer : Option W
  -- of the last poll, which may be under way
  waker : Option W
  -- the same, once that poll has returned Pending, until the next poll or the drop of the JoinHandle
  registered : Option W
  -- by wake_join
  woken : List W

inductive Call (V W : Type) where
  | poll (waker : W) (willWake : Bool)
  | task (a : Action V)

namespace Joining

variable {V W : Type} (j : Joining V W)

def spawn (closed : Bool) : Joining V W where
  cell := Cell.spawn closed
  trailer := none
  waker := none
  registered := none
  woken := []

-- After `can_read_output`, up to the first transition.
def polled (waker : W) (d : Cell V) : Joining V W where
  cell := d
  trailer := if d.join = .setting then some waker else j.trailer
  waker := some waker
  registered := if d.join = .held then some waker else none
  woken := j.woken

def after (d : Cell V) : Action V → Joining V W
  | .unsetJoinWaker =>
    { j with
      cell := d
      trailer := if d.join = .setting then j.waker else j.trailer }
  | .setJoinWaker =>
    { j with
      cell := d
      trailer := if d.join = .held then j.trailer else none
      registered := if d.join = .held then j.waker else none }
  | .wakeJoin =>
    { j with
      cell := d
      woken := j.woken ++ j.trailer.toList }
  | .dropJoinHandle _ =>
    { j with
      cell := d
      registered := none }
  -- dealloc drops the waker
  | _ =>
    { j with
      cell := d
      trailer := if d.deallocs = j.cell.deallocs then j.trailer else none }

variable [DecidableEq W]

def step : Call V W → Outcome (Joining V W) Fault
  -- will_wake may miss that two wakers wake the same task; it never takes one for another.
  | .poll waker willWake =>
    if willWake = true ∧ j.trailer ≠ some waker then
      .disabled
    else
      match j.cell.canReadOutput willWake with
      | .next d => .next (j.polled waker d)
      | .disabled => .disabled
      | .failed fault => .failed fault
  | .task (.canReadOutput _) => .disabled
  | .task a =>
    match j.cell.step a with
    | .next d => .next (j.after d a)
    | .disabled => .disabled
    | .failed fault => .failed fault

end Joining

def joining (V W : Type) [DecidableEq W] : System (Joining V W) (Call V W) Fault where
  initial j := ∃ closed, j = Joining.spawn closed
  within j := j.cell.live < 2 ^ 56
  step j := j.step

instance {V W : Type} [DecidableEq W] : DecidablePred (joining V W).within :=
  fun j => inferInstanceAs (Decidable (j.cell.live < 2 ^ 56))

section Cells

variable {V : Type} {c d : Cell V}

def Action.joins : Action V → Bool
  | .canReadOutput _ | .unsetJoinWaker | .setJoinWaker | .unwindJoin | .takeOutput | .dropJoinHandle _
  | .dropJoinHandleSlow | .dropJoinOutput | .dropJoinReference => true
  | _ => false

theorem Action.touches_joinWaker (a : Action V) (joins : a.joins = false) : a.touches .joinWaker = false := by
  cases a <;> first
    | rfl
    | simp [Action.joins] at joins

theorem Action.touches_complete (a : Action V) (other : a ≠ .complete) : a.touches .complete = false := by
  cases a <;> first
    | rfl
    | exact absurd rfl other

/-- A step of anyone else leaves the JoinHandle and, while there is a cell, its waker where they are. -/
structure Apart (c d : Cell V) : Prop where
  join : d.join = c.join
  waker : d.deallocs = c.deallocs → d.joinWaker = c.joinWaker
  freed : d.deallocs ≠ c.deallocs → d.joinWaker = false
  waking : c.runner = some .wakingJoin → d.runner = some .wakingJoin

theorem Apart.same (join : d.join = c.join) (waker : d.joinWaker = c.joinWaker) (deallocs : d.deallocs = c.deallocs)
    (waking : c.runner = some .wakingJoin → d.runner = some .wakingJoin) : Apart c d :=
  ⟨join, fun _ => waker, fun freed => absurd deallocs freed, waking⟩

theorem Apart.dealloc (apart : Apart c d) (deallocs : d.deallocs = c.deallocs) : Apart c d.dealloc := by
  refine ⟨apart.join, ?_, fun _ => rfl, apart.waking⟩
  intro same
  change d.deallocs + 1 = c.deallocs at same
  omega

theorem Apart.freed_if {last : Bool} (apart : Apart c d) (deallocs : d.deallocs = c.deallocs) :
    Apart c (if last then d.dealloc else d) := by
  cases last with
  | false => exact apart
  | true => exact apart.dealloc deallocs

theorem dropReference_apart (apart : Apart c d) (deallocs : d.deallocs = c.deallocs) :
    d.dropReference.Leads (Apart c) := by
  apply Outcome.Leads.attempt
  rintro ⟨last, state⟩ _
  apply Apart.freed_if
  · exact ⟨apart.join, apart.waker, apart.freed, apart.waking⟩
  · exact deallocs

theorem lock_apart {runner : Runner V} (join : d.join = c.join) (waker : d.joinWaker = c.joinWaker)
    (deallocs : d.deallocs = c.deallocs) (same : d.runner = c.runner) : (d.lock runner).Leads (Apart c) := by
  unfold Cell.lock
  split
  next away =>
    refine .same join waker deallocs ?_
    intro waking
    rw [same, waking] at away
    cases away
  next => trivial

theorem runNotified_apart : c.runNotified.Leads (Apart c) := by
  unfold Cell.runNotified
  split
  next => trivial
  next =>
    apply Outcome.Leads.attempt
    rintro ⟨action, state⟩ _
    cases action with
    | success =>
      dsimp only [Cell.poll]
      split
      next => exact lock_apart rfl rfl rfl rfl
      next => trivial
    | cancelled => exact lock_apart rfl rfl rfl rfl
    | failed => exact .same rfl rfl rfl id
    | dealloc => exact Apart.dealloc (.same rfl rfl rfl id) rfl

theorem pollPending_apart : c.pollPending.Leads (Apart c) := by
  unfold Cell.pollPending
  split
  next polling =>
    have away : c.runner ≠ some .wakingJoin := by simp [polling]
    apply Outcome.Leads.attempt
    rintro ⟨action, state⟩ _
    cases action with
    | ok | okNotified | cancelled => exact .same rfl rfl rfl fun waking => absurd waking away
    | okDealloc => exact Apart.dealloc (.same rfl rfl rfl fun waking => absurd waking away) rfl
  next => trivial

theorem terminate_apart : c.terminate.Leads (Apart c) := by
  unfold Cell.terminate
  split
  next count terminal =>
    have away : c.runner ≠ some .wakingJoin := by simp [terminal]
    apply Outcome.Leads.attempt
    rintro ⟨last, state⟩ _
    exact Apart.freed_if (.same rfl rfl rfl fun waking => absurd waking away) rfl
  next => trivial

theorem wakeByVal_apart : c.wakeByVal.Leads (Apart c) := by
  unfold Cell.wakeByVal
  split
  next => trivial
  next =>
    apply Outcome.Leads.attempt
    rintro ⟨action, state⟩ _
    cases action with
    | submit | doNothing => exact .same rfl rfl rfl id
    | dealloc => exact Apart.dealloc (.same rfl rfl rfl id) rfl

theorem wakeByRef_apart : c.wakeByRef.Leads (Apart c) := by
  unfold Cell.wakeByRef
  split
  next => trivial
  next =>
    apply Outcome.Leads.attempt
    rintro ⟨action, state⟩ _
    cases action with
    | submit | doNothing => exact .same rfl rfl rfl id

theorem shutdown_apart : c.shutdown.Leads (Apart c) := by
  unfold Cell.shutdown
  split
  next =>
    apply Outcome.Leads.attempt
    rintro ⟨idle, state⟩ _
    cases idle with
    | true => exact lock_apart rfl rfl rfl rfl
    | false => exact .same rfl rfl rfl id
  next => trivial

theorem remoteAbort_apart : c.remoteAbort.Leads (Apart c) := by
  unfold Cell.remoteAbort
  split
  next =>
    apply Outcome.Leads.attempt
    rintro ⟨submit, state⟩ _
    cases submit with
    | false | true => exact .same rfl rfl rfl id
  next => trivial

theorem complete_apart : c.complete.Leads (Apart c) := by
  unfold Cell.complete
  split
  next completing =>
    apply Outcome.Leads.attempt
    intro snapshot _
    refine .same rfl rfl rfl ?_
    simp [completing]
  next => trivial

theorem release_apart : c.release.Leads (Apart c) := by
  unfold Cell.release
  split
  next releasing =>
    have away : c.runner ≠ some .wakingJoin := by simp [releasing]
    split
    next => exact .same rfl rfl rfl fun waking => absurd waking away
    next => exact .same rfl rfl rfl fun waking => absurd waking away
  next => trivial

theorem pollReady_apart (value : V) (panics : Bool) : (c.pollReady value panics).Leads (Apart c) := by
  unfold Cell.pollReady
  split
  next polling => exact .same rfl rfl rfl (by simp [polling])
  next => trivial

theorem pollPanic_apart : c.pollPanic.Leads (Apart c) := by
  unfold Cell.pollPanic
  split
  next polling => exact .same rfl rfl rfl (by simp [polling])
  next => trivial

theorem cancelTask_apart (panics : Bool) : (c.cancelTask panics).Leads (Apart c) := by
  unfold Cell.cancelTask
  split
  next cancelling => exact .same rfl rfl rfl (by simp [cancelling])
  next => trivial

theorem store_apart : c.store.Leads (Apart c) := by
  unfold Cell.store
  split
  next storing => exact .same rfl rfl rfl (by simp [storing])
  next => trivial

theorem discard_apart : c.discard.Leads (Apart c) := by
  unfold Cell.discard
  split
  next discarding => exact .same rfl rfl rfl (by simp [discarding])
  next => trivial

theorem step_apart (a : Action V) (joins : a.joins = false) (wakes : a ≠ .wakeJoin) :
    (c.step a).Leads (Apart c) := by
  cases a with
  | canReadOutput | unsetJoinWaker | setJoinWaker | unwindJoin | takeOutput | dropJoinHandle | dropJoinHandleSlow
  | dropJoinOutput | dropJoinReference => simp [Action.joins] at joins
  | wakeJoin => exact absurd rfl wakes
  | runNotified => exact runNotified_apart
  | pollPending => exact pollPending_apart
  | pollReady value panics => exact pollReady_apart value panics
  | pollPanic => exact pollPanic_apart
  | cancelTask panics => exact cancelTask_apart panics
  | store => exact store_apart
  | complete => exact complete_apart
  | discard => exact discard_apart
  | release => exact release_apart
  | terminate => exact terminate_apart
  | wakeByVal => exact wakeByVal_apart
  | wakeByRef => exact wakeByRef_apart
  | shutdown => exact shutdown_apart
  | remoteAbort => exact remoteAbort_apart
  | dropNotified =>
    dsimp only [Cell.step, Cell.dropNotified]
    split
    next => trivial
    next => exact dropReference_apart (.same rfl rfl rfl id) rfl
  | dropWaker =>
    dsimp only [Cell.step, Cell.dropWaker]
    split
    next => trivial
    next => exact dropReference_apart (.same rfl rfl rfl id) rfl
  | finishDrop =>
    dsimp only [Cell.step, Cell.finishDrop]
    split
    next => trivial
    next => exact dropReference_apart (.same rfl rfl rfl id) rfl
  | cloneWaker =>
    dsimp only [Cell.step, Cell.cloneWaker]
    split
    next => trivial
    next =>
      apply Outcome.Leads.attempt
      intro state _
      exact .same rfl rfl rfl id
  | popOwned =>
    dsimp only [Cell.step, Cell.popOwned]
    split
    next => exact .same rfl rfl rfl id
    next => trivial

end Cells

end Osaka.Task
