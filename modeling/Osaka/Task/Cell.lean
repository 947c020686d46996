import Osaka.Shared.Transitions
import Osaka.Task.State

set_option autoImplicit false

namespace Osaka.Task

open Transitions

inductive JoinError where
  | cancelled
  | panic
  deriving DecidableEq

inductive Stage (V : Type) where
  | running
  | finished (result : Except JoinError V)
  | consumed

/-- How a future ended, and whether its destructor panicked then. -/
inductive Ending (V : Type) where
  | ready (value : V) (panics : Bool)
  | panicked
  | cancelled (panics : Bool)

/-- The party that set RUNNING, by what it does next. -/
inductive Runner (V : Type) where
  -- poll_future, up to transition_to_idle
  | polling
  -- cancel_task
  | cancelling
  -- store_output
  | storing (result : Except JoinError V)
  -- complete
  | completing
  | discarding
  | wakingJoin
  | releasing
  | terminal (count : Nat)

inductive Join where
  -- between two polls
  | held
  -- in can_read_output, before unset_waker, before set_join_waker, and after it
  | unsetting
  | setting
  | reading
  -- in drop_join_handle_slow
  | dropping
  | droppingOutput
  | releasing
  | gone
  deriving DecidableEq

/-- Where the reference of the OwnedTasks is: in the list, with the caller of `shutdown`, or given up. -/
inductive Owner where
  | listed
  | popped
  | released
  deriving DecidableEq

/-- A task cell, the handles to it that exist, and what has become of the future and of the result. -/
structure Cell (V : Type) where
  state : Snapshot
  stage : Stage V
  -- trailer.waker is Some
  joinWaker : Bool
  owner : Owner
  notified : Nat
  wakers : Nat
  -- those that still hold a reference only to drop it
  dropping : Nat
  runner : Option (Runner V)
  join : Join
  -- a Notified was dropped without being run
  unrun : Bool
  endings : List (Ending V)
  futureDrops : Nat
  writes : Nat
  outputDrops : Nat
  handed : List (Except JoinError V)
  deallocs : Nat

section Values

variable {V : Type}

def Ending.result : Ending V → Except JoinError V
  | .ready value false => .ok value
  | .ready _ true => .error .panic
  | .panicked => .error .panic
  | .cancelled false => .error .cancelled
  | .cancelled true => .error .panic

def Stage.futures : Stage V → Nat
  | .running => 1
  | .finished _ | .consumed => 0

def Stage.outputs : Stage V → Nat
  | .finished _ => 1
  | .running | .consumed => 0

def Owner.references : Owner → Nat
  | .listed | .popped => 1
  | .released => 0

def Runner.references : Option (Runner V) → Nat
  | none => 0
  | some (.terminal count) => count
  | some .polling | some .cancelling | some (.storing _) | some .completing | some .discarding
  | some .wakingJoin | some .releasing => 1

def Join.references : Join → Nat
  | .held | .unsetting | .setting | .reading | .dropping | .droppingOutput | .releasing => 1
  | .gone => 0

end Values

namespace Cell

variable {V : Type} (c : Cell V)

def live : Nat :=
  c.owner.references + c.notified + c.wakers + c.dropping + Runner.references c.runner + c.join.references

-- bind: a closed list leaves the task with the caller, which shuts it down.
def spawn (closed : Bool) : Cell V where
  state := ⟨INITIAL_STATE⟩
  stage := .running
  joinWaker := false
  owner := if closed then .popped else .listed
  notified := 1
  wakers := 0
  dropping := 0
  runner := none
  join := .held
  unrun := false
  endings := []
  futureDrops := 0
  writes := 0
  outputDrops := 0
  handed := []
  deallocs := 0

-- Writing the stage drops what it held.
def setStage (stage : Stage V) : Cell V :=
  { c with
    stage := stage
    futureDrops := c.futureDrops + c.stage.futures
    outputDrops := c.outputDrops + c.stage.outputs }

def dropFutureOrOutput : Cell V := c.setStage .consumed

def storeOutput (result : Except JoinError V) : Cell V :=
  { c.setStage (.finished result) with writes := c.writes + 1 }

def dealloc : Cell V :=
  { c.dropFutureOrOutput with
    joinWaker := false
    deallocs := c.deallocs + 1 }

def dropReference : Outcome (Cell V) Fault :=
  .attempt (refDec c.state) fun (last, state) =>
    let c := { c with state := state }
    .next (if last then c.dealloc else c)

def lock (runner : Runner V) : Outcome (Cell V) Fault :=
  match c.runner with
  | none => .next { c with runner := some runner }
  | some _ => .failed .twoRunners

def poll : Outcome (Cell V) Fault :=
  match c.stage with
  | .running => c.lock .polling
  | _ => .failed .unexpectedStage

section Notifications

def runNotified : Outcome (Cell V) Fault :=
  if c.notified = 0 then
    .disabled
  else
    .attempt (transitionToRunning c.state) fun (action, state) =>
      let c := { c with state := state, notified := c.notified - 1 }
      match action with
      | .success => c.poll
      | .cancelled => c.lock .cancelling
      | .failed => .next c
      | .dealloc => .next c.dealloc

def dropNotified : Outcome (Cell V) Fault :=
  if c.notified = 0 then
    .disabled
  else
    dropReference { c with notified := c.notified - 1, unrun := true }

end Notifications

section Running

def pollPending : Outcome (Cell V) Fault :=
  match c.runner with
  | some .polling =>
    .attempt (transitionToIdle c.state) fun (action, state) =>
      let c := { c with state := state }
      match action with
      | .ok => .next { c with runner := none }
      -- The new Notified is submitted; our own ref-count is dropped after that.
      | .okNotified =>
        .next { c with runner := none, notified := c.notified + 1, dropping := c.dropping + 1 }
      | .okDealloc => .next { c with runner := none }.dealloc
      | .cancelled => .next { c with runner := some .cancelling }
  | _ => .disabled

def endFuture (ending : Ending V) : Cell V :=
  { c.dropFutureOrOutput with
    runner := some (.storing ending.result)
    endings := c.endings ++ [ending] }

def pollReady (value : V) (panics : Bool) : Outcome (Cell V) Fault :=
  match c.runner with
  | some .polling => .next (c.endFuture (.ready value panics))
  | _ => .disabled

def pollPanic : Outcome (Cell V) Fault :=
  match c.runner with
  | some .polling => .next (c.endFuture .panicked)
  | _ => .disabled

def cancelTask (panics : Bool) : Outcome (Cell V) Fault :=
  match c.runner with
  | some .cancelling => .next (c.endFuture (.cancelled panics))
  | _ => .disabled

def store : Outcome (Cell V) Fault :=
  match c.runner with
  | some (.storing result) => .next { c.storeOutput result with runner := some .completing }
  | _ => .disabled

def complete : Outcome (Cell V) Fault :=
  match c.runner with
  | some .completing =>
    .attempt (transitionToComplete c.state) fun snapshot =>
      let runner :=
        if !snapshot.isJoinInterested then
          .discarding
        else if snapshot.hasJoinWaker then
          .wakingJoin
        else
          .releasing
      .next { c with state := snapshot, runner := some runner }
  | _ => .disabled

def discard : Outcome (Cell V) Fault :=
  match c.runner with
  | some .discarding => .next { c.dropFutureOrOutput with runner := some .releasing }
  | _ => .disabled

def wakeJoin : Outcome (Cell V) Fault :=
  match c.runner with
  | some .wakingJoin =>
    if c.joinWaker then .next { c with runner := some .releasing } else .failed .wakerMissing
  | _ => .disabled

def release : Outcome (Cell V) Fault :=
  match c.runner with
  | some .releasing =>
    match c.owner with
    | .listed => .next { c with owner := .released, runner := some (.terminal 2) }
    | _ => .next { c with runner := some (.terminal 1) }
  | _ => .disabled

def terminate : Outcome (Cell V) Fault :=
  match c.runner with
  | some (.terminal count) =>
    .attempt (transitionToTerminal count c.state) fun (last, state) =>
      let c := { c with state := state, runner := none }
      .next (if last then c.dealloc else c)
  | _ => .disabled

end Running

section Wakers

-- The waker given to the poll is borrowed: it holds no reference of its own.
def hasWaker : Bool :=
  match c.runner with
  | some .polling => true
  | _ => decide (c.wakers > 0)

def wakeByVal : Outcome (Cell V) Fault :=
  if c.wakers = 0 then
    .disabled
  else
    .attempt (transitionToNotifiedByVal c.state) fun (action, state) =>
      let c := { c with state := state, wakers := c.wakers - 1 }
      match action with
      | .submit => .next { c with notified := c.notified + 1, dropping := c.dropping + 1 }
      | .dealloc => .next c.dealloc
      | .doNothing => .next c

def wakeByRef : Outcome (Cell V) Fault :=
  if !c.hasWaker then
    .disabled
  else
    .attempt (transitionToNotifiedByRef c.state) fun (action, state) =>
      let c := { c with state := state }
      match action with
      | .submit => .next { c with notified := c.notified + 1 }
      | .doNothing => .next c

def cloneWaker : Outcome (Cell V) Fault :=
  if !c.hasWaker then
    .disabled
  else
    .attempt (refInc c.state) fun state => .next { c with state := state, wakers := c.wakers + 1 }

def dropWaker : Outcome (Cell V) Fault :=
  if c.wakers = 0 then .disabled else dropReference { c with wakers := c.wakers - 1 }

def finishDrop : Outcome (Cell V) Fault :=
  if c.dropping = 0 then .disabled else dropReference { c with dropping := c.dropping - 1 }

end Wakers

section Closing

def popOwned : Outcome (Cell V) Fault :=
  match c.owner with
  | .listed => .next { c with owner := .popped }
  | _ => .disabled

def shutdown : Outcome (Cell V) Fault :=
  match c.owner with
  | .popped =>
    .attempt (transitionToShutdown c.state) fun (idle, state) =>
      let c := { c with state := state, owner := .released }
      if idle then c.lock .cancelling else .next { c with dropping := c.dropping + 1 }
  | _ => .disabled

end Closing

section JoinHandle

def remoteAbort : Outcome (Cell V) Fault :=
  match c.join with
  | .held =>
    .attempt (transitionToNotifiedAndCancel c.state) fun (submit, state) =>
      let c := { c with state := state }
      .next (if submit then { c with notified := c.notified + 1 } else c)
  | _ => .disabled

-- set_join_waker, up to the transition
def storeJoinWaker (snapshot : Snapshot) : Outcome (Cell V) Fault :=
  if !snapshot.isJoinInterested then
    .failed .notJoinInterested
  else if snapshot.hasJoinWaker then
    .failed .hasJoinWaker
  else
    .next { c with joinWaker := true, join := .setting }

def readAfter (snapshot : Snapshot) : Outcome (Cell V) Fault :=
  if snapshot.isComplete then .next { c with join := .reading } else .failed .notComplete

def canReadOutput (willWake : Bool) : Outcome (Cell V) Fault :=
  match c.join with
  | .held =>
    if !c.state.isJoinInterested then
      .failed .notJoinInterested
    else if c.state.isComplete then
      .next { c with join := .reading }
    else if c.state.hasJoinWaker then
      if !c.joinWaker then
        .failed .wakerMissing
      else if willWake then
        .next c
      else
        .next { c with join := .unsetting }
    else
      c.storeJoinWaker c.state
  | _ => .disabled

def unsetJoinWaker : Outcome (Cell V) Fault :=
  match c.join with
  | .unsetting =>
    .attempt (unsetWaker c.state) fun
      | .ok snapshot => { c with state := snapshot }.storeJoinWaker snapshot
      | .err snapshot => c.readAfter snapshot
  | _ => .disabled

def setJoinWaker : Outcome (Cell V) Fault :=
  match c.join with
  | .setting =>
    .attempt (Task.setJoinWaker c.state) fun
      | .ok snapshot => .next { c with state := snapshot, join := .held }
      | .err snapshot => { c with joinWaker := false }.readAfter snapshot
  | _ => .disabled

-- A waker whose clone or drop panics ends the poll before its next step.
def unwindJoin : Outcome (Cell V) Fault :=
  match c.join with
  | .setting => .next { c with join := .held }
  | .reading => .next { c with join := .held }
  | _ => .disabled

def takeOutput : Outcome (Cell V) Fault :=
  match c.join with
  | .reading =>
    match c.stage with
    | .finished result =>
      .next { c with stage := .consumed, handed := c.handed ++ [result], join := .held }
    -- panic!("JoinHandle polled after completion")
    | _ => .next { c.dropFutureOrOutput with join := .held }
  | _ => .disabled

def dropJoinHandle (spurious : Bool) : Outcome (Cell V) Fault :=
  match c.join with
  | .held =>
    match dropJoinHandleFast spurious c.state with
    | (true, state) => .next { c with state := state, join := .gone }
    | (false, state) => .next { c with state := state, join := .dropping }
  | _ => .disabled

def dropJoinHandleSlow : Outcome (Cell V) Fault :=
  match c.join with
  | .dropping =>
    .attempt (unsetJoinInterested c.state) fun
      | .ok snapshot => .next { c with state := snapshot, join := .releasing }
      | .err _ => .next { c with join := .droppingOutput }
  | _ => .disabled

def dropJoinOutput : Outcome (Cell V) Fault :=
  match c.join with
  | .droppingOutput => .next { c.dropFutureOrOutput with join := .releasing }
  | _ => .disabled

def dropJoinReference : Outcome (Cell V) Fault :=
  match c.join with
  | .releasing => dropReference { c with join := .gone }
  | _ => .disabled

end JoinHandle

end Cell

inductive Action (V : Type) where
  | runNotified
  | dropNotified
  | pollPending
  | pollReady (value : V) (panics : Bool)
  | pollPanic
  | cancelTask (panics : Bool)
  | store
  | complete
  | discard
  | wakeJoin
  | release
  | terminate
  | wakeByVal
  | wakeByRef
  | cloneWaker
  | dropWaker
  | finishDrop
  | popOwned
  | shutdown
  | remoteAbort
  | canReadOutput (willWake : Bool)
  | unsetJoinWaker
  | setJoinWaker
  | unwindJoin
  | takeOutput
  | dropJoinHandle (spurious : Bool)
  | dropJoinHandleSlow
  | dropJoinOutput
  | dropJoinReference

def Cell.step {V : Type} (c : Cell V) : Action V → Outcome (Cell V) Fault
  | .runNotified => c.runNotified
  | .dropNotified => c.dropNotified
  | .pollPending => c.pollPending
  | .pollReady value panics => c.pollReady value panics
  | .pollPanic => c.pollPanic
  | .cancelTask panics => c.cancelTask panics
  | .store => c.store
  | .complete => c.complete
  | .discard => c.discard
  | .wakeJoin => c.wakeJoin
  | .release => c.release
  | .terminate => c.terminate
  | .wakeByVal => c.wakeByVal
  | .wakeByRef => c.wakeByRef
  | .cloneWaker => c.cloneWaker
  | .dropWaker => c.dropWaker
  | .finishDrop => c.finishDrop
  | .popOwned => c.popOwned
  | .shutdown => c.shutdown
  | .remoteAbort => c.remoteAbort
  | .canReadOutput willWake => c.canReadOutput willWake
  | .unsetJoinWaker => c.unsetJoinWaker
  | .setJoinWaker => c.setJoinWaker
  | .unwindJoin => c.unwindJoin
  | .takeOutput => c.takeOutput
  | .dropJoinHandle spurious => c.dropJoinHandle spurious
  | .dropJoinHandleSlow => c.dropJoinHandleSlow
  | .dropJoinOutput => c.dropJoinOutput
  | .dropJoinReference => c.dropJoinReference

/-- One spawned task, driven while fewer than 2^56 references to it are alive. -/
def machine (V : Type) : System (Cell V) (Action V) Fault where
  initial c := ∃ closed, c = Cell.spawn closed
  within c := c.live < 2 ^ 56
  step := Cell.step

instance {V : Type} : DecidablePred (machine V).within :=
  fun c => inferInstanceAs (Decidable (c.live < 2 ^ 56))

theorem spawn_reachable {V : Type} (closed : Bool) : (machine V).Reachable (Cell.spawn closed) :=
  .initial ⟨closed, rfl⟩

end Osaka.Task
