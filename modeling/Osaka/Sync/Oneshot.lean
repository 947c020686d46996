import Osaka.Shared.GuardedCell
import Osaka.Shared.PackedWord
import Osaka.Shared.Transitions
import Osaka.Sync.BatchSemaphore

set_option autoImplicit false

namespace Osaka.Sync

open GuardedCell Transitions

namespace Oneshot

inductive Fault where
  -- A task is read, woken or dropped that is not initialised.
  | uninitialised
  -- inner.consume_value().unwrap()
  | noValue
  deriving DecidableEq

inductive TryRecvError where
  | empty
  | closed
  deriving DecidableEq

inductive RecvError where
  | closed
  deriving DecidableEq

abbrev State := BitVec 64

def RX_TASK_SET : State := 0b00001#64

def VALUE_SENT : State := 0b00010#64

def CLOSED : State := 0b00100#64

def TX_TASK_SET : State := 0b01000#64

inductive Flag where
  | rxTaskSet
  | valueSent
  | closed
  | txTaskSet
  deriving DecidableEq

def Flag.mask : Flag → State
  | .rxTaskSet => RX_TASK_SET
  | .valueSent => VALUE_SENT
  | .closed => CLOSED
  | .txTaskSet => TX_TASK_SET

def Flag.index : Flag → Nat
  | .rxTaskSet => 0
  | .valueSent => 1
  | .closed => 2
  | .txTaskSet => 3

namespace State

variable (s : State)

def new : State := 0#64

def has (flag : Flag) : Bool := s &&& flag.mask == flag.mask

-- fetch_or
def set (flag : Flag) : State := s ||| flag.mask

-- fetch_and
def unset (flag : Flag) : State := s &&& ~~~flag.mask

def isComplete : Bool := State.has s .valueSent

def isClosed : Bool := State.has s .closed

def isRxTaskSet : Bool := State.has s .rxTaskSet

def isTxTaskSet : Bool := State.has s .txTaskSet

def setRxTask : State := State.set s .rxTaskSet

def unsetRxTask : State := State.unset s .rxTaskSet

def setClosed : State := State.set s .closed

def setTxTask : State := State.set s .txTaskSet

def unsetTxTask : State := State.unset s .txTaskSet

end State

variable {T W : Type}

/-- Where the sender is. Each step from here is one access to what is shared. -/
inductive Sender (T W : Type) where
  | idle
  | pollClosed (stage : Stage W)
  -- send, which is about to write the value
  | send (value : T)
  -- The load and then the exchange in set_complete, for send or for the drop.
  | complete (sending : Bool)
  | exchange (sending : Bool) (seen : State)
  -- rx_task.with_task(Waker::wake_by_ref)
  | wake (sending : Bool)
  -- consume_value, as the channel was closed
  | takeBack
  -- The Arc is about to be dropped.
  | release
  | gone

/-- Where the receiver is, and while it is idle, whether `inner` is there. -/
inductive Receiver (W : Type) where
  | idle (inner : Bool)
  | poll (stage : Stage W)
  | tryRecv
  | consume (polling : Bool)
  -- set_closed, for close or for the drop
  | close (dropping : Bool)
  -- tx_task.with_task(Waker::wake_by_ref)
  | wake (dropping : Bool)
  | release (dropping : Bool)
  | gone

def Sender.holds : Sender T W → Bool
  | .gone => false
  | _ => true

def Receiver.holds : Receiver W → Bool
  | .idle inner => inner
  | .gone => false
  | _ => true

inductive Reply (T : Type) where
  -- poll_closed: whether it is ready
  | closed (ready : Bool)
  | sent (result : Except T Unit)
  -- poll: nothing if it is pending
  | polled (result : Option (Except RecvError T))
  | tried (result : Except TryRecvError T)

inductive Progress (W : Type) where
  | next (stage : Stage W)
  | pending
  | ready

end Oneshot

open Oneshot in
structure Oneshot (T W : Type) where
  state : State
  value : Option T
  txTask : Option W
  rxTask : Option W
  tx : Sender T W
  rx : Receiver W
  -- Inner has been dropped.
  freed : Bool

namespace Oneshot

variable {T W : Type}

def channel : Oneshot T W := ⟨State.new, none, none, none, .idle, .idle true, false⟩

section Tasks

-- Task::with_task
def withTask (task : Option W) : Except Fault W :=
  match task with
  | some waker => .ok waker
  | none => .error .uninitialised

-- Task::drop_task
def dropTask (task : Option W) : Except Fault (Option W) := (withTask task).map fun _ => none

-- Inner::drop
def dropInner (s : Oneshot T W) : Except Fault (Oneshot T W) :=
  match if s.state.isRxTaskSet then dropTask s.rxTask else .ok s.rxTask with
  | .error fault => .error fault
  | .ok rxTask =>
    (if s.state.isTxTaskSet then dropTask s.txTask else .ok s.txTask).map fun txTask =>
      { s with rxTask := rxTask, txTask := txTask, value := none, freed := true }

/-- The last Arc that is dropped takes Inner with it. -/
def release (s : Oneshot T W) : Except Fault (Oneshot T W) :=
  if s.tx.holds || s.rx.holds then .ok s else s.dropInner

variable [Wakers W]

/-- What poll_recv and poll_closed do alike, each with its own task and flags, when nothing has been seen yet. -/
def register (flag done : Flag) (state : State) (task : Option W) :
    Stage W → Except Fault (Progress W × State × Option W)
  | .load waker => .ok (.next (if State.has state flag then .compare waker else .write waker), state, task)
  | .compare waker =>
    (withTask task).map fun current =>
      (if Wakers.willWake current waker then .pending else .next (.unset waker), state, task)
  | .unset waker =>
    let state := State.unset state flag
    .ok (.next (if State.has state done then .restore else .drop waker), state, task)
  -- Set the flag again so that the waker is released in drop
  | .restore => .ok (.ready, State.set state flag, task)
  | .drop waker => (dropTask task).map fun task => (.next (.write waker), state, task)
  | .write waker => .ok (.next (.set waker), state, some waker)
  | .set _ =>
    let state := State.set state flag
    .ok (if State.has state done then .ready else .pending, state, task)

def registerTx : State → Option W → Stage W → Except Fault (Progress W × State × Option W) :=
  register .txTaskSet .closed

def registerRx : State → Option W → Stage W → Except Fault (Progress W × State × Option W) :=
  register .rxTaskSet .valueSent

end Tasks

section Sending

variable [Wakers W]

def pollClosed (s : Oneshot T W) (stage : Stage W) : Except Fault (Option (Reply T) × Oneshot T W) :=
  (registerTx s.state s.txTask stage).map fun (progress, state, task) =>
    let s := { s with state := state, txTask := task }
    match progress with
    | .next stage => (none, { s with tx := .pollClosed stage })
    | .pending => (some (.closed false), { s with tx := .idle })
    | .ready => (some (.closed true), { s with tx := .idle })

def completed (s : Oneshot T W) (sending : Bool) : Option (Reply T) × Oneshot T W :=
  (if sending then some (.sent (.ok ())) else none, { s with tx := .release })

/-- The turn of the loop in set_complete that begins with a state that has been seen. -/
def see (s : Oneshot T W) (sending : Bool) (seen : State) : Option (Reply T) × Oneshot T W :=
  if seen.isClosed then
    (none, { s with tx := if sending then .takeBack else .release })
  else
    (none, { s with tx := .exchange sending seen })

/-- `spurious`: compare_exchange_weak may fail without a reason. -/
def stepSender (s : Oneshot T W) (spurious : Bool) : Except Fault (Option (Reply T) × Oneshot T W) :=
  match s.tx with
  | .pollClosed (.load waker) =>
    if s.state.isClosed then .ok (some (.closed true), { s with tx := .idle }) else s.pollClosed (.load waker)
  | .pollClosed stage => s.pollClosed stage
  | .send value => .ok (none, { s with value := some value, tx := .complete true })
  | .complete sending => .ok (s.see sending s.state)
  | .exchange sending seen =>
    if s.state = seen ∧ spurious = false then
      let t := { s with state := State.set s.state .valueSent }
      if seen.isRxTaskSet then .ok (none, { t with tx := .wake sending }) else .ok (t.completed sending)
    else
      .ok (s.see sending s.state)
  | .wake sending => (withTask s.rxTask).map fun _ => s.completed sending
  | .takeBack =>
    match s.value with
    | some value => .ok (some (.sent (.error value)), { s with value := none, tx := .release })
    | none => .error .noValue
  | .release => (release { s with tx := .gone }).map fun t => (none, t)
  | .idle | .gone => .ok (none, s)

end Sending

section Receiving

variable [Wakers W]

def pollRecv (s : Oneshot T W) (stage : Stage W) : Except Fault (Option (Reply T) × Oneshot T W) :=
  (registerRx s.state s.rxTask stage).map fun (progress, state, task) =>
    let s := { s with state := state, rxTask := task }
    match progress with
    | .next stage => (none, { s with rx := .poll stage })
    | .pending => (some (.polled none), { s with rx := .idle true })
    | .ready => (none, { s with rx := .consume true })

/-- After an error from poll, `inner` is still there. -/
def consumeValue (s : Oneshot T W) (polling : Bool) : Option (Reply T) × Oneshot T W :=
  let t := { s with value := none }
  match polling, s.value with
  | true, some value => (some (.polled (some (.ok value))), { t with rx := .release false })
  | true, none => (some (.polled (some (.error .closed))), { t with rx := .idle true })
  | false, some value => (some (.tried (.ok value)), { t with rx := .release false })
  | false, none => (some (.tried (.error .closed)), { t with rx := .release false })

def closed (s : Oneshot T W) (dropping : Bool) : Oneshot T W :=
  { s with rx := if dropping then .release true else .idle true }

def stepReceiver (s : Oneshot T W) : Except Fault (Option (Reply T) × Oneshot T W) :=
  match s.rx with
  | .poll (.load waker) =>
    if s.state.isComplete then
      .ok (none, { s with rx := .consume true })
    else if s.state.isClosed then
      .ok (some (.polled (some (.error .closed))), { s with rx := .idle true })
    else
      s.pollRecv (.load waker)
  | .poll stage => s.pollRecv stage
  | .tryRecv =>
    if s.state.isComplete then
      .ok (none, { s with rx := .consume false })
    else if s.state.isClosed then
      .ok (some (.tried (.error .closed)), { s with rx := .release false })
    else
      .ok (some (.tried (.error .empty)), { s with rx := .idle true })
  | .consume polling => .ok (s.consumeValue polling)
  | .close dropping =>
    let t := { s with state := s.state.setClosed }
    if s.state.isTxTaskSet && !s.state.isComplete then
      .ok (none, { t with rx := .wake dropping })
    else
      .ok (none, t.closed dropping)
  | .wake dropping => (withTask s.txTask).map fun _ => (none, s.closed dropping)
  | .release dropping =>
    (release { s with rx := if dropping then .gone else .idle false }).map fun t => (none, t)
  | .idle _ | .gone => .ok (none, s)

end Receiving

end Oneshot

inductive OneshotAction (T W : Type) where
  | pollClosed (waker : W)
  | send (value : T)
  | dropSender
  | poll (waker : W)
  | tryRecv
  | close
  | dropReceiver
  | stepSender (spurious : Bool)
  | stepReceiver

namespace Oneshot

variable {T W : Type}

/-- A receiver that has returned a value is not polled again: panic!("called after complete"). -/
def allowed (s : Oneshot T W) : OneshotAction T W → Bool
  | .pollClosed _ | .send _ | .dropSender =>
    match s.tx with
    | .idle => true
    | _ => false
  | .poll _ =>
    match s.rx with
    | .idle inner => inner
    | _ => false
  | .tryRecv | .close | .dropReceiver =>
    match s.rx with
    | .idle _ => true
    | _ => false
  | .stepSender _ =>
    match s.tx with
    | .idle | .gone => false
    | _ => true
  | .stepReceiver =>
    match s.rx with
    | .idle _ | .gone => false
    | _ => true

variable [Wakers W]

def perform (s : Oneshot T W) : OneshotAction T W → Except Fault (Option (Reply T) × Oneshot T W)
  | .pollClosed waker => .ok (none, { s with tx := .pollClosed (.load waker) })
  | .send value => .ok (none, { s with tx := .send value })
  | .dropSender => .ok (none, { s with tx := .complete false })
  | .poll waker => .ok (none, { s with rx := .poll (.load waker) })
  | .tryRecv =>
    if s.rx.holds then .ok (none, { s with rx := .tryRecv }) else .ok (some (.tried (.error .closed)), s)
  | .close => if s.rx.holds then .ok (none, { s with rx := .close false }) else .ok (none, s)
  | .dropReceiver => .ok (none, { s with rx := if s.rx.holds then .close true else .gone })
  | .stepSender spurious => s.stepSender spurious
  | .stepReceiver => s.stepReceiver

def step (s : Oneshot T W) (a : OneshotAction T W) : Outcome (Oneshot T W) Fault :=
  if s.allowed a then Outcome.attempt (s.perform a) fun (_, t) => .next t else .disabled

def machine (T W : Type) [Wakers W] : System (Oneshot T W) (OneshotAction T W) Fault where
  initial s := s = channel
  within _ := True
  step s a := s.step a

end Oneshot

end Osaka.Sync
