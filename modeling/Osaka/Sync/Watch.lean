import Osaka.Sync.Notify

set_option autoImplicit false

namespace Osaka.Sync

open Transitions

namespace Watch

inductive Fault where
  | notify (fault : Notify.Fault)
  -- changed or closed does not come to an end
  | endless
  deriving DecidableEq

inductive RecvError where
  | closed
  deriving DecidableEq

def CLOSED : BitVec 64 := 1#64

def Version.initial : BitVec 64 := 0#64

namespace State

variable (state : BitVec 64)

def version : BitVec 64 := state &&& ~~~CLOSED

def isClosed : Bool := state &&& CLOSED == CLOSED

def new : BitVec 64 := 0#64

-- Increment by two to avoid touching the CLOSED bit.
def incrementVersion : BitVec 64 := state + 2#64

def setClosed : BitVec 64 := state ||| CLOSED

end State

/-- What a closure does to the value, and whether it panics. -/
inductive Verdict where
  | modified
  | unmodified
  | panicked
  deriving DecidableEq

structure Receiver where
  version : BitVec 64
  -- the Notified that changed() awaits
  changed : Option Nat
  dropped : Bool

inductive Answer (T : Type) where
  | none
  | value (value : T)
  | sent (result : Except T Unit)
  | modified (modified : Bool)
  | panicked
  -- changed: nothing if it is pending
  | changed (result : Option (Except RecvError Unit))
  -- closed: whether it is ready
  | closed (ready : Bool)

end Watch

structure Watch (T W : Type) where
  value : T
  state : BitVec 64
  -- A count for which memory would run out before it could wrap.
  refCountRx : Nat
  notifyRx : Notify W
  notifyTx : Notify W
  sender : Bool
  -- each Receiver ever made, by its number
  receivers : Nat → Watch.Receiver
  made : Nat
  -- the Notified that each future of closed() awaits
  closings : Nat → Option Nat

namespace Watch

variable {T W : Type}

def channel (init : T) : Watch T W :=
  { value := init
    state := State.new
    refCountRx := 1
    notifyRx := .new
    notifyTx := .new
    sender := true
    receivers := fun r => ⟨Version.initial, none, r != 0⟩
    made := 1
    closings := fun _ => none }

variable (s : Watch T W)

def setReceiver (r : Nat) (receiver : Receiver) : Watch T W :=
  { s with receivers := Function.update s.receivers r receiver }

def setClosing (k : Nat) (notified : Option Nat) : Watch T W :=
  { s with closings := Function.update s.closings k notified }

section Notifying

def notifyReceivers : Except Fault (Watch T W × List W) :=
  match s.notifyRx.notifyWaiters with
  | .error fault => .error (.notify fault)
  | .ok (notify, wakers) => .ok ({ s with notifyRx := notify }, wakers)

def notifySender : Except Fault (Watch T W × List W) :=
  match s.notifyTx.notifyWaiters with
  | .error fault => .error (.notify fault)
  | .ok (notify, wakers) => .ok ({ s with notifyTx := notify }, wakers)

variable [Wakers W]

-- notified.await: the future is dropped when it is ready
def awaitNotified (notify : Notify W) (i : Nat) (waker : W) : Except Fault (Bool × Notify W × List W) :=
  match notify.poll i waker with
  | .error fault => .error (.notify fault)
  | .ok (false, notify) => .ok (false, notify, [])
  | .ok (true, notify) =>
    match notify.dropNotified i with
    | .error fault => .error (.notify fault)
    | .ok (notify, wakers) => .ok (true, notify, wakers)

end Notifying

section Receiving

-- Receiver::from_shared
def fromShared (version : BitVec 64) : Watch T W :=
  { s.setReceiver s.made ⟨version, none, false⟩ with made := s.made + 1, refCountRx := s.refCountRx + 1 }

def maybeChanged (r : Nat) : Option (Except RecvError Unit) × Watch T W :=
  let newVersion := State.version s.state
  if (s.receivers r).version ≠ newVersion then
    (some (.ok ()), s.setReceiver r { s.receivers r with version := newVersion })
  else if State.isClosed s.state then
    (some (.error .closed), s)
  else
    (none, s)

def borrowAndUpdate (r : Nat) : Watch T W :=
  s.setReceiver r { s.receivers r with version := State.version s.state }

-- Receiver::clone
def clone (r : Nat) : Watch T W := s.fromShared (s.receivers r).version

-- Receiver::drop
def dropReceiver (r : Nat) : Except Fault (Watch T W × List W) :=
  let t := { s.setReceiver r { s.receivers r with dropped := true } with refCountRx := s.refCountRx - 1 }
  if s.refCountRx = 1 then t.notifySender else .ok (t, [])

variable [Wakers W]

/-- The loop in changed, with no Notified yet. -/
def changedLoop (s : Watch T W) (r : Nat) (waker : W) :
    Nat → Except Fault (Option (Except RecvError Unit) × Watch T W × List W)
  | 0 => .error .endless
  | fuel + 1 =>
    let i := s.notifyRx.created
    let (ret, s) := maybeChanged { s with notifyRx := s.notifyRx.notified } r
    if ret.isSome then
      match s.notifyRx.dropNotified i with
      | .error fault => .error (.notify fault)
      | .ok (notify, wakers) => .ok (ret, { s with notifyRx := notify }, wakers)
    else
      match awaitNotified s.notifyRx i waker with
      | .error fault => .error fault
      | .ok (false, notify, wakers) =>
        .ok (none, { s.setReceiver r { s.receivers r with changed := some i } with notifyRx := notify }, wakers)
      | .ok (true, notify, wakers) =>
        (changedLoop { s with notifyRx := notify } r waker fuel).map fun (ret, s, more) => (ret, s, wakers ++ more)

/-- A poll of changed, which goes on from the Notified that it awaits. -/
def pollChanged (r : Nat) (waker : W) : Except Fault (Option (Except RecvError Unit) × Watch T W × List W) :=
  match (s.receivers r).changed with
  | none => s.changedLoop r waker 2
  | some i =>
    match awaitNotified s.notifyRx i waker with
    | .error fault => .error fault
    | .ok (false, notify, wakers) => .ok (none, { s with notifyRx := notify }, wakers)
    | .ok (true, notify, wakers) =>
      (changedLoop { s.setReceiver r { s.receivers r with changed := none } with notifyRx := notify } r waker 2).map
        fun (ret, s, more) => (ret, s, wakers ++ more)

/-- changed is dropped before it is ready. -/
def cancelChanged (r : Nat) : Except Fault (Watch T W × List W) :=
  match (s.receivers r).changed with
  | none => .ok (s, [])
  | some i =>
    match s.notifyRx.dropNotified i with
    | .error fault => .error (.notify fault)
    | .ok (notify, wakers) =>
      .ok ({ s.setReceiver r { s.receivers r with changed := none } with notifyRx := notify }, wakers)

end Receiving

section Sending

def sendIfModified (modify : T → T × Verdict) : Except Fault (Answer T × Watch T W × List W) :=
  let (value, verdict) := modify s.value
  let s := { s with value := value }
  match verdict with
  | .unmodified => .ok (.modified false, s, [])
  | .panicked => .ok (.panicked, s, [])
  | .modified =>
    (notifyReceivers { s with state := State.incrementVersion s.state }).map fun (s, wakers) =>
      (.modified true, s, wakers)

/-- The closure may panic. -/
def sendModify (modify : T → T × Bool) : Except Fault (Answer T × Watch T W × List W) :=
  (s.sendIfModified fun value =>
    ((modify value).1, if (modify value).2 then .panicked else .modified)).map fun (answer, s, wakers) =>
      (match answer with
        | .panicked => .panicked
        | _ => .none, s, wakers)

def sendReplace (value : T) : Except Fault (Answer T × Watch T W × List W) :=
  (s.sendModify fun _ => (value, false)).map fun (_, t, wakers) => (.value s.value, t, wakers)

def send (value : T) : Except Fault (Answer T × Watch T W × List W) :=
  if s.refCountRx = 0 then
    .ok (.sent (.error value), s, [])
  else
    (s.sendReplace value).map fun (_, s, wakers) => (.sent (.ok ()), s, wakers)

def subscribe : Watch T W := s.fromShared (State.version s.state)

-- Sender::drop
def dropSender : Except Fault (Watch T W × List W) :=
  notifyReceivers { s with state := State.setClosed s.state, sender := false }

variable [Wakers W]

def closedLoop (s : Watch T W) (k : Nat) (waker : W) : Nat → Except Fault (Bool × Watch T W × List W)
  | 0 => .error .endless
  | fuel + 1 =>
    if s.refCountRx > 0 then
      let i := s.notifyTx.created
      let s := { s with notifyTx := s.notifyTx.notified }
      if s.refCountRx = 0 then
        match s.notifyTx.dropNotified i with
        | .error fault => .error (.notify fault)
        | .ok (notify, wakers) => .ok (true, { s with notifyTx := notify }, wakers)
      else
        match awaitNotified s.notifyTx i waker with
        | .error fault => .error fault
        | .ok (false, notify, wakers) => .ok (false, { s.setClosing k (some i) with notifyTx := notify }, wakers)
        | .ok (true, notify, wakers) =>
          (closedLoop { s with notifyTx := notify } k waker fuel).map fun (ready, s, more) => (ready, s, wakers ++ more)
    else
      .ok (true, s, [])

def pollClosed (k : Nat) (waker : W) : Except Fault (Bool × Watch T W × List W) :=
  match s.closings k with
  | none => s.closedLoop k waker 2
  | some i =>
    match awaitNotified s.notifyTx i waker with
    | .error fault => .error fault
    | .ok (false, notify, wakers) => .ok (false, { s with notifyTx := notify }, wakers)
    | .ok (true, notify, wakers) =>
      (closedLoop { s.setClosing k none with notifyTx := notify } k waker 2).map fun (ready, s, more) =>
        (ready, s, wakers ++ more)

def cancelClosed (k : Nat) : Except Fault (Watch T W × List W) :=
  match s.closings k with
  | none => .ok (s, [])
  | some i =>
    match s.notifyTx.dropNotified i with
    | .error fault => .error (.notify fault)
    | .ok (notify, wakers) => .ok ({ s.setClosing k none with notifyTx := notify }, wakers)

end Sending

end Watch

inductive WatchAction (T W : Type) where
  | send (value : T)
  | sendReplace (value : T)
  | sendModify (modify : T → T × Bool)
  | sendIfModified (modify : T → T × Watch.Verdict)
  | subscribe
  | dropSender
  | clone (r : Nat)
  | dropReceiver (r : Nat)
  -- of either side
  | borrow
  | borrowAndUpdate (r : Nat)
  | pollChanged (r : Nat) (waker : W)
  | cancelChanged (r : Nat)
  | pollClosed (k : Nat) (waker : W)
  | cancelClosed (k : Nat)

namespace Watch

variable {T W : Type}

/-- While changed is pending, its receiver is borrowed. -/
def allowed (s : Watch T W) : WatchAction T W → Bool
  | .send _ | .sendReplace _ | .sendModify _ | .sendIfModified _ | .subscribe | .dropSender | .pollClosed _ _ => s.sender
  | .clone r | .dropReceiver r | .borrowAndUpdate r => !(s.receivers r).dropped && (s.receivers r).changed.isNone
  | .pollChanged r _ | .cancelChanged r => !(s.receivers r).dropped
  | .borrow | .cancelClosed _ => true

variable [Wakers W]

def perform (s : Watch T W) : WatchAction T W → Except Fault (Answer T × Watch T W × List W)
  | .send value => s.send value
  | .sendReplace value => s.sendReplace value
  | .sendModify modify => s.sendModify modify
  | .sendIfModified modify => s.sendIfModified modify
  | .subscribe => .ok (.none, s.subscribe, [])
  | .dropSender => s.dropSender.map fun (t, wakers) => (.none, t, wakers)
  | .clone r => .ok (.none, s.clone r, [])
  | .dropReceiver r => (s.dropReceiver r).map fun (t, wakers) => (.none, t, wakers)
  | .borrow => .ok (.value s.value, s, [])
  | .borrowAndUpdate r => .ok (.value s.value, s.borrowAndUpdate r, [])
  | .pollChanged r waker => (s.pollChanged r waker).map fun (result, t, wakers) => (.changed result, t, wakers)
  | .cancelChanged r => (s.cancelChanged r).map fun (t, wakers) => (.none, t, wakers)
  | .pollClosed k waker => (s.pollClosed k waker).map fun (ready, t, wakers) => (.closed ready, t, wakers)
  | .cancelClosed k => (s.cancelClosed k).map fun (t, wakers) => (.none, t, wakers)

def step (s : Watch T W) (a : WatchAction T W) : Outcome (Watch T W) Fault :=
  if s.allowed a then Outcome.attempt (s.perform a) fun (_, t, _) => .next t else .disabled

def machine (T W : Type) [Wakers W] : System (Watch T W) (WatchAction T W) Fault where
  initial s := ∃ init, s = channel init
  within _ := True
  step s a := s.step a

end Watch

end Osaka.Sync
