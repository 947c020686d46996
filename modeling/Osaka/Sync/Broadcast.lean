import Mathlib.Logic.Function.Basic
import Osaka.Shared.Transitions
import Osaka.Sync.BatchSemaphore

set_option autoImplicit false

namespace Osaka.Sync

open Transitions

namespace Broadcast

/-- What the assertions and panics of `broadcast.rs` and of the list it uses rule out. -/
inductive Fault where
  -- assert!(waiter.queued)
  | unqueued
  -- waiter.waker.take().unwrap()
  | noWaker
  -- assert_ne!(self.head, Some(ptr))
  | alreadyListed
  -- panic!("max receivers")
  | maxReceivers
  -- self.slot.rem.fetch_sub(1, SeqCst), which would wrap around
  | noneRemaining
  -- tail.rx_cnt -= 1
  | noReceiver
  -- panic!("unexpected empty broadcast channel")
  | unexpectedEmpty
  -- The loop in Receiver::drop would go on.
  | endless
  deriving DecidableEq

inductive TryRecvError where
  | empty
  | closed
  | lagged (amount : BitVec 64)
  deriving DecidableEq

inductive RecvError where
  | closed
  | lagged (amount : BitVec 64)
  deriving DecidableEq

structure Slot (T : Type) where
  rem : Nat
  pos : BitVec 64
  closed : Bool
  val : Option T

structure Waiter (W : Type) where
  queued : Bool
  waker : Option W

structure Receiver (W : Type) where
  next : BitVec 64
  -- A Recv borrows the receiver, and this is its waiter.
  borrowed : Bool
  waiter : Waiter W
  -- The receiver is gone, or has not been made yet.
  dropped : Bool

structure Tail where
  pos : BitVec 64
  rxCnt : Nat
  closed : Bool
  -- The oldest waiter first: push_front puts at the end, pop_back takes from the front.
  waiters : List Nat

def MAX_RECEIVERS : Nat := (2 ^ 64 - 1) >>> 2

end Broadcast

open Broadcast in
structure Broadcast (T W : Type) where
  buffer : Nat → Slot T
  -- buffer.len()
  len : Nat
  mask : BitVec 64
  tail : Tail
  numTx : Nat
  -- each receiver ever made
  receivers : Nat → Receiver W
  created : Nat

namespace Broadcast

variable {T W : Type}

def Waiter.new : Waiter W := ⟨false, none⟩

-- usize::next_power_of_two
def nextPowerOfTwo (n : Nat) : Nat := if n ≤ 1 then 1 else 2 ^ (Nat.log2 (n - 1) + 1)

/-- The first receiver is the one that `channel` returns. -/
def channel (capacity : Nat) : Option (Broadcast T W) :=
  if capacity > 0 ∧ capacity ≤ (2 ^ 64 - 1) >>> 1 then
    let capacity := nextPowerOfTwo capacity
    some
      { buffer := fun i => ⟨0, BitVec.ofNat 64 i - BitVec.ofNat 64 capacity, false, none⟩
        len := capacity
        mask := BitVec.ofNat 64 (capacity - 1)
        tail := ⟨0#64, 1, false, []⟩
        numTx := 1
        receivers := fun i => ⟨0#64, false, .new, decide (i ≠ 0)⟩
        created := 1 }
  else
    none

variable (s : Broadcast T W)

def idx (pos : BitVec 64) : Nat := (pos &&& s.mask).toNat

def setReceiver (r : Nat) (receiver : Receiver W) : Broadcast T W :=
  { s with receivers := Function.update s.receivers r receiver }

def setNext (r : Nat) (next : BitVec 64) : Broadcast T W := s.setReceiver r { s.receivers r with next := next }

def setSlot (i : Nat) (slot : Slot T) : Broadcast T W := { s with buffer := Function.update s.buffer i slot }

section Sending

/-- The loop over the waiters, from the oldest on, and the wakers that it wakes. -/
def notifyRx (s : Broadcast T W) : List Nat → Except Fault (Broadcast T W × List W)
  | [] => .ok ({ s with tail := { s.tail with waiters := [] } }, [])
  | r :: rest =>
    let receiver := s.receivers r
    if receiver.waiter.queued then
      match receiver.waiter.waker with
      | some waker =>
        (notifyRx (s.setReceiver r { receiver with waiter := ⟨false, none⟩ }) rest).map fun (t, wakers) =>
          (t, waker :: wakers)
      | none => .error .noWaker
    else
      .error .unqueued

/-- How many receivers there are, or nothing if there are none, which is SendError. -/
def send2 (value : Option T) : Except Fault (Option Nat × Broadcast T W × List W) :=
  if s.tail.rxCnt = 0 then
    .ok (none, s, [])
  else
    let pos := s.tail.pos
    let rem := s.tail.rxCnt
    let idx := s.idx pos
    let slot := s.buffer idx
    let s := { s with tail := { s.tail with pos := pos + 1#64 } }
    let s :=
      match value with
      | none => { s.setSlot idx ⟨rem, pos, true, slot.val⟩ with tail := { s.tail with closed := true } }
      | some value => s.setSlot idx ⟨rem, pos, slot.closed, some value⟩
    (s.notifyRx s.tail.waiters).map fun (t, wakers) => (some rem, t, wakers)

def send (value : T) : Except Fault (Option Nat × Broadcast T W × List W) := s.send2 (some value)

-- Sender::clone
def cloneSender : Broadcast T W := { s with numTx := s.numTx + 1 }

-- Sender::drop
def dropSender : Except Fault (Broadcast T W × List W) :=
  let t := { s with numTx := s.numTx - 1 }
  if s.numTx = 1 then (t.send2 none).map fun (_, u, wakers) => (u, wakers) else .ok (t, [])

def newReceiver : Except Fault (Broadcast T W) :=
  if s.tail.rxCnt = MAX_RECEIVERS then
    .error .maxReceivers
  else
    .ok
      { s.setReceiver s.created ⟨s.tail.pos, false, .new, false⟩ with
        tail := { s.tail with rxCnt := s.tail.rxCnt + 1 }
        created := s.created + 1 }

end Sending

section Receiving

variable [Wakers W]

def register (r : Nat) (waker : W) : Except Fault (Broadcast T W) :=
  let receiver := s.receivers r
  let stored :=
    match receiver.waiter.waker with
    | some current => if Wakers.willWake current waker then some current else some waker
    | none => some waker
  let t := s.setReceiver r { receiver with waiter := ⟨true, stored⟩ }
  if receiver.waiter.queued then
    .ok t
  else if s.tail.waiters.getLast? = some r then
    .error .alreadyListed
  else
    .ok { t with tail := { t.tail with waiters := t.tail.waiters ++ [r] } }

/-- The slot that the guard is for, or why there is none. On one thread the slot is the same when it has been
locked again. -/
def recvRef (r : Nat) (waker : Option W) : Except Fault (Except TryRecvError Nat × Broadcast T W) :=
  let next := (s.receivers r).next
  let idx := s.idx next
  let slot := s.buffer idx
  if slot.pos ≠ next then
    let nextPos := slot.pos + BitVec.ofNat 64 s.len
    if nextPos = next then
      match waker with
      | none => .ok (.error .empty, s)
      | some waker => (s.register r waker).map fun t => (.error .empty, t)
    else
      let adjust := if s.tail.closed then 1 else 0
      let oldest := s.tail.pos - BitVec.ofNat 64 (s.len + adjust)
      let missed := oldest - next
      -- The receiver is slow but no values have been missed
      if missed = 0#64 then
        .ok (.ok idx, s.setNext r (next + 1#64))
      else
        .ok (.error (.lagged missed), s.setNext r oldest)
  else if slot.closed then
    .ok (.error .closed, s.setNext r (next + 1#64))
  else
    .ok (.ok idx, s.setNext r (next + 1#64))

-- RecvGuard::drop
def dropGuard (i : Nat) : Except Fault (Broadcast T W) :=
  let slot := s.buffer i
  if slot.rem = 0 then
    .error .noneRemaining
  else
    .ok (s.setSlot i { slot with rem := slot.rem - 1, val := if slot.rem = 1 then none else slot.val })

def readGuard (i : Nat) : Except Fault (Option T × Broadcast T W) :=
  (s.dropGuard i).map fun t => ((s.buffer i).val, t)

def tryRecv (r : Nat) : Except Fault (Except TryRecvError T × Broadcast T W) :=
  match s.recvRef r none with
  | .ok (.ok i, t) => (t.readGuard i).map fun (value, u) => (value.elim (.error .closed) .ok, u)
  | .ok (.error reason, t) => .ok (.error reason, t)
  | .error fault => .error fault

-- Recv::drop
def dropRecv (r : Nat) : Broadcast T W :=
  let receiver := s.receivers r
  let t := s.setReceiver r { receiver with borrowed := false, waiter := .new }
  if receiver.waiter.queued then { t with tail := { t.tail with waiters := t.tail.waiters.erase r } } else t

-- Recv::new
def newRecv (r : Nat) : Broadcast T W :=
  if (s.receivers r).borrowed then s else s.setReceiver r { s.receivers r with borrowed := true, waiter := .new }

/-- A poll of recv(), the first one making the Recv; without a result it is pending. -/
def pollRecv (r : Nat) (waker : W) : Except Fault (Option (Except RecvError T) × Broadcast T W) :=
  match (s.newRecv r).recvRef r (some waker) with
  | .ok (.ok i, t) => (t.readGuard i).map fun (value, u) => (some (value.elim (.error .closed) .ok), u.dropRecv r)
  | .ok (.error .empty, t) => .ok (none, t)
  | .ok (.error (.lagged n), t) => .ok (some (.error (.lagged n)), t.dropRecv r)
  | .ok (.error .closed, t) => .ok (some (.error .closed), t.dropRecv r)
  | .error fault => .error fault

def drain (s : Broadcast T W) (r : Nat) (limit : BitVec 64) : Nat → Except Fault (Broadcast T W)
  | 0 => if (s.receivers r).next < limit then .error .endless else .ok s
  | fuel + 1 =>
    if (s.receivers r).next < limit then
      match s.recvRef r none with
      | .ok (.ok i, t) =>
        match t.dropGuard i with
        | .ok u => drain u r limit fuel
        | .error fault => .error fault
      | .ok (.error .closed, t) => .ok t
      | .ok (.error (.lagged _), t) => drain t r limit fuel
      | .ok (.error .empty, _) => .error .unexpectedEmpty
      | .error fault => .error fault
    else
      .ok s

-- Receiver::drop
def dropReceiver (r : Nat) : Except Fault (Broadcast T W) :=
  if s.tail.rxCnt = 0 then
    .error .noReceiver
  else
    let t := { s with tail := { s.tail with rxCnt := s.tail.rxCnt - 1 } }
    (t.drain r t.tail.pos (t.tail.pos - (t.receivers r).next).toNat).map fun u =>
      u.setReceiver r { u.receivers r with dropped := true }

end Receiving

end Broadcast

inductive BroadcastAction (T W : Type) where
  | send (value : T)
  | subscribe
  | resubscribe (r : Nat)
  | cloneSender
  | dropSender
  | tryRecv (r : Nat)
  | pollRecv (r : Nat) (waker : W)
  | dropRecv (r : Nat)
  | dropReceiver (r : Nat)

namespace Broadcast

variable {T W : Type}

inductive Answer (T : Type) where
  | none
  | sent (count : Option Nat)
  | received (result : Except TryRecvError T)
  | polled (result : Option (Except RecvError T))

/-- A Recv has its receiver to itself. -/
def allowed (s : Broadcast T W) : BroadcastAction T W → Bool
  | .send _ | .subscribe | .cloneSender | .dropSender => decide (0 < s.numTx)
  | .resubscribe r | .tryRecv r | .dropReceiver r => !(s.receivers r).dropped && !(s.receivers r).borrowed
  | .pollRecv r _ => !(s.receivers r).dropped
  | .dropRecv r => !(s.receivers r).dropped && (s.receivers r).borrowed

variable [Wakers W]

/-- What is answered, the channel then, and the wakers that are woken. -/
def perform (s : Broadcast T W) : BroadcastAction T W → Except Fault (Answer T × Broadcast T W × List W)
  | .send value => (s.send value).map fun (count, t, wakers) => (.sent count, t, wakers)
  | .subscribe => s.newReceiver.map fun t => (.none, t, [])
  | .resubscribe _ => s.newReceiver.map fun t => (.none, t, [])
  | .cloneSender => .ok (.none, s.cloneSender, [])
  | .dropSender => s.dropSender.map fun (t, wakers) => (.none, t, wakers)
  | .tryRecv r => (s.tryRecv r).map fun (result, t) => (.received result, t, [])
  | .pollRecv r waker => (s.pollRecv r waker).map fun (result, t) => (.polled result, t, [])
  | .dropRecv r => .ok (.none, s.dropRecv r, [])
  | .dropReceiver r => (s.dropReceiver r).map fun t => (.none, t, [])

def step (s : Broadcast T W) (a : BroadcastAction T W) : Outcome (Broadcast T W) Fault :=
  if s.allowed a then Outcome.attempt (s.perform a) fun (_, t, _) => .next t else .disabled

def machine (T W : Type) [Wakers W] (capacity : Nat) : System (Broadcast T W) (BroadcastAction T W) Fault where
  initial s := channel capacity = some s
  within _ := True
  step s a := s.step a

end Broadcast

end Osaka.Sync
