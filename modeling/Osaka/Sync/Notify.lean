import Mathlib.Logic.Function.Basic
import Osaka.Shared.PackedWord
import Osaka.Sync.BatchSemaphore

set_option autoImplicit false

namespace Osaka.Sync

open Transitions

namespace Notify

inductive NotificationType where
  | allWaiters
  | oneWaiter
  deriving DecidableEq

structure Waiter (W : Type) where
  waker : Option W
  notified : Option NotificationType

inductive State where
  | init (notifyWaitersCalls : BitVec 64)
  | waiting
  | done
  deriving DecidableEq

inductive Fault where
  -- assert!(waiter.notified.is_none())
  | notified
  -- waiters.pop_back().unwrap()
  | noWaiter
  -- unreachable!()
  | unreachable
  -- assert!(actual_state == EMPTY || actual_state == NOTIFIED)
  | waiting
  -- assert_ne!(self.head, Some(ptr))
  | alreadyListed
  deriving DecidableEq

def NOTIFY_WAITERS_SHIFT : Nat := 2

def STATE_MASK : BitVec 64 := (1#64 <<< NOTIFY_WAITERS_SHIFT) - 1#64

def NOTIFY_WAITERS_CALLS_MASK : BitVec 64 := ~~~STATE_MASK

def EMPTY : BitVec 64 := 0#64

def WAITING : BitVec 64 := 1#64

def NOTIFIED : BitVec 64 := 2#64

def setState (data state : BitVec 64) : BitVec 64 := data &&& NOTIFY_WAITERS_CALLS_MASK ||| state &&& STATE_MASK

def getState (data : BitVec 64) : BitVec 64 := data &&& STATE_MASK

def getNumNotifyWaitersCalls (data : BitVec 64) : BitVec 64 :=
  (data &&& NOTIFY_WAITERS_CALLS_MASK) >>> NOTIFY_WAITERS_SHIFT

def incNumNotifyWaitersCalls (data : BitVec 64) : BitVec 64 := data + 1#64 <<< NOTIFY_WAITERS_SHIFT

end Notify

structure Notified (W : Type) where
  state : Notify.State
  waiter : Notify.Waiter W
  -- The future is gone, or has not been made yet.
  dropped : Bool

structure Notify (W : Type) where
  state : BitVec 64
  -- The oldest waiter first: push_front puts at the end, pop_back takes from the front.
  waiters : List Nat
  -- each Notified ever made, by its address
  notifieds : Nat → Notified W
  created : Nat

namespace Notify

variable {W : Type}

def new : Notify W := ⟨0#64, [], fun _ => ⟨.done, ⟨none, none⟩, true⟩, 0⟩

variable (s : Notify W)

def setNotified (i : Nat) (n : Notified W) : Notify W := { s with notifieds := Function.update s.notifieds i n }

def setWaiter (i : Nat) (waiter : Waiter W) : Notify W := s.setNotified i { s.notifieds i with waiter := waiter }

def notified : Notify W :=
  { s.setNotified s.created ⟨.init (s.state >>> NOTIFY_WAITERS_SHIFT), ⟨none, none⟩, false⟩ with
    created := s.created + 1 }

section Notifying

/-- The waker is woken once the lock is released. -/
def notifyLocked (curr : BitVec 64) : Except Fault (Notify W × List W) :=
  if getState curr = EMPTY ∨ getState curr = NOTIFIED then
    -- compare_exchange(curr, set_state(curr, NOTIFIED))
    if s.state = curr then
      .ok ({ s with state := setState curr NOTIFIED }, [])
    else if getState s.state = EMPTY ∨ getState s.state = NOTIFIED then
      .ok ({ s with state := setState s.state NOTIFIED }, [])
    else
      .error .waiting
  else if getState curr = WAITING then
    match s.waiters with
    | [] => .error .noWaiter
    | i :: rest =>
      let waiter := (s.notifieds i).waiter
      if waiter.notified.isSome then
        .error .notified
      else
        .ok
          ({ s.setWaiter i ⟨none, some .oneWaiter⟩ with
              waiters := rest
              state := if rest = [] then setState curr EMPTY else s.state }, waiter.waker.toList)
  else
    .error .unreachable

-- On one thread the first compare_exchange succeeds.
def notifyOne : Except Fault (Notify W × List W) :=
  let curr := s.state
  if getState curr = EMPTY ∨ getState curr = NOTIFIED then
    .ok ({ s with state := setState curr NOTIFIED }, [])
  else
    s.notifyLocked s.state

def notifyAll (s : Notify W) : List Nat → Except Fault (Notify W × List W)
  | [] => .ok ({ s with waiters := [] }, [])
  | i :: rest =>
    let waiter := (s.notifieds i).waiter
    if waiter.notified.isSome then
      .error .notified
    else
      (notifyAll (s.setWaiter i ⟨none, some .allWaiters⟩) rest).map fun (t, wakers) =>
        (t, waiter.waker.toList ++ wakers)

def notifyWaiters : Except Fault (Notify W × List W) :=
  let curr := s.state
  if getState curr = EMPTY ∨ getState curr = NOTIFIED then
    .ok ({ s with state := incNumNotifyWaitersCalls curr }, [])
  else
    (s.notifyAll s.waiters).map fun (t, wakers) =>
      ({ t with state := setState (incNumNotifyWaitersCalls curr) EMPTY }, wakers)

end Notifying

section Waiting

def enlist (i : Nat) (waker : Option W) : Except Fault (Bool × Notify W) :=
  let n := s.notifieds i
  let waiter := if waker.isSome then { n.waiter with waker := waker } else n.waiter
  if s.waiters.getLast? = some i then
    .error .alreadyListed
  else
    .ok (false,
      { s.setNotified i { n with waiter := waiter, state := .waiting } with waiters := s.waiters ++ [i] })

variable [Wakers W]

-- Update the waker, if necessary.
def Waiter.update (waiter : Waiter W) : Option W → Waiter W
  | none => waiter
  | some waker =>
    match waiter.waker with
    | some current => if Wakers.willWake current waker then waiter else { waiter with waker := some waker }
    | none => { waiter with waker := some waker }

/-- Whether the answer is Ready. -/
def pollNotified (i : Nat) (waker : Option W) : Except Fault (Bool × Notify W) :=
  let n := s.notifieds i
  match n.state with
  | .init initialNotifyWaitersCalls =>
    let curr := s.state
    -- compare_exchange(set_state(curr, NOTIFIED), set_state(curr, EMPTY))
    if s.state = setState curr NOTIFIED then
      .ok (true, { s.setNotified i { n with state := .done } with state := setState curr EMPTY })
    else if getNumNotifyWaitersCalls curr ≠ initialNotifyWaitersCalls then
      .ok (true, s.setNotified i { n with state := .done })
    -- From here on, on one thread, a compare_exchange of what has just been loaded succeeds.
    else if getState curr = EMPTY then
      enlist { s with state := setState curr WAITING } i waker
    else if getState curr = WAITING then
      s.enlist i waker
    else if getState curr = NOTIFIED then
      .ok (true, { s.setNotified i { n with state := .done } with state := setState curr EMPTY })
    else
      .error .unreachable
  | .waiting =>
    if n.waiter.notified.isSome then
      .ok (true, s.setNotified i { n with waiter := ⟨none, none⟩, state := .done })
    else
      .ok (false, s.setWaiter i (n.waiter.update waker))
  | .done => .ok (true, s)

-- Future::poll
def poll (i : Nat) (waker : W) : Except Fault (Bool × Notify W) := s.pollNotified i (some waker)

def enable (i : Nat) : Except Fault (Bool × Notify W) := s.pollNotified i none

-- Notified::drop
def dropNotified (i : Nat) : Except Fault (Notify W × List W) :=
  let n := s.notifieds i
  let s := s.setNotified i { n with dropped := true }
  if n.state = .waiting then
    let s := { s with waiters := s.waiters.erase i }
    let notifyState := if s.waiters = [] ∧ getState s.state = WAITING then setState s.state EMPTY else s.state
    let s := { s with state := notifyState }
    if n.waiter.notified = some .oneWaiter then s.notifyLocked notifyState else .ok (s, [])
  else
    .ok (s, [])

end Waiting

end Notify

end Osaka.Sync
