import Mathlib.Algebra.BigOperators.Group.Finset.Basic
import Mathlib.Logic.Function.Basic
import Osaka.Shared.PackedWord
import Osaka.Shared.Transitions

set_option autoImplicit false

namespace Osaka.Sync

/-- Wakers, up to waking the same task. `will_wake` may miss that two of them do. -/
class Wakers (W : Type) where
  willWake : W → W → Bool
  same : ∀ stored given, willWake stored given = true → stored = given

instance : Wakers Nat where
  willWake stored given := stored == given
  same _ _ := by simp

/-- What the assertions of `batch_semaphore.rs` and of the list it uses rule out. -/
inductive Fault where
  -- assert!(permits < Semaphore::MAX_PERMIT)
  | tooMany
  -- assert_eq!(acquired, 0)
  | leftOver
  -- assert_ne!(self.head, Some(ptr))
  | alreadyListed
  deriving DecidableEq

def MAX_PERMIT : Nat := (2 ^ 64 - 1) >>> 3

def CLOSED : BitVec 64 := 1#64

def PERMIT_SHIFT : Nat := 1

structure Waiter (W : Type) where
  -- the permits still missing
  state : Nat
  waker : Option W

structure Acquire (W : Type) where
  node : Waiter W
  numPermits : Nat
  queued : Bool
  -- poll has returned Ready(Ok(())), or the Acquire has been dropped
  completed : Bool

structure Waitlist where
  -- The oldest waiter first: push_front puts at the end, pop_back takes from the front.
  list : List Nat
  closed : Bool
  deriving DecidableEq

structure Semaphore (W : Type) where
  state : BitVec 64
  waiters : Waitlist
  -- each Acquire ever made, by its address
  acquires : Nat → Acquire W
  created : Nat

inductive Acquired where
  | ready (result : Except Unit Unit)
  | pending
  deriving DecidableEq

inductive TryAcquireError where
  | closed
  | noPermits
  deriving DecidableEq

variable {W : Type}

def Waiter.new (numPermits : Nat) : Waiter W := ⟨numPermits, none⟩

/-- Takes what it can of `n`: whether nothing is missing now, the waiter, and what is left of `n`. -/
def Waiter.assignPermits (node : Waiter W) (n : Nat) : Bool × Waiter W × Nat :=
  let assign := min node.state n
  let next := node.state - assign
  (decide (next = 0), { node with state := next }, n - assign)

-- Do we need to register the new waker?
def Waiter.register [Wakers W] (node : Waiter W) (waker : W) : Waiter W :=
  match node.waker with
  | some stored => if Wakers.willWake stored waker then node else { node with waker := some waker }
  | none => { node with waker := some waker }

def Acquire.new (numPermits : Nat) : Acquire W := ⟨.new numPermits, numPermits, false, false⟩

namespace Semaphore

variable (s : Semaphore W)

-- new asserts that permits < MAX_PERMIT.
def new (permits : Nat) : Semaphore W where
  state := BitVec.ofNat 64 permits <<< PERMIT_SHIFT
  waiters := ⟨[], false⟩
  acquires := fun _ => ⟨⟨0, none⟩, 0, false, true⟩
  created := 0

def availablePermits : Nat := (s.state >>> PERMIT_SHIFT).toNat

def isClosed : Bool := s.state &&& CLOSED == CLOSED

def setAcquire (i : Nat) (acquire : Acquire W) : Semaphore W :=
  { s with acquires := Function.update s.acquires i acquire }

def setNode (i : Nat) (node : Waiter W) : Semaphore W :=
  s.setAcquire i { s.acquires i with node := node }

-- semaphore.acquire(num_permits)
def acquire (numPermits : Nat) : Semaphore W :=
  { s.setAcquire s.created (.new numPermits) with created := s.created + 1 }

section Release

/-- The inner loop over the waiters, from the oldest on: the semaphore after it, what is left of `rem`, and
the wakers collected. -/
def assignAll (s : Semaphore W) (rem : Nat) : List Nat → Semaphore W × Nat × List W
  | [] => ({ s with waiters := { s.waiters with list := [] } }, rem, [])
  | i :: rest =>
    let (full, node, rem) := (s.acquires i).node.assignPermits rem
    if full then
      let (t, rem, wakers) := assignAll (s.setNode i { node with waker := none }) rem rest
      (t, rem, node.waker.toList ++ wakers)
    else
      ({ s.setNode i node with waiters := { s.waiters with list := i :: rest } }, rem, [])

-- One pass of the outer loop leaves no permits over (`Passed.spent`). The wakers are woken after it.
def addPermitsLocked (rem : Nat) : Except Fault (Semaphore W × List W) :=
  if rem = 0 then
    .ok (s, [])
  else
    let (t, rem, wakers) := s.assignAll rem s.waiters.list
    if rem > 0 ∧ t.waiters.list = [] then
      if rem < MAX_PERMIT then
        .ok ({ t with state := t.state + BitVec.ofNat 64 rem <<< PERMIT_SHIFT }, wakers)
      else
        .error .tooMany
    else
      .ok (t, wakers)

def release (added : Nat) : Except Fault (Semaphore W × List W) :=
  if added = 0 then .ok (s, []) else s.addPermitsLocked added

end Release

section Close

def wakeAll (s : Semaphore W) : List Nat → Semaphore W × List W
  | [] => (s, [])
  | i :: rest =>
    let node := (s.acquires i).node
    let (t, wakers) := wakeAll (s.setNode i { node with waker := none }) rest
    (t, node.waker.toList ++ wakers)

def close : Semaphore W × List W :=
  { s with state := s.state ||| CLOSED, waiters := ⟨[], true⟩ }.wakeAll s.waiters.list

end Close

section TryAcquire

-- The assertion is on the caller: num_permits < MAX_PERMIT.
def tryAcquire (numPermits : Nat) : Except Fault (Except TryAcquireError Unit × Semaphore W) :=
  if numPermits < MAX_PERMIT then
    let num := BitVec.ofNat 64 numPermits <<< PERMIT_SHIFT
    if s.state &&& CLOSED == CLOSED then
      .ok (.error .closed, s)
    else if s.state < num then
      .ok (.error .noPermits, s)
    else
      .ok (.ok (), { s with state := s.state - num })
  else
    .error .tooMany

end TryAcquire

section Acquiring

variable [Wakers W]

-- Nothing has been acquired before the first compare_exchange, and on one thread that one succeeds.
def pollAcquire (i : Nat) (waker : W) : Except Fault (Acquired × Semaphore W × List W) :=
  let a := s.acquires i
  let needed := BitVec.ofNat 64 (if a.queued then a.node.state else a.numPermits) <<< PERMIT_SHIFT
  let curr := s.state
  if curr &&& CLOSED > 0#64 then
    .ok (.ready (.error ()), s, [])
  else
    let next := if curr ≥ needed then curr - needed else 0#64
    let acq := (if curr ≥ needed then needed >>> PERMIT_SHIFT else curr >>> PERMIT_SHIFT).toNat
    let remaining := if curr ≥ needed then 0#64 else needed - curr
    let s := { s with state := next }
    if remaining = 0#64 ∧ a.queued = false then
      .ok (.ready (.ok ()), s, [])
    else if s.waiters.closed then
      .ok (.ready (.error ()), s, [])
    else
      let (full, node, acquired) := a.node.assignPermits acq
      let s := s.setNode i node
      if full then
        (s.addPermitsLocked acquired).map fun (t, wakers) => (.ready (.ok ()), t, wakers)
      else if acquired ≠ 0 then
        .error .leftOver
      else
        let s := s.setNode i (node.register waker)
        if a.queued then
          .ok (.pending, s, [])
        else if s.waiters.list.getLast? = some i then
          .error .alreadyListed
        else
          .ok (.pending, { s with waiters := { s.waiters with list := s.waiters.list ++ [i] } }, [])

-- Acquire::poll
def poll (i : Nat) (waker : W) : Except Fault (Acquired × Semaphore W × List W) :=
  (s.pollAcquire i waker).map fun (result, t, wakers) =>
    match result with
    | .pending => (result, t.setAcquire i { t.acquires i with queued := true }, wakers)
    | .ready (.error ()) => (result, t, wakers)
    | .ready (.ok ()) => (result, t.setAcquire i { t.acquires i with queued := false, completed := true }, wakers)

-- Acquire::drop
def dropAcquire (i : Nat) : Except Fault (Semaphore W × List W) :=
  let a := s.acquires i
  let s := s.setAcquire i { a with queued := false, completed := true }
  if a.queued = false then
    .ok (s, [])
  else
    let s := { s with waiters := { s.waiters with list := s.waiters.list.erase i } }
    let acquired := a.numPermits - a.node.state
    if acquired > 0 then s.addPermitsLocked acquired else .ok (s, [])

end Acquiring

end Semaphore

end Osaka.Sync
