import Osaka.Sync.SemaphoreWakeups

set_option autoImplicit false

namespace Osaka.Sync

open Transitions

variable {T W : Type}

inductive OnceFault where
  | semaphore (fault : Fault)
  -- debug_assert!(!self.initialized()), debug_assert!(self.initialized())
  | initialized
  -- get_unchecked of an empty cell
  | uninit
  deriving DecidableEq

inductive SetError (T : Type) where
  | alreadyInitializedError (value : T)
  | initializingError (value : T)
  deriving DecidableEq

/-- A future of get_or_init or of get_or_try_init. -/
inductive OnceCall where
  -- not polled yet
  | called
  -- at self.semaphore.acquire().await
  | acquiring (i : Nat)
  -- at f().await, with the permit
  | initialising
  -- it has returned, has panicked or has been dropped
  | finished
  deriving DecidableEq

-- What a poll of the future that f() has returned comes to.
inductive Initialiser (T : Type) where
  | pending
  | value (value : T)
  -- Err(e), of get_or_try_init
  | failed
  | panicked

structure OnceCell (T W : Type) where
  valueSet : Bool
  -- none while it is not initialised memory
  value : Option T
  semaphore : Semaphore W
  -- the futures, in the order in which they are made
  calls : Nat → OnceCall
  fallible : Nat → Bool
  made : Nat

inductive OnceAnswer (T : Type) where
  | nothing
  | got (value : Option T)
  | set (result : Except (SetError T) Unit)
  | pending
  -- f has been called
  | begun
  | value (value : T)
  -- Err(e), or the panic goes on
  | failed
  deriving DecidableEq

namespace OnceCell

def new : OnceCell T W where
  valueSet := false
  value := none
  semaphore := .new 1
  calls := fun _ => .finished
  fallible := fun _ => false
  made := 0

-- From<T>
def fromValue (value : T) : OnceCell T W where
  valueSet := true
  value := some value
  semaphore := (Semaphore.new 0 : Semaphore W).close.1
  calls := fun _ => .finished
  fallible := fun _ => false
  made := 0

def newWith : Option T → OnceCell T W
  | some value => fromValue value
  | none => new

variable (m : OnceCell T W)

def initialized : Bool := m.valueSet

def getUnchecked : Except OnceFault T :=
  match m.value with
  | some value => .ok value
  | none => .error .uninit

def setCall (c : Nat) (call : OnceCall) : OnceCell T W := { m with calls := Function.update m.calls c call }

-- The permit is forgotten.
def setValue (value : T) : Except OnceFault (T × OnceCell T W × List W) :=
  let m := { m with value := some value }
  let m := { m with valueSet := true }
  let (s, wakers) := m.semaphore.close
  let m := { m with semaphore := s }
  m.getUnchecked.map fun value => (value, m, wakers)

def get : Except OnceFault (Option T) := if m.initialized then m.getUnchecked.map some else .ok none

def set (value : T) : Except OnceFault (Except (SetError T) Unit × OnceCell T W × List W) :=
  if m.initialized then
    .ok (.error (.alreadyInitializedError value), m, [])
  else
    match m.semaphore.tryAcquire 1 with
    | .ok (.ok (), s) =>
      let m := { m with semaphore := s }
      if m.initialized then .error .initialized else (m.setValue value).map fun (_, m, wakers) => (.ok (), m, wakers)
    | .ok (.error .noPermits, s) => .ok (.error (.initializingError value), { m with semaphore := s }, [])
    | .ok (.error .closed, s) => .ok (.error (.alreadyInitializedError value), { m with semaphore := s }, [])
    | .error fault => .error (.semaphore fault)

-- The future of get_or_init, or of get_or_try_init, before its first poll.
def getOrInit (fallible : Bool) : OnceCell T W :=
  { m.setCall m.made .called with
    fallible := Function.update m.fallible m.made fallible
    made := m.made + 1 }

section Polling

variable [Wakers W]

-- self.semaphore.acquire().await, up to the call of f. The Acquire is dropped once it is ready.
def pollAcquire (c i : Nat) (waker : W) : Except OnceFault (OnceAnswer T × OnceCell T W × List W) :=
  match m.semaphore.poll i waker with
  | .ok (.pending, s, wakers) => .ok (.pending, { m with semaphore := s }, wakers)
  | .ok (.ready result, s, wakers) =>
    match s.dropAcquire i with
    | .ok (s, more) =>
      let m := { m with semaphore := s }
      match result with
      | .ok () =>
        if m.initialized then .error .initialized else .ok (.begun, m.setCall c .initialising, wakers ++ more)
      | .error () =>
        if m.initialized then
          m.getUnchecked.map fun value => (.value value, m.setCall c .finished, wakers ++ more)
        else
          .error .initialized
    | .error fault => .error (.semaphore fault)
  | .error fault => .error (.semaphore fault)

def poll (c : Nat) (waker : W) : Except OnceFault (OnceAnswer T × OnceCell T W × List W) :=
  match m.calls c with
  | .called =>
    if m.initialized then
      m.getUnchecked.map fun value => (.value value, m.setCall c .finished, [])
    else
      let i := m.semaphore.created
      let m := { m with semaphore := m.semaphore.acquire 1 }
      (m.setCall c (.acquiring i)).pollAcquire c i waker
  | .acquiring i => m.pollAcquire c i waker
  | .initialising | .finished => .ok (.pending, m, [])

end Polling

-- The call ends, and its permit is dropped.
def giveUp (c : Nat) : Except OnceFault (OnceCell T W × List W) :=
  match m.semaphore.release 1 with
  | .ok (s, wakers) => .ok ({ m with semaphore := s }.setCall c .finished, wakers)
  | .error fault => .error (.semaphore fault)

-- The poll of f()'s future, and what the call does next.
def initialise (c : Nat) : Initialiser T → Except OnceFault (OnceAnswer T × OnceCell T W × List W)
  | .pending => .ok (.pending, m, [])
  | .value value => (m.setValue value).map fun (value, m, wakers) => (.value value, m.setCall c .finished, wakers)
  | .failed | .panicked => (m.giveUp c).map fun (m, wakers) => (.failed, m, wakers)

-- The future of the call is dropped, wherever it is.
def cancel (c : Nat) : Except OnceFault (OnceCell T W × List W) :=
  match m.calls c with
  | .called | .finished => .ok (m.setCall c .finished, [])
  | .acquiring i =>
    match m.semaphore.dropAcquire i with
    | .ok (s, wakers) => .ok ({ m with semaphore := s }.setCall c .finished, wakers)
    | .error fault => .error (.semaphore fault)
  | .initialising => m.giveUp c

end OnceCell

inductive OnceAction (T W : Type) where
  | get
  | set (value : T)
  | getOrInit
  | getOrTryInit
  | poll (c : Nat) (waker : W)
  | initialise (c : Nat) (outcome : Initialiser T)
  | cancel (c : Nat)

namespace OnceCell

variable [Wakers W]

/-- A poll takes a call as far as f's own future, whose polls are the initialise actions. -/
def allowed (m : OnceCell T W) : OnceAction T W → Bool
  | .poll c _ =>
    match m.calls c with
    | .called | .acquiring _ => true
    | .initialising | .finished => false
  | .initialise c outcome =>
    decide (m.calls c = .initialising) &&
      match outcome with
      | .failed => m.fallible c
      | .pending | .value _ | .panicked => true
  | .cancel c => decide (m.calls c ≠ .finished)
  | .get | .set _ | .getOrInit | .getOrTryInit => true

def perform (m : OnceCell T W) : OnceAction T W → Except OnceFault (OnceAnswer T × OnceCell T W × List W)
  | .get => m.get.map fun value => (.got value, m, [])
  | .set value => (m.set value).map fun (result, m, wakers) => (.set result, m, wakers)
  | .getOrInit => .ok (.nothing, m.getOrInit false, [])
  | .getOrTryInit => .ok (.nothing, m.getOrInit true, [])
  | .poll c waker => m.poll c waker
  | .initialise c outcome => m.initialise c outcome
  | .cancel c => (m.cancel c).map fun (m, wakers) => (.nothing, m, wakers)

def step (m : OnceCell T W) (a : OnceAction T W) : Outcome (OnceCell T W) OnceFault :=
  if m.allowed a then .attempt (m.perform a) fun (_, t, _) => .next t else .disabled

def machine (T W : Type) [Wakers W] (value : Option T) : System (OnceCell T W) (OnceAction T W) OnceFault where
  initial m := m = newWith value
  within _ := True
  step m a := m.step a

end OnceCell

end Osaka.Sync
