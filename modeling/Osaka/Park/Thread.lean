import Mathlib.Logic.Function.Basic
import Osaka.Shared.Transitions

set_option autoImplicit false

namespace Osaka

open Transitions

namespace ParkThread

inductive Fault where
  -- panic!("inconsistent park state; actual = {}", actual)
  | park (actual : Nat)
  -- panic!("inconsistent park_timeout state; actual = {}", actual)
  | parkTimeout (actual : Nat)
  -- debug_assert_eq!(old, NOTIFIED, "park state changed unexpectedly")
  | changed (old : Nat)
  -- panic!("inconsistent park_timeout state: {}", n)
  | swapped (n : Nat)
  -- panic!("inconsistent state in unpark")
  | unpark
  deriving DecidableEq

def EMPTY : Nat := 0

def PARKED : Nat := 1

def NOTIFIED : Nat := 2

/-- The value that has been seen, as an error if it is not the current one, and the one that is left. -/
def compareExchange (current new state : Nat) : Except Nat Nat × Nat :=
  if state = current then (.ok state, new) else (.error state, state)

/-- What the thread has called, `park_timeout` with its duration in nanoseconds. -/
inductive Call where
  | park
  | parkTimeout (dur : Nat)
  deriving DecidableEq

/-- Where the thread that parks is. Each step from here is one access to what is shared. -/
inductive Parker where
  | idle
  -- NOTIFIED is about to be exchanged for EMPTY
  | called (call : Call)
  | locking (call : Call)
  -- EMPTY is about to be exchanged for PARKED
  | announcing (call : Call)
  -- Err(NOTIFIED): EMPTY is about to be swapped in
  | consuming (call : Call)
  -- condvar.wait, which is about to release the mutex
  | waiting (call : Call)
  -- in the queue of the condvar
  | asleep (call : Call)
  -- out of the queue, condvar.wait is about to lock the mutex again
  | woken (call : Call)
  -- The state is about to be looked at again.
  | checking (call : Call)
  -- The guard is about to be dropped.
  | leaving
  deriving DecidableEq

inductive Unparker where
  | idle
  -- NOTIFIED is about to be swapped in
  | called
  -- drop(self.mutex.lock())
  | locking
  | unlocking
  -- condvar.notify_one
  | notifying
  deriving DecidableEq

/-- What a step does to the token that `park` waits for: `unpark` makes it available, a call that returns takes it
along, or lapses without it. -/
inductive Event where
  | unparked
  | consumed
  | lapsed
  deriving DecidableEq

def Parker.holds : Parker → Bool
  | .announcing _ | .consuming _ | .waiting _ | .checking _ | .leaving => true
  | .idle | .called _ | .locking _ | .asleep _ | .woken _ => false

def Unparker.holds : Unparker → Bool
  | .unlocking => true
  | .idle | .called | .locking | .notifying => false

end ParkThread

open ParkThread in
/-- The `Inner` of a thread, the thread that parks in it, and the calls of `unpark`. -/
structure ParkThread (I : Type) where
  state : Nat
  -- who holds the mutex; the thread that parks goes by `none`
  mutex : Option (Option I)
  parker : Parker
  unparkers : I → Unparker

open ParkThread in
inductive ParkThreadAction (I : Type) where
  | park (call : Call)
  | stepParker
  -- a spurious wakeup, or the duration is over
  | wakeup
  | unpark (i : I)
  | stepUnparker (i : I)
  | shutdown
  deriving DecidableEq

namespace ParkThread

variable {I : Type}

def new : ParkThread I := ⟨EMPTY, none, .idle, fun _ => .idle⟩

/-- There is one thread in the queue of the condvar at most. -/
def notifyOne (s : ParkThread I) : ParkThread I :=
  match s.parker with
  | .asleep call => { s with parker := .woken call }
  | _ => s

section Parking

-- `park` and `park_timeout`
def stepParker (s : ParkThread I) : Except Fault (Option Event × ParkThread I) :=
  match s.parker with
  | .idle | .asleep _ => .ok (none, s)
  | .called call =>
    match compareExchange NOTIFIED EMPTY s.state with
    | (.ok _, state) => .ok (some .consumed, { s with state := state, parker := .idle })
    | (.error _, state) =>
      if call = .parkTimeout 0 then
        .ok (some .lapsed, { s with state := state, parker := .idle })
      else
        .ok (none, { s with state := state, parker := .locking call })
  | .locking call => .ok (none, { s with mutex := some none, parker := .announcing call })
  | .announcing call =>
    match compareExchange EMPTY PARKED s.state with
    | (.ok _, state) => .ok (none, { s with state := state, parker := .waiting call })
    | (.error actual, state) =>
      if actual = NOTIFIED then
        .ok (none, { s with state := state, parker := .consuming call })
      else
        match call with
        | .park => .error (.park actual)
        | .parkTimeout _ => .error (.parkTimeout actual)
  | .consuming _ =>
    if s.state = NOTIFIED then
      .ok (some .consumed, { s with state := EMPTY, parker := .leaving })
    else
      .error (.changed s.state)
  | .waiting call => .ok (none, { s with mutex := none, parker := .asleep call })
  | .woken call => .ok (none, { s with mutex := some none, parker := .checking call })
  | .checking .park =>
    match compareExchange NOTIFIED EMPTY s.state with
    | (.ok _, state) => .ok (some .consumed, { s with state := state, parker := .leaving })
    | (.error _, state) => .ok (none, { s with state := state, parker := .waiting .park })
  | .checking (.parkTimeout _) =>
    if s.state = NOTIFIED then
      .ok (some .consumed, { s with state := EMPTY, parker := .leaving })
    else if s.state = PARKED then
      .ok (some .lapsed, { s with state := EMPTY, parker := .leaving })
    else
      .error (.swapped s.state)
  | .leaving => .ok (none, { s with mutex := none, parker := .idle })

end Parking

section Unparking

variable [DecidableEq I]

def setUnparker (s : ParkThread I) (i : I) (unparker : Unparker) : ParkThread I :=
  { s with unparkers := Function.update s.unparkers i unparker }

section Fields

variable (s : ParkThread I) (i : I) (unparker : Unparker)

@[simp]
theorem setUnparker_state : (s.setUnparker i unparker).state = s.state := rfl

@[simp]
theorem setUnparker_mutex : (s.setUnparker i unparker).mutex = s.mutex := rfl

@[simp]
theorem setUnparker_parker : (s.setUnparker i unparker).parker = s.parker := rfl

theorem setUnparker_unparkers (k : I) :
    (s.setUnparker i unparker).unparkers k = if k = i then unparker else s.unparkers k :=
  Function.update_apply s.unparkers i unparker k

end Fields

-- `unpark`
def stepUnparker (s : ParkThread I) (i : I) : Except Fault (Option Event × ParkThread I) :=
  match s.unparkers i with
  | .idle => .ok (none, s)
  | .called =>
    let t := { s with state := NOTIFIED }
    if s.state = EMPTY ∨ s.state = NOTIFIED then
      .ok (some .unparked, t.setUnparker i .idle)
    else if s.state = PARKED then
      .ok (some .unparked, t.setUnparker i .locking)
    else
      .error .unpark
  | .locking => .ok (none, { s with mutex := some (some i) }.setUnparker i .unlocking)
  | .unlocking => .ok (none, { s with mutex := none }.setUnparker i .notifying)
  | .notifying => .ok (none, s.notifyOne.setUnparker i .idle)

/-- One thread parks, one call after the other. Who needs the mutex waits for it, and who is in the queue of the
condvar for a wakeup. -/
def allowed (s : ParkThread I) : ParkThreadAction I → Bool
  | .park _ => s.parker == .idle
  | .stepParker =>
    match s.parker with
    | .idle | .asleep _ => false
    | .locking _ | .woken _ => s.mutex == none
    | .called _ | .announcing _ | .consuming _ | .waiting _ | .checking _ | .leaving => true
  | .wakeup =>
    match s.parker with
    | .asleep _ => true
    | _ => false
  | .unpark i => s.unparkers i == .idle
  | .stepUnparker i =>
    match s.unparkers i with
    | .idle => false
    | .locking => s.mutex == none
    | .called | .unlocking | .notifying => true
  | .shutdown => true

def perform (s : ParkThread I) : ParkThreadAction I → Except Fault (Option Event × ParkThread I)
  | .park call => .ok (none, { s with parker := .called call })
  | .stepParker => s.stepParker
  | .wakeup => .ok (none, s.notifyOne)
  | .unpark i => .ok (none, s.setUnparker i .called)
  | .stepUnparker i => s.stepUnparker i
  -- condvar.notify_all
  | .shutdown => .ok (none, s.notifyOne)

def step (s : ParkThread I) (a : ParkThreadAction I) : Outcome (ParkThread I) Fault :=
  if s.allowed a then Outcome.attempt (s.perform a) fun (_, t) => .next t else .disabled

def machine (I : Type) [DecidableEq I] : System (ParkThread I) (ParkThreadAction I) Fault where
  initial s := s = new
  within _ := True
  step s a := s.step a

instance : DecidablePred (machine I).within := fun _ => inferInstanceAs (Decidable True)

end Unparking

end ParkThread

end Osaka
