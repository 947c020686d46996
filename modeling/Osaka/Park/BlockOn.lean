import Osaka.Park.ThreadRuns

set_option autoImplicit false

namespace Osaka

open Transitions

namespace CachedParkThread

/-- Where `block_on` is, or `block_on_timeout` with the instant at which its timeout is over. -/
inductive Driver where
  | idle
  -- f.as_mut().poll(&mut cx)
  | polling (deadline : Option Nat)
  | pending (deadline : Option Nat)
  -- self.park()?, park.park_timeout(when - now)?
  | parked (deadline : Option Nat)
  deriving DecidableEq

inductive Fault where
  | thread (fault : ParkThread.Fault)
  -- "overflow when adding duration to instant"
  | instantOverflow
  deriving DecidableEq

structure Effect (R : Type) where
  event : Option ParkThread.Event
  -- a poll begins
  begun : Bool
  -- what the call returns
  ended : Option (Except Unit R)

namespace Effect

variable {R : Type}

def none : Effect R := ⟨.none, false, .none⟩

def begins : Effect R := ⟨.none, true, .none⟩

def ends (result : Except Unit R) : Effect R := ⟨.none, false, some result⟩

def of (event : Option ParkThread.Event) : Effect R := ⟨event, false, .none⟩

end Effect

end CachedParkThread

open CachedParkThread in
/-- A thread that blocks on one future after the other. -/
structure CachedParkThread (I : Type) where
  currentParker : ParkThread I
  -- CURRENT_PARKER.try_with fails
  destroyed : Bool
  now : Nat
  driver : Driver

/-- `polled`: what a poll returns. The wakers are clones of one `UnparkThread`, anybody may call them at any time. -/
inductive CachedParkThreadAction (I R : Type) where
  | blockOn (timeout : Option Nat)
  | polled (output : Option R)
  | stepDriver
  | tick (elapsed : Nat)
  | destroy
  | thread (a : ParkThreadAction I)

namespace CachedParkThread

variable {I R : Type}

def new : CachedParkThread I := ⟨ParkThread.new, false, 0, .idle⟩

/-- `with_current` for `park` and `park_timeout` -/
def park (s : CachedParkThread I) (deadline : Option Nat) (call : ParkThread.Call) : Effect R × CachedParkThread I :=
  if s.destroyed then
    (.ends (.error ()), { s with driver := .idle })
  else
    (.none,
      { s with currentParker := { s.currentParker with parker := .called call }, driver := .parked deadline })

-- The loops of `CachedParkThread::block_on` and of `Enter::block_on_timeout`
def stepDriver (s : CachedParkThread I) : Effect R × CachedParkThread I :=
  match s.driver with
  | .idle | .polling _ => (.none, s)
  | .pending none => s.park none .park
  | .pending (some deadline) =>
    if deadline ≤ s.now then
      (.ends (.error ()), { s with driver := .idle })
    else
      s.park (some deadline) (.parkTimeout (deadline - s.now))
  | .parked deadline => (.begins, { s with driver := .polling deadline })

variable [DecidableEq I]

def allowed (s : CachedParkThread I) : CachedParkThreadAction I R → Bool
  | .blockOn _ | .destroy => s.driver == .idle
  | .polled _ =>
    match s.driver with
    | .polling _ => true
    | _ => false
  | .stepDriver =>
    match s.driver with
    | .idle | .polling _ => false
    | .pending _ => true
    | .parked _ => s.currentParker.parker == .idle
  | .tick _ => true
  | .thread (.park _) => false
  | .thread a => s.currentParker.allowed a

/-- `latest`: the last instant that an `Instant` can hold. -/
def perform (latest : Nat) (s : CachedParkThread I) : CachedParkThreadAction I R →
    Except Fault (Effect R × CachedParkThread I)
  | .blockOn timeout =>
    -- get_unpark()?
    if s.destroyed then
      .ok (.ends (.error ()), s)
    else
      match timeout with
      | none => .ok (.begins, { s with driver := .polling none })
      | some timeout =>
        -- Instant::now() + timeout
        if s.now + timeout ≤ latest then
          .ok (.begins, { s with driver := .polling (some (s.now + timeout)) })
        else
          .error .instantOverflow
  | .polled output =>
    match s.driver, output with
    | .polling _, some v => .ok (.ends (.ok v), { s with driver := .idle })
    | .polling deadline, none => .ok (.none, { s with driver := .pending deadline })
    | _, _ => .ok (.none, s)
  | .stepDriver => .ok s.stepDriver
  | .tick elapsed => .ok (.none, { s with now := s.now + elapsed })
  | .destroy => .ok (.none, { s with destroyed := true })
  | .thread a =>
    match s.currentParker.perform a with
    | .ok (event, t) => .ok (.of event, { s with currentParker := t })
    | .error fault => .error (.thread fault)

def step (latest : Nat) (s : CachedParkThread I) (a : CachedParkThreadAction I R) :
    Outcome (CachedParkThread I) Fault :=
  if s.allowed a then Outcome.attempt (s.perform latest a) fun (_, t) => .next t else .disabled

def machine (I R : Type) [DecidableEq I] (latest : Nat) :
    System (CachedParkThread I) (CachedParkThreadAction I R) Fault where
  initial s := s = new
  within _ := True
  step s a := s.step latest a

instance (latest : Nat) : DecidablePred (machine I R latest).within := fun _ => inferInstanceAs (Decidable True)

end CachedParkThread

end Osaka
