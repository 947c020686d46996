import Osaka.Sync.WatchUpdates

set_option autoImplicit false

namespace Osaka.Sync

open Transitions

inductive BarrierFault where
  | watch (fault : Watch.Fault)
  -- expect("there is at least one receiver")
  | noReceiver
  -- state.generation += 1, with overflow checks
  | overflow
  -- wait does not come to an end
  | endless
  deriving DecidableEq

inductive BarrierCall where
  -- not polled yet: it has done nothing
  | called
  -- at wait.changed().await, on its own clone of the receiver
  | waiting (generation r : Nat)
  | returned (leader : Bool)
  deriving DecidableEq

structure Barrier (W : Type) where
  -- the channel: the sender is state.waker, and receiver 0 is self.wait
  wait : Watch Nat W
  arrived : Nat
  generation : Nat
  n : Nat
  calls : Nat → BarrierCall

inductive BarrierAction (W : Type) where
  | poll (c : Nat) (waker : W)

namespace Barrier

variable {W : Type}

def new (n : Nat) : Barrier W :=
  { wait := Watch.channel 0
    arrived := 0
    generation := 1
    n := if n = 0 then 1 else n
    calls := fun _ => .called }

variable (b : Barrier W)

def setCall (c : Nat) (call : BarrierCall) : Barrier W := { b with calls := Function.update b.calls c call }

variable [Wakers W]

def waitLoop (b : Barrier W) (c generation r : Nat) (waker : W) :
    Nat → Except BarrierFault (Option Bool × Barrier W × List W)
  | 0 => .error .endless
  | fuel + 1 =>
    match b.wait.pollChanged r waker with
    | .error fault => .error (.watch fault)
    | .ok (none, wait, wakers) => .ok (none, { b with wait := wait }, wakers)
    | .ok (some _, wait, wakers) =>
      if wait.value ≥ generation then
        -- The receiver is dropped when the call returns.
        match wait.dropReceiver r with
        | .error fault => .error (.watch fault)
        | .ok (wait, more) => .ok (some false, { b with wait := wait }.setCall c (.returned false), wakers ++ more)
      else
        (waitLoop { b with wait := wait } c generation r waker fuel).map fun (ready, b, more) => (ready, b, wakers ++ more)

-- The critical section, and what follows it in the same poll.
def arrive (c : Nat) (waker : W) : Except BarrierFault (Option Bool × Barrier W × List W) :=
  let generation := b.generation
  let arrived := b.arrived + 1
  if arrived = b.n then
    match b.wait.send generation with
    | .error fault => .error (.watch fault)
    | .ok (.sent (.ok ()), wait, wakers) =>
      if generation + 1 < 2 ^ 64 then
        .ok (some true, { b with wait := wait, arrived := 0, generation := generation + 1 }.setCall c (.returned true),
          wakers)
      else
        .error .overflow
    | .ok _ => .error .noReceiver
  else
    let r := b.wait.made
    let b := { b with wait := b.wait.clone 0, arrived := arrived }
    (b.setCall c (.waiting generation r)).waitLoop c generation r waker 2

def poll (c : Nat) (waker : W) : Except BarrierFault (Option Bool × Barrier W × List W) :=
  match b.calls c with
  | .called => b.arrive c waker
  | .waiting generation r => b.waitLoop c generation r waker 2
  | .returned _ => .ok (none, b, [])

def allowed (b : Barrier W) : BarrierAction W → Bool
  | .poll c _ =>
    match b.calls c with
    | .called | .waiting _ _ => true
    | .returned _ => false

def perform (b : Barrier W) : BarrierAction W → Except BarrierFault (Option Bool × Barrier W × List W)
  | .poll c waker => b.poll c waker

def step (b : Barrier W) (a : BarrierAction W) : Outcome (Barrier W) BarrierFault :=
  if b.allowed a then .attempt (b.perform a) fun (_, t, _) => .next t else .disabled

def machine (W : Type) [Wakers W] (n : Nat) : System (Barrier W) (BarrierAction W) BarrierFault where
  initial b := b = new n
  within _ := True
  step b a := b.step a

end Barrier

end Osaka.Sync
