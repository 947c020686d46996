import Mathlib.Logic.Function.Basic
import Osaka.Shared.Transitions

set_option autoImplicit false

namespace Osaka.Sync

open Transitions

namespace AtomicWaker

inductive Fault where
  -- debug_assert_eq!(actual, REGISTERING | WAKING)
  | actual
  -- debug_assert!(maybe_panic.is_none())
  | maybePanic
  -- debug_assert!(state == REGISTERING || state == REGISTERING | WAKING), in do_register
  | registering
  -- debug_assert!(state == REGISTERING || state == REGISTERING | WAKING || state == WAKING), in take_waker
  | waking
  deriving DecidableEq

abbrev State := BitVec 64

/-- Idle state. -/
def WAITING : State := 0#64

/-- A new waker value is being registered. -/
def REGISTERING : State := 0b01#64

/-- The task currently registered is being woken. -/
def WAKING : State := 0b10#64

/-- The value that has been seen, as an error if it is not the current one, and the one that is left. -/
def compareExchange (current new state : State) : Except State State × State :=
  if state = current then (.ok state, new) else (.error state, state)

def unwrapOrElse : Except State State → State
  | .ok seen => seen
  | .error seen => seen

def fetchOr (mask state : State) : State × State := (state, state ||| mask)

def fetchAnd (mask state : State) : State × State := (state, state &&& mask)

def swap (new state : State) : State × State := (state, new)

/-- A waker goes by the number of the call of `register` that it is given to, and so does the clone of it. -/
abbrev Waker := Nat

/-- Where the registering party is. Each step from here is one access to what is shared, or runs code of a waker. -/
inductive Register where
  | idle
  -- do_register, which is about to exchange WAITING for REGISTERING
  | called (waker : Waker)
  -- catch_unwind(move || waker.into_waker())
  | cloning (waker : Waker)
  -- The old waker is about to be taken out, and then the new one is about to be put in.
  | taking (newWaker : Waker)
  | putting (newWaker : Waker) (oldWaker : Option Waker)
  -- The lock is about to be released.
  | releasing (maybePanic : Bool) (oldWaker : Option Waker)
  | dropping (maybePanic : Bool) (oldWaker : Option Waker)
  -- Err(actual): the waker is about to be taken out again, and then the state to be swapped.
  | retaking (maybePanic : Bool) (oldWaker : Option Waker)
  | swapping (maybePanic : Bool) (oldWaker waker : Option Waker)
  | wakingOld (maybePanic : Bool) (oldWaker waker : Option Waker)
  | wakingNew (maybePanic : Bool) (waker : Option Waker)
  -- WAKING: waker.wake()
  | wakingSelf (waker : Waker)
  deriving DecidableEq

inductive Wake where
  | idle
  -- take_waker, which is about to set WAKING
  | called
  | taking
  -- WAKING is about to be cleared.
  | releasing (waker : Option Waker)
  -- waker.wake()
  | waking (waker : Waker)
  deriving DecidableEq

/-- How a call has ended: it has returned, or a panic has come out of it. -/
inductive Ended where
  | returned
  | unwound
  deriving DecidableEq

structure Effect where
  -- wake has been called on it
  woken : Option Waker
  dropped : Option Waker
  -- into_waker has panicked
  panicked : Bool
  ended : Option Ended
  deriving DecidableEq

def Effect.none : Effect := ⟨.none, .none, false, .none⟩

/-- resume_unwind, if there is a panic -/
def resume (maybePanic : Bool) : Ended := if maybePanic then .unwound else .returned

end AtomicWaker

open AtomicWaker in
structure AtomicWaker (I : Type) where
  state : State
  waker : Option Waker
  -- how often register has been called
  calls : Nat
  register : Register
  wakes : I → Wake

/-- The calls of the parties, and their steps in any order. `panics`: the waker's code panics, if this step runs it. -/
inductive AtomicWakerAction (I : Type) where
  | register
  | stepRegister (panics : Bool)
  | wake (party : I)
  | stepWake (party : I) (panics : Bool)
  deriving DecidableEq

def AtomicWakerAction.party {I : Type} : AtomicWakerAction I → Option I
  | .register | .stepRegister _ => none
  | .wake party | .stepWake party _ => some party

namespace AtomicWaker

variable {I : Type}

def new : AtomicWaker I := ⟨WAITING, none, 0, .idle, fun _ => .idle⟩

section Registering

-- do_register
def stepRegister (s : AtomicWaker I) (panics : Bool) : Except Fault (Effect × AtomicWaker I) :=
  match s.register with
  | .idle => .ok (.none, s)
  | .called waker =>
    let (result, state) := compareExchange WAITING REGISTERING s.state
    let seen := unwrapOrElse result
    let t := { s with state := state }
    if seen = WAITING then
      .ok (.none, { t with register := .cloning waker })
    else if seen = WAKING then
      .ok (.none, { t with register := .wakingSelf waker })
    else if seen = REGISTERING ∨ seen = REGISTERING ||| WAKING then
      .ok ({ Effect.none with ended := some .returned }, { t with register := .idle })
    else
      .error .registering
  | .cloning waker =>
    if panics then
      .ok ({ Effect.none with panicked := true }, { s with register := .releasing true none })
    else
      .ok (.none, { s with register := .taking waker })
  | .taking newWaker => .ok (.none, { s with waker := none, register := .putting newWaker s.waker })
  | .putting newWaker oldWaker => .ok (.none, { s with waker := some newWaker, register := .releasing false oldWaker })
  | .releasing maybePanic oldWaker =>
    match compareExchange REGISTERING WAITING s.state with
    | (.ok _, state) => .ok (.none, { s with state := state, register := .dropping maybePanic oldWaker })
    | (.error actual, state) =>
      if actual = REGISTERING ||| WAKING then
        .ok (.none, { s with state := state, register := .retaking maybePanic oldWaker })
      else
        .error .actual
  -- A panic of the drop is caught.
  | .dropping maybePanic oldWaker =>
    .ok ({ Effect.none with dropped := oldWaker, ended := some (resume maybePanic) }, { s with register := .idle })
  | .retaking maybePanic oldWaker =>
    .ok (.none, { s with waker := none, register := .swapping maybePanic oldWaker s.waker })
  | .swapping maybePanic oldWaker waker =>
    let t := { s with state := (swap WAITING s.state).2 }
    -- If `into_waker` panicked, then the waker in the slot is actually the old one.
    if maybePanic then
      .ok (.none, { t with register := .wakingOld true waker none })
    else
      .ok (.none, { t with register := .wakingOld false oldWaker waker })
  -- A panic of the old waker is caught.
  | .wakingOld maybePanic oldWaker waker =>
    .ok ({ Effect.none with woken := oldWaker }, { s with register := .wakingNew maybePanic waker })
  | .wakingNew maybePanic waker =>
    match waker with
    | none => .ok ({ Effect.none with ended := some (resume maybePanic) }, { s with register := .idle })
    | some waker =>
      if maybePanic then
        .error .maybePanic
      else
        .ok ({ Effect.none with woken := some waker, ended := some (resume panics) }, { s with register := .idle })
  | .wakingSelf waker =>
    .ok ({ Effect.none with woken := some waker, ended := some (resume panics) }, { s with register := .idle })

end Registering

section Waking

variable [DecidableEq I]

def setWake (s : AtomicWaker I) (i : I) (wake : Wake) : AtomicWaker I :=
  { s with wakes := Function.update s.wakes i wake }

section Fields

variable (s : AtomicWaker I) (i : I) (wake : Wake)

@[simp]
theorem setWake_state : (s.setWake i wake).state = s.state := rfl

@[simp]
theorem setWake_waker : (s.setWake i wake).waker = s.waker := rfl

@[simp]
theorem setWake_calls : (s.setWake i wake).calls = s.calls := rfl

@[simp]
theorem setWake_register : (s.setWake i wake).register = s.register := rfl

theorem setWake_wakes (k : I) : (s.setWake i wake).wakes k = if k = i then wake else s.wakes k :=
  Function.update_apply s.wakes i wake k

end Fields

-- wake and take_waker
def stepWake (s : AtomicWaker I) (i : I) (panics : Bool) : Except Fault (Effect × AtomicWaker I) :=
  match s.wakes i with
  | .idle => .ok (.none, s)
  | .called =>
    let (seen, state) := fetchOr WAKING s.state
    let t := { s with state := state }
    if seen = WAITING then
      .ok (.none, t.setWake i .taking)
    else if seen = REGISTERING ∨ seen = REGISTERING ||| WAKING ∨ seen = WAKING then
      .ok ({ Effect.none with ended := some .returned }, t.setWake i .idle)
    else
      .error .waking
  | .taking => .ok (.none, { s with waker := none }.setWake i (.releasing s.waker))
  | .releasing waker =>
    let t := { s with state := (fetchAnd (~~~WAKING) s.state).2 }
    match waker with
    | none => .ok ({ Effect.none with ended := some .returned }, t.setWake i .idle)
    | some waker => .ok (.none, t.setWake i (.waking waker))
  | .waking waker => .ok ({ Effect.none with woken := some waker, ended := some (resume panics) }, s.setWake i .idle)

/-- There is one registering party, which does one call after the other, and so does each waking party. -/
def allowed (s : AtomicWaker I) : AtomicWakerAction I → Bool
  | .register => s.register == .idle
  | .stepRegister _ => s.register != .idle
  | .wake i => s.wakes i == .idle
  | .stepWake i _ => s.wakes i != .idle

def perform (s : AtomicWaker I) : AtomicWakerAction I → Except Fault (Effect × AtomicWaker I)
  | .register => .ok (.none, { s with calls := s.calls + 1, register := .called (s.calls + 1) })
  | .stepRegister panics => s.stepRegister panics
  | .wake i => .ok (.none, s.setWake i .called)
  | .stepWake i panics => s.stepWake i panics

def step (s : AtomicWaker I) (a : AtomicWakerAction I) : Outcome (AtomicWaker I) Fault :=
  if s.allowed a then Outcome.attempt (s.perform a) fun (_, t) => .next t else .disabled

def machine (I : Type) [DecidableEq I] : System (AtomicWaker I) (AtomicWakerAction I) Fault where
  initial s := s = new
  within _ := True
  step s a := s.step a

instance : DecidablePred (machine I).within := fun _ => inferInstanceAs (Decidable True)

end Waking

end AtomicWaker

end Osaka.Sync
