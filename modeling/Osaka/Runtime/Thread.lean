import Mathlib.Logic.Function.Basic
import Osaka.Runtime.EnterGuards
import Osaka.Shared.Unwind
import Osaka.Time.Driver

set_option autoImplicit false

namespace Osaka

open Unwind Time

abbrev RuntimeId := Nat

abbrev TaskId := Nat

abbrev DriverId := Nat

abbrev Waker := Nat

abbrev RootId := Nat

abbrev GuardId := Nat

/-- One notification of a task. The serial number tells it from the others of the same task. -/
structure Notified where
  task : TaskId
  serial : Nat
  deriving DecidableEq

structure Core where
  tasks : List Notified
  tick : UInt32
  unhandledPanic : Bool
  -- nothing in the crate sets the flag
  handled : unhandledPanic = false
  deriving DecidableEq

structure OwnedTasks where
  list : List TaskId
  closed : Bool
  deriving DecidableEq

/-- A scheduler with the `Shared` of its spawner. -/
structure BasicScheduler where
  core : Option Core
  timeDriver : Option DriverId
  -- the permit that `notify_one` leaves in `notify`
  notify : Bool
  queue : Option (List Notified)
  owned : OwnedTasks
  woken : Bool
  -- the cell of the `CoreGuard` that has taken the core out of `core`
  contextCore : Option Core
  deriving DecidableEq

inductive EnterContext where
  | entered (allowBlocking : Bool)
  | notEntered
  deriving DecidableEq

def EnterContext.isEntered : EnterContext → Bool
  | .entered _ => true
  | .notEntered => false

inductive BlockOnError where
  | deadlock
  deriving DecidableEq

inductive Panic where
  -- "Cannot start a runtime from within a runtime. ..."
  | startWithinRuntime
  -- "HUH"
  | huh
  -- "core missing"
  | coreMissing
  -- "not implemented: We wont park or unpark any threads"
  | notImplemented
  -- "Not time driver found"
  | noTimeDriver
  -- "Somebody stole our driver"
  | stolenDriver
  -- "Failed to fetch driver from current context"
  | fetchDriver
  -- "Failed to take driver from current context"
  | takeDriver
  -- TIME_DRIVER is a RefCell
  | alreadyBorrowed
  -- "'block_on' entcountered deadlock"
  | deadlock
  | contextMissing
  -- "Oh no! We never placed the Core back, this is a bug!"
  | neverPlacedBack
  -- "assertion failed: source.deadline >= SimTime::now()"
  | deadlinePassed
  -- raised by a future or a destructor
  | user
  deriving DecidableEq

inductive Place where
  | core
  | shared
  | nowhere
  deriving DecidableEq

inductive Event (A : Type) where
  | scheduled (rt : RuntimeId) (place : Place) (task : Notified)
  | ran (rt : RuntimeId) (place : Place) (task : Notified) (handle : Option RuntimeId)
  -- `osaka::spawn` has read the current handle
  | spawned (handle : Option RuntimeId)
  -- a future has entered a runtime, or has dropped the guard of such an enter
  | contextSet (handle : Option RuntimeId)
  | wokeRoot (rt : RuntimeId)
  | rootPolling (rt : RuntimeId)
  -- `none`: the poll has unwound
  | rootPolled (rt : RuntimeId) (answer : Option (Poll A))
  deriving DecidableEq

/-- The state of the thread: its thread-locals, the clock, the runtimes it holds and what the
futures keep in memory, with the events so far. -/
structure Thread (X A : Type) where
  world : X
  now : SimTime
  context : Option RuntimeId
  -- what `Runtime::enter` and `Handle::enter` have returned, as long as it is alive
  guards : GuardId → Option (Context.EnterGuard RuntimeId)
  entered : EnterContext
  current : Option RuntimeId
  timeDriver : Option DriverId
  -- `TIME_DRIVER` is mutably borrowed
  borrowed : Bool
  drivers : DriverId → TimeDriver Waker
  runtimes : RuntimeId → BasicScheduler
  trace : List (Event A)

abbrev Act (X A B : Type) := Exec (Thread X A) Panic B

def BasicScheduler.new (driver : DriverId) : BasicScheduler :=
  { core := some { tasks := [], tick := 0, unhandledPanic := false, handled := rfl }
    timeDriver := some driver
    notify := false
    queue := some []
    owned := { list := [], closed := false }
    woken := false
    contextCore := none }

namespace Core

def popTask (core : Core) : Option (Notified × Core) :=
  match core.tasks with
  | [] => none
  | task :: rest => some (task, { core with tasks := rest })

def pushTask (core : Core) (task : Notified) : Core := { core with tasks := core.tasks ++ [task] }

end Core

namespace Thread

variable {X A : Type}

def update (t : Thread X A) (rt : RuntimeId) (change : BasicScheduler → BasicScheduler) :
    Thread X A :=
  { t with runtimes := Function.update t.runtimes rt (change (t.runtimes rt)) }

def record (t : Thread X A) (event : Event A) : Thread X A := { t with trace := t.trace ++ [event] }

section Fields

variable (t : Thread X A) (rt : RuntimeId) (change : BasicScheduler → BasicScheduler)

@[simp]
theorem update_runtimes_self : (t.update rt change).runtimes rt = change (t.runtimes rt) := by
  simp [update]

@[simp]
theorem update_runtimes_of_ne {other : RuntimeId} (different : other ≠ rt) :
    (t.update rt change).runtimes other = t.runtimes other := by
  simp [update, different]

@[simp]
theorem update_world : (t.update rt change).world = t.world := rfl

@[simp]
theorem update_now : (t.update rt change).now = t.now := rfl

@[simp]
theorem update_context : (t.update rt change).context = t.context := rfl

@[simp]
theorem update_guards : (t.update rt change).guards = t.guards := rfl

@[simp]
theorem update_entered : (t.update rt change).entered = t.entered := rfl

@[simp]
theorem update_current : (t.update rt change).current = t.current := rfl

@[simp]
theorem update_timeDriver : (t.update rt change).timeDriver = t.timeDriver := rfl

@[simp]
theorem update_borrowed : (t.update rt change).borrowed = t.borrowed := rfl

@[simp]
theorem update_drivers : (t.update rt change).drivers = t.drivers := rfl

@[simp]
theorem update_trace : (t.update rt change).trace = t.trace := rfl

end Fields

end Thread

section Locals

variable {X A B : Type}

def record (event : Event A) : Act X A Unit := Exec.modify (fun t => t.record event)

def updateRuntime (rt : RuntimeId) (change : BasicScheduler → BasicScheduler) : Act X A Unit :=
  Exec.modify (fun t => t.update rt change)

/-- `runtime::enter`, with the guard alive while `body` runs. -/
def runtimeEnter (allowBlocking : Bool) (body : Act X A B) : Act X A B := fun t =>
  if t.entered.isEntered then (.unwound .startWithinRuntime, t)
  else
    Exec.guarded (fun t => { t with entered := .entered allowBlocking })
      (fun _ t => { t with entered := .notEntered }) body t

/-- `context::enter`, with the guard alive while `body` runs. -/
def contextEnter (rt : RuntimeId) (body : Act X A B) : Act X A B :=
  Exec.guarded (fun t => { t with context := some rt })
    (fun old t => { t with context := old.context }) body

def currentSet (rt : RuntimeId) (body : Act X A B) : Act X A B :=
  Exec.guarded (fun t => { t with current := some rt })
    (fun old t => { t with current := old.current }) body

end Locals

namespace TimeContext

variable {X A B : Type}

-- `TimeDriver::swap_context`
def swapContext (newDriver : DriverId) : Act X A (Option DriverId) := fun t =>
  if t.borrowed then (.unwound .alreadyBorrowed, t)
  else (.returned t.timeDriver, { t with timeDriver := some newDriver })

-- `TimeDriver::is_context_set`
def isContextSet : Act X A Bool := fun t =>
  if t.borrowed then (.unwound .alreadyBorrowed, t) else (.returned t.timeDriver.isSome, t)

-- `TimeDriver::unset_context`
def unsetContext : Act X A DriverId := fun t =>
  if t.borrowed then (.unwound .alreadyBorrowed, t)
  else
    match t.timeDriver with
    | none => (.unwound .fetchDriver, t)
    | some driver => (.returned driver, { t with timeDriver := none })

-- `TimeDriver::with_current`: the borrow ends with the closure, also when it unwinds
def withCurrent (f : DriverId → Act X A B) : Act X A B := fun t =>
  if t.borrowed then (.unwound .alreadyBorrowed, t)
  else
    match t.timeDriver with
    | none => (.unwound .takeDriver, t)
    | some driver =>
      Exec.guarded (fun t => { t with borrowed := true }) (fun _ t => { t with borrowed := false })
        (f driver) t

-- `self.time_driver.take()`
def takeCell (rt : RuntimeId) : Act X A (Option DriverId) := fun t =>
  (.returned (t.runtimes rt).timeDriver, t.update rt fun s => { s with timeDriver := none })

-- `self.time_driver.set(our_driver)`
def setCell (rt : RuntimeId) (driver : DriverId) : Act X A Unit :=
  updateRuntime rt fun s => { s with timeDriver := some driver }

def readDriver (driver : DriverId) (f : SimTime → TimeDriver Waker → B × TimeDriver Waker) :
    Act X A B := fun t =>
  let (result, changed) := f t.now (t.drivers driver)
  (.returned result, { t with drivers := Function.update t.drivers driver changed })

end TimeContext

open TimeContext in
def BasicScheduler.withTime {X A B : Type} (rt : RuntimeId) (f : Act X A B) : Act X A B := do
  match ← takeCell rt with
  | some outDriver =>
    let otherDriver ← swapContext outDriver
    let ret ← f
    match otherDriver with
    | some otherDriver =>
      match ← swapContext otherDriver with
      | some ourDriver => setCell rt ourDriver
      | none => Exec.throw .stolenDriver
    | none =>
      let ourDriver ← unsetContext
      setCell rt ourDriver
    return ret
  | none =>
    if ← isContextSet then f else Exec.throw .noTimeDriver

end Osaka
