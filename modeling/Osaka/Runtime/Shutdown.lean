import Osaka.Runtime.Scheduler
import Osaka.Task.Cell

set_option autoImplicit false

namespace Osaka

def OwnedTasks.popBack (owned : OwnedTasks) : Option (TaskId × OwnedTasks) :=
  match owned.list.getLast? with
  | some task => some (task, { owned with list := owned.list.dropLast })
  | none => none

namespace Shutdown

open Transitions Osaka.Task

inductive Fault where
  | cell (fault : Task.Fault)
  -- "Oh no! We never placed the Core back, this is a bug!"
  | neverPlacedBack
  -- assert!(context.spawner.shared.owned.is_empty())
  | ownedNotEmpty
  deriving DecidableEq

inductive Phase where
  -- in close_and_shutdown_all
  | closing
  -- pops core.tasks
  | drainingLocal
  -- drops what it has taken out of the queue
  | drainingRemote (rest : List TaskId)
  | finished
  deriving DecidableEq

inductive CorePlace where
  -- in the cell of the scheduler
  | slot
  -- with a CoreGuard that runs tasks, and the one it runs
  | running (current : Option TaskId)
  -- gone with the closure of CoreGuard::enter, which unwound
  | lost
  -- the scheduler was dropped without it, by a panicking thread
  | abandoned
  | dropping (phase : Phase)
  deriving DecidableEq

def CorePlace.isDropping : CorePlace → Bool
  | .dropping .closing | .dropping .drainingLocal | .dropping (.drainingRemote _) => true
  | .dropping .finished | .slot | .running _ | .lost | .abandoned => false

def CorePlace.rest : CorePlace → List TaskId
  | .dropping (.drainingRemote rest) => rest
  | .dropping .closing | .dropping .drainingLocal | .dropping .finished | .slot | .running _ | .lost
  | .abandoned => []

/-- The tasks of one runtime, numbered as they were spawned, with the containers that refer to them. -/
structure Pool (V : Type) where
  cells : List (Cell V)
  owned : OwnedTasks
  queue : Option (List TaskId)
  core : CorePlace
  -- core.tasks
  tasks : List TaskId
  -- each Notified that a thread is about to give to schedule
  submitted : List TaskId
  -- the calls of shutdown on the thread that drops the runtime, the innermost first
  stack : List TaskId
  -- the calls of shutdown on other threads
  elsewhere : List TaskId

namespace Pool

variable {V : Type}

def new : Pool V where
  cells := []
  owned := { list := [], closed := false }
  queue := some []
  core := .slot
  tasks := []
  submitted := []
  stack := []
  elsewhere := []

variable (p : Pool V)

-- What a task that goes from c to d hands to its scheduler.
def afterStep (task : TaskId) (a : Action V) (c d : Cell V) : Pool V :=
  { p with
    cells := p.cells.set task d
    submitted := if c.notified < d.notified then task :: p.submitted else p.submitted
    owned := match a with
      | .release => p.owned.remove task
      | _ => p.owned }

def stepTask (task : TaskId) (a : Action V) : Outcome (Pool V) Fault :=
  match p.cells[task]? with
  | none => .disabled
  | some c =>
    match c.step a with
    | .next d => .next (p.afterStep task a c d)
    | .disabled => .disabled
    | .failed fault => .failed (.cell fault)

/-- `Spawner::spawn`, up to `schedule`. A closed list leaves the task with the caller, without its
Notified. -/
def spawn (here : Bool) : Outcome (Pool V) Fault :=
  let task := p.cells.length
  if here && !p.core.isDropping then
    .disabled
  else if p.owned.closed then
    let p := { p with cells := p.cells ++ [Cell.spawn true] }
    let p := if here then { p with stack := task :: p.stack } else { p with elsewhere := task :: p.elsewhere }
    p.stepTask task .dropNotified
  else
    .next
      { p with
        cells := p.cells ++ [Cell.spawn false]
        owned := p.owned.bind task
        submitted := task :: p.submitted }

/-- `Schedule::schedule`, on a thread whose `CURRENT` is this scheduler or on another. -/
def schedule (task : TaskId) (inside : Bool) : Outcome (Pool V) Fault :=
  if task ∈ p.submitted then
    let p := { p with submitted := p.submitted.erase task }
    if inside then
      match p.core with
      | .running _ => .next { p with tasks := p.tasks ++ [task] }
      -- the cell of the Context is empty, so the Notified is dropped
      | .dropping _ => if p.core.isDropping then p.stepTask task .dropNotified else .disabled
      | .slot | .lost | .abandoned => .disabled
    else
      match p.queue with
      | some queue => .next { p with queue := some (queue ++ [task]) }
      | none => p.stepTask task .dropNotified
  else
    .disabled

section Loop

-- take_core, for a CoreGuard that runs tasks
def enter : Outcome (Pool V) Fault :=
  match p.core with
  | .slot => .next { p with core := .running none }
  | _ => .disabled

-- Drop for CoreGuard
def leave : Outcome (Pool V) Fault :=
  match p.core with
  | .running none => .next { p with core := .slot }
  | _ => .disabled

-- A panic of the loop itself, which holds the core: runtime::enter refuses, or park_yield is reached.
def lose : Outcome (Pool V) Fault :=
  match p.core with
  | .running none => .next { p with core := .lost }
  | _ => .disabled

-- The lost core drops its queue.
def dropLost : Outcome (Pool V) Fault :=
  match p.core, p.tasks with
  | .lost, task :: rest | .abandoned, task :: rest => { p with tasks := rest }.stepTask task .dropNotified
  | _, _ => .disabled

def runTask (remote : Bool) : Outcome (Pool V) Fault :=
  match p.core with
  | .running none =>
    if remote then
      match p.queue with
      | some (task :: rest) =>
        { p with queue := some rest, core := .running (some task) }.stepTask task .runNotified
      | _ => .disabled
    else
      match p.tasks with
      | task :: rest => { p with tasks := rest, core := .running (some task) }.stepTask task .runNotified
      | [] => .disabled
  | _ => .disabled

-- task.run() returns.
def endRun : Outcome (Pool V) Fault :=
  match p.core with
  | .running (some task) =>
    match p.cells[task]? with
    | some c => if c.runner.isNone then .next { p with core := .running none } else .disabled
    | none => .disabled
  | _ => .disabled

end Loop

end Pool

section Shutdown

variable {V : Type}

def nextAction (panics : Bool) : Runner V → Option (Action V)
  | .polling => none
  | .cancelling => some (.cancelTask panics)
  | .storing _ => some .store
  | .completing => some .complete
  | .discarding => some .discard
  | .wakingJoin => some .wakeJoin
  | .releasing => some .release
  | .terminal _ => some .terminate

namespace Pool

variable (p : Pool V)

-- cancel_task and complete, for a task in state c
def endTask (returned : Pool V) (task : TaskId) (c : Cell V) (panics : Bool) : Outcome (Pool V) Fault :=
  match c.runner with
  | none => .next returned
  | some runner =>
    match nextAction panics runner with
    | some a => p.stepTask task a
    | none => .disabled

/-- `Harness::shutdown`, where `returned` is the state on its return. A task that is not idle is
shut down by whoever runs it. -/
def shutdownTask (returned : Pool V) (task : TaskId) (panics : Bool) : Outcome (Pool V) Fault :=
  match p.cells[task]? with
  | none => .disabled
  | some c =>
    match c.owner with
    | .popped => (if c.state.isIdle then p else returned).stepTask task .shutdown
    | .listed | .released => p.endTask returned task c panics

/-- Drop for Runtime, up to `close_and_shutdown_all`. -/
def drop (panicking : Bool) : Outcome (Pool V) Fault :=
  match p.core with
  | .slot => .next { p with owned := { p.owned with closed := true }, core := .dropping .closing }
  | .lost => if panicking then .next { p with core := .abandoned } else .failed .neverPlacedBack
  | .running _ | .abandoned | .dropping _ => .disabled

def advance (panics : Bool) : Outcome (Pool V) Fault :=
  match p.stack with
  | task :: rest => p.shutdownTask { p with stack := rest } task panics
  | [] =>
    match p.core with
    | .dropping .closing =>
      match p.owned.popBack with
      | some (task, owned) => { p with owned := owned, stack := [task] }.stepTask task .popOwned
      | none => .next { p with core := .dropping .drainingLocal }
    | .dropping .drainingLocal =>
      match p.tasks with
      | task :: rest => { p with tasks := rest }.stepTask task .dropNotified
      | [] => .next { p with queue := none, core := .dropping (.drainingRemote (p.queue.getD [])) }
    | .dropping (.drainingRemote (task :: rest)) =>
      { p with core := .dropping (.drainingRemote rest) }.stepTask task .dropNotified
    | .dropping (.drainingRemote []) =>
      if p.owned.list.isEmpty then .next { p with core := .dropping .finished } else .failed .ownedNotEmpty
    | .dropping .finished | .slot | .running _ | .lost | .abandoned => .disabled

def shutdownElsewhere (task : TaskId) (panics : Bool) : Outcome (Pool V) Fault :=
  if task ∈ p.elsewhere then
    p.shutdownTask { p with elsewhere := p.elsewhere.erase task } task panics
  else
    .disabled

end Pool

def schedules : Action V → Bool
  | .runNotified | .dropNotified | .popOwned | .shutdown => true
  | _ => false

def runs : Action V → Bool
  | .pollPending | .pollReady _ _ | .pollPanic | .cancelTask _ | .store | .complete | .discard | .wakeJoin
  | .release | .terminate => true
  | _ => false

end Shutdown

/-- What the threads of the program do. The code of futures and of their destructors is made of the
same steps as that of other threads. -/
inductive Act (V : Type) where
  | spawn (here : Bool)
  | schedule (task : TaskId) (inside : Bool)
  | task (task : TaskId) (a : Action V)
  | enter
  | leave
  | lose
  | dropLost
  | runTask (remote : Bool)
  | endRun
  | drop (panicking : Bool)
  | advance (panics : Bool)
  | shutdownElsewhere (task : TaskId) (panics : Bool)

def Pool.step {V : Type} (p : Pool V) : Act V → Outcome (Pool V) Fault
  | .spawn here => p.spawn here
  | .schedule task inside => p.schedule task inside
  | .task task a =>
    if schedules a || runs a && (decide (task ∈ p.stack) || decide (task ∈ p.elsewhere)) then
      .disabled
    else
      p.stepTask task a
  | .enter => p.enter
  | .leave => p.leave
  | .lose => p.lose
  | .dropLost => p.dropLost
  | .runTask remote => p.runTask remote
  | .endRun => p.endRun
  | .drop panicking => p.drop panicking
  | .advance panics => p.advance panics
  | .shutdownElsewhere task panics => p.shutdownElsewhere task panics

/-- One runtime and everything that is done to it, while each task has fewer than 2^56 references. -/
def machine (V : Type) : System (Pool V) (Act V) Fault where
  initial p := p = .new
  within p := ∀ c ∈ p.cells, c.live < 2 ^ 56
  step := Pool.step

instance {V : Type} : DecidablePred (machine V).within :=
  fun p => inferInstanceAs (Decidable (∀ c ∈ p.cells, c.live < 2 ^ 56))

theorem new_reachable {V : Type} : (machine V).Reachable Pool.new := .initial rfl

end Shutdown

end Osaka
