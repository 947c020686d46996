import Osaka.Runtime.Thread

set_option autoImplicit false

namespace Osaka

open Unwind Time

/-- What a waker of this crate does: notify a task whose state allows it, or wake a root future. -/
inductive Wake where
  | task (rt : RuntimeId) (notified : Notified)
  | root (rt : RuntimeId)
  deriving DecidableEq

inductive Method where
  | spawn (task : TaskId) (notified : Notified)
  | takeTimestep
  | nextWakeup
  | pollUntilDeadlock
  | blockOn (root : RootId)
  | blockOnOrDeadlock (root : RootId)
  deriving DecidableEq

/-- One operation that a future makes on the crate while it is polled. -/
inductive Op where
  | wake (wake : Wake)
  -- `osaka::spawn`
  | spawn (task : TaskId) (notified : Notified)
  -- the task has completed and leaves the list of its scheduler
  | release (rt : RuntimeId) (task : TaskId)
  | pollSleep (sleep : Sleep) (waker : Waker)
  | resetSleep (id : Nat) (deadline : SimTime)
  | setNow (time : SimTime)
  -- `Runtime::enter` or `Handle::enter`; the future keeps the guard
  | enter (guard : GuardId) (rt : RuntimeId)
  | dropGuard (guard : GuardId)
  -- a method of a runtime, whose panic the future may catch
  | call (rt : RuntimeId) (method : Method) (caught : Bool)
  -- drops a runtime, and so its tasks
  | dropRuntime (rt : RuntimeId) (destructors : List Op)
  | unwind

/-- The futures: what each poll of a task or of a root future does, and what a waker notifies, given
what they keep in memory. -/
structure Program (X A : Type) where
  run : Notified → X → List Op × X
  poll : RootId → X → (List Op × Poll A) × X
  wake : Waker → X → Option Wake × X
  -- the destructors that run when a poll unwinds
  runUnwinds : Notified → X → List Op := fun _ _ => []
  pollUnwinds : RootId → X → List Op := fun _ _ => []

/-- The futures, and the methods of the runtimes as the futures call them. -/
structure Env (X A : Type) where
  program : Program X A
  call : RuntimeId → Method → Act X A Unit

variable {X A B : Type}

namespace Shared

def schedule (rt : RuntimeId) (task : Notified) : Act X A Unit := Exec.modify fun t =>
  if t.current = some rt then
    match (t.runtimes rt).contextCore with
    | some core =>
      (t.update rt fun s => { s with contextCore := some (core.pushTask task) }).record
        (.scheduled rt .core task)
    | none => t.record (.scheduled rt .nowhere task)
  else
    match (t.runtimes rt).queue with
    | some queue =>
      (t.update rt fun s => { s with queue := some (queue ++ [task]) }).record
        (.scheduled rt .shared task)
    | none => t.record (.scheduled rt .nowhere task)

def wakeByRef (rt : RuntimeId) : Act X A Unit := do
  updateRuntime rt fun s => { s with woken := true }
  record (.wokeRoot rt)

end Shared

def Wake.exec (wake : Wake) : Act X A Unit :=
  match wake with
  | .task rt notified => Shared.schedule rt notified
  | .root rt => Shared.wakeByRef rt

namespace OwnedTasks

def bind (owned : OwnedTasks) (task : TaskId) : OwnedTasks :=
  if owned.closed then owned else { owned with list := task :: owned.list }

def remove (owned : OwnedTasks) (task : TaskId) : OwnedTasks :=
  { owned with list := owned.list.erase task }

def closeAndShutdownAll (_owned : OwnedTasks) : OwnedTasks := { list := [], closed := true }

end OwnedTasks

namespace Spawner

/-- A closed list drops the notification of the new task. -/
def spawn (rt : RuntimeId) (task : TaskId) (notified : Notified) : Act X A Unit := do
  let t ← Exec.get
  updateRuntime rt fun s => { s with owned := s.owned.bind task }
  if (t.runtimes rt).owned.closed then pure () else Shared.schedule rt notified

def pop (rt : RuntimeId) : Act X A (Option Notified) := fun t =>
  match (t.runtimes rt).queue with
  | some (task :: rest) => (.returned (some task), t.update rt fun s => { s with queue := some rest })
  | some [] => (.returned none, t)
  | none => (.returned none, t)

def wakerRef (rt : RuntimeId) : Act X A Unit := updateRuntime rt fun s => { s with woken := true }

def resetWoken (rt : RuntimeId) : Act X A Bool := fun t =>
  (.returned (t.runtimes rt).woken, t.update rt fun s => { s with woken := false })

end Spawner

def spawnInner (task : TaskId) (notified : Notified) : Act X A Unit := do
  let t ← Exec.get
  record (.spawned t.context)
  match t.context with
  | some rt => Spawner.spawn rt task notified
  | none => Exec.throw .contextMissing

namespace Context

def takeCore (rt : RuntimeId) : Act X A Core := fun t =>
  match (t.runtimes rt).contextCore with
  | some core => (.returned core, t.update rt fun s => { s with contextCore := none })
  | none => (.unwound .coreMissing, t)

def putCore (rt : RuntimeId) (core : Core) : Act X A Unit :=
  updateRuntime rt fun s => { s with contextCore := some core }

def enter (rt : RuntimeId) (core : Core) (f : Act X A B) : Act X A (Core × B) := do
  putCore rt core
  let ret ← f
  let core ← takeCore rt
  return (core, ret)

def parkYield (_core : Core) : Act X A Core := Exec.throw .notImplemented

end Context

namespace CoreGuard

def enter (rt : RuntimeId) (f : Core → Act X A (Core × B)) : Act X A B := do
  let core ← Context.takeCore rt
  let (core, ret) ← currentSet rt (f core)
  Context.putCore rt core
  return ret

/-- `Drop` places the core back, if the context still holds it. -/
def drop (rt : RuntimeId) (t : Thread X A) : Thread X A :=
  match (t.runtimes rt).contextCore with
  | some core => t.update rt fun s => { s with core := some core, notify := true, contextCore := none }
  | none => t

def consume (rt : RuntimeId) (m : Act X A B) : Act X A B := Exec.guarded id (fun _ t => drop rt t) m

end CoreGuard

namespace BasicScheduler

def takeCore (rt : RuntimeId) : Act X A Bool := fun t =>
  match (t.runtimes rt).core with
  | some core => (.returned true, t.update rt fun s => { s with core := none, contextCore := some core })
  | none => (.returned false, t)

/-- `Drop`, on a thread that is not panicking already. -/
def drop (rt : RuntimeId) (destructors : Act X A Unit) : Act X A Unit := do
  if ← takeCore rt then
    CoreGuard.consume rt (CoreGuard.enter rt fun core => do
      updateRuntime rt fun s => { s with owned := s.owned.closeAndShutdownAll }
      destructors
      updateRuntime rt fun s => { s with queue := none }
      return ({ core with tasks := [] }, ()))
  else Exec.throw .neverPlacedBack

end BasicScheduler

/-- `context::enter`, with a guard that outlives the call. -/
def Handle.enter (guard : GuardId) (rt : RuntimeId) : Act X A Unit := Exec.modify fun t =>
  let (made, context) := Context.tryEnter t.context rt
  { t with context := context, guards := Function.update t.guards guard (some made) }.record
    (.contextSet context)

def EnterGuard.drop (guard : GuardId) : Act X A Unit := Exec.modify fun t =>
  match t.guards guard with
  | none => t
  | some made =>
    { t with context := made.drop, guards := Function.update t.guards guard none }.record
      (.contextSet made.drop)

/-- `Drop for Runtime`: the destructors run in the context of the runtime, which the scheduler leaves last. -/
def Runtime.drop (rt : RuntimeId) (destructors : Act X A Unit) : Act X A Unit :=
  Exec.guarded (fun t => { t with context := some rt }.record (.contextSet (some rt)))
    (fun old t => { t with context := old.context }.record (.contextSet old.context))
    (BasicScheduler.drop rt destructors)

section Futures

variable (env : Env X A)

def wakeWaker (waker : Waker) : Act X A Unit := do
  let t ← Exec.get
  let (wake, world) := env.program.wake waker t.world
  Exec.modify fun t => { t with world := world }
  match wake with
  | some wake => wake.exec
  | none => pure ()

def wakeWakers : List Waker → Act X A Unit
  | [] => pure ()
  | waker :: rest => do
    wakeWaker env waker
    wakeWakers rest

mutual

def Op.exec : Op → Act X A Unit
  | .wake issued => issued.exec
  | .spawn task notified => spawnInner task notified
  | .release rt task => updateRuntime rt fun s => { s with owned := s.owned.remove task }
  | .pollSleep sleep waker => do
    let t ← Exec.get
    if t.now < sleep.deadline then
      TimeContext.withCurrent fun driver => do
        match ← TimeContext.readDriver driver fun now d =>
          match d.wakeSleeper now sleep waker with
          | some registered => (true, registered)
          | none => (false, d) with
        | true => pure ()
        | false => Exec.throw .deadlinePassed
    else pure ()
  | .resetSleep id deadline =>
    TimeContext.withCurrent fun driver =>
      TimeContext.readDriver driver fun _ d => ((), d.resetSleeper id deadline)
  | .setNow time => Exec.modify fun t => { t with now := time }
  | .enter guard rt => Handle.enter guard rt
  | .dropGuard guard => EnterGuard.drop guard
  | .call rt method caught =>
    if caught then do
      let _ ← (env.call rt method).catchUnwind
    else env.call rt method
  | .dropRuntime rt destructors => Runtime.drop rt (destroyAll destructors)
  | .unwind => Exec.throw .user

/-- What destructors do. `cancel_task` catches what they raise; one that panics while a poll unwinds
would abort the process. -/
def destroyAll : List Op → Act X A Unit
  | [] => pure ()
  | op :: rest => do
    let _ ← (op.exec).catchUnwind
    destroyAll rest

end

def execAll : List Op → Act X A Unit
  | [] => pure ()
  | op :: rest => do
    op.exec env
    execAll rest

/-- The operations of one poll, and what unwinding drops. -/
def execPoll (ops unwinds : List Op) : Act X A (Except Panic Unit) := do
  match ← (execAll env ops).catchUnwind with
  | .ok () => return .ok ()
  | .error payload =>
    destroyAll env unwinds
    return .error payload

/-- `task.run()`: the harness catches what the future raises. -/
def runTask (rt : RuntimeId) (place : Place) (task : Notified) : Act X A Unit := do
  let t ← Exec.get
  let (ops, world) := env.program.run task t.world
  record (.ran rt place task t.context)
  Exec.modify fun t => { t with world := world }
  let _ ← execPoll env ops (env.program.runUnwinds task t.world)

def pollRoot (rt : RuntimeId) (root : RootId) : Act X A (Poll A) := do
  let t ← Exec.get
  let ((ops, answer), world) := env.program.poll root t.world
  record (.rootPolling rt)
  Exec.modify fun t => { t with world := world }
  match ← execPoll env ops (env.program.pollUnwinds root t.world) with
  | .ok () =>
    record (.rootPolled rt (some answer))
    return answer
  | .error payload =>
    record (.rootPolled rt none)
    Exec.throw payload

/-- The locals of the loops in `CoreGuard`: the core, the progress counter and the index of the inner
loop, which is 0 at the top of the outer one. -/
structure Turn where
  core : Core
  c : Nat
  i : Nat
  deriving DecidableEq

def Turn.top (core : Core) : Turn := { core := core, c := 0, i := 0 }

def nextEntry (rt : RuntimeId) (core : Core) : Act X A (Option (Place × Notified) × Core) := do
  let tick := core.tick
  let core := { core with tick := core.tick + 1 }
  if tick % 5 = 0 then
    match ← Spawner.pop rt with
    | some task => return (some (.shared, task), core)
    | none =>
      match core.popTask with
      | some (task, core) => return (some (.core, task), core)
      | none => return (none, core)
  else
    match core.popTask with
    | some (task, core) => return (some (.core, task), core)
    | none =>
      match ← Spawner.pop rt with
      | some task => return (some (.shared, task), core)
      | none => return (none, core)

def pollUntilDeadlockTurn (rt : RuntimeId) (turn : Turn) : Act X A (Turn ⊕ Core) := do
  if turn.core.unhandledPanic then return .inr turn.core
  else
    match ← nextEntry rt turn.core with
    | (none, core) => return if turn.c = 0 then .inr core else .inl (.top core)
    | (some (place, task), core) =>
      let (core, _) ← Context.enter rt core (runTask env rt place task)
      return .inl (if turn.i + 1 < 10 then ⟨core, turn.c + 1, turn.i + 1⟩ else .top core)

/-- The poll of the root future at the top of the outer loop; `none` when there is none to make. -/
def pollWoken (rt : RuntimeId) (root : RootId) (turn : Turn) : Act X A (Turn × Option (Poll A)) := do
  if turn.i = 0 then
    if ← Spawner.resetWoken rt then
      let (core, res) ← Context.enter rt turn.core (pollRoot env rt root)
      return ({ turn with core := core, c := turn.c + 1 }, some res)
    else return (turn, none)
  else return (turn, none)

def blockOnTurn (rt : RuntimeId) (root : RootId) (turn : Turn) :
    Act X A (Turn ⊕ Core × Option A) := do
  match ← pollWoken env rt root turn with
  | (turn, some (.ready value)) => return .inr (turn.core, some value)
  | (turn, _) =>
    if turn.core.unhandledPanic then return .inr (turn.core, none)
    else
      match ← nextEntry rt turn.core with
      | (none, core) => return if turn.c = 0 then .inr (core, none) else .inl (.top core)
      | (some (place, task), core) =>
        let (core, _) ← Context.enter rt core (runTask env rt place task)
        if turn.i + 1 < 10 then return .inl ⟨core, turn.c + 1, turn.i + 1⟩
        else
          let core ← Context.parkYield core
          return .inl (.top core)

namespace CoreGuard

def pollUntilDeadlock (fuel : Nat) (rt : RuntimeId) : Act X A Unit :=
  consume rt (enter rt fun core =>
    runtimeEnter false do
      let core ← Exec.loop (pollUntilDeadlockTurn env rt) fuel (.top core)
      return (core, ()))

def blockOn (fuel : Nat) (rt : RuntimeId) (root : RootId) : Act X A (Except BlockOnError A) :=
  consume rt do
    let ret ← enter rt fun core =>
      runtimeEnter false do
        Spawner.wakerRef rt
        Exec.loop (blockOnTurn env rt root) fuel (.top core)
    match ret with
    | some ret => return .ok ret
    | none => return .error .deadlock

end CoreGuard

/-- `Enter::block_on`: between two polls the thread is parked, for as long as it likes. -/
def parkedBlockOn (fuel : Nat) (poll : Act X A (Poll B)) : Act X A B :=
  Exec.loop (fun _ => do
    match ← poll with
    | .ready value => return .inr value
    | .pending => return .inl ()) fuel ()

namespace BasicScheduler

def pollUntilDeadlock (fuel : Nat) (rt : RuntimeId) : Act X A Unit := do
  if ← takeCore rt then CoreGuard.pollUntilDeadlock env fuel rt else Exec.throw .huh

/-- The future polled while another thread would hold the core. -/
def notifiedOrPoll (rt : RuntimeId) (root : RootId) : Act X A (Poll (Option A)) := do
  let t ← Exec.get
  if (t.runtimes rt).notify then
    updateRuntime rt fun s => { s with notify := false }
    return .ready none
  else
    match ← pollRoot env rt root with
    | .ready value => return .ready (some value)
    | .pending => return .pending

def blockOn (fuel : Nat) (rt : RuntimeId) (root : RootId) : Act X A (Except BlockOnError A) :=
  Exec.loop (fun _ => do
    if ← takeCore rt then
      let ret ← CoreGuard.blockOn env fuel rt root
      return .inr ret
    else
      match ← runtimeEnter false (parkedBlockOn fuel (notifiedOrPoll env rt root)) with
      | some out => return .inr (.ok out)
      | none => return .inl ()) fuel ()

end BasicScheduler

namespace Runtime

def spawn (rt : RuntimeId) (task : TaskId) (notified : Notified) : Act X A Unit :=
  BasicScheduler.withTime rt (Spawner.spawn rt task notified)

def takeTimestep (rt : RuntimeId) : Act X A Unit :=
  BasicScheduler.withTime rt (TimeContext.withCurrent fun driver => do
    let wakers ← TimeContext.readDriver driver fun now d => d.takeTimestep now
    wakeWakers env wakers)

def nextWakeup (rt : RuntimeId) : Act X A (Option SimTime) :=
  BasicScheduler.withTime rt (TimeContext.withCurrent fun driver =>
    TimeContext.readDriver driver fun _ d => d.nextWakeup)

def pollUntilDeadlock (fuel : Nat) (rt : RuntimeId) : Act X A Unit :=
  BasicScheduler.withTime rt (BasicScheduler.pollUntilDeadlock env fuel rt)

def blockOn (fuel : Nat) (rt : RuntimeId) (root : RootId) : Act X A A :=
  BasicScheduler.withTime rt (contextEnter rt do
    match ← BasicScheduler.blockOn env fuel rt root with
    | .ok value => return value
    | .error .deadlock => Exec.throw .deadlock)

def blockOnOrDeadlock (fuel : Nat) (rt : RuntimeId) (root : RootId) : Act X A (Except BlockOnError A) :=
  BasicScheduler.withTime rt (contextEnter rt (BasicScheduler.blockOn env fuel rt root))

end Runtime

def Method.exec (method : Method) (fuel : Nat) (rt : RuntimeId) : Act X A Unit :=
  match method with
  | .spawn task notified => Runtime.spawn rt task notified
  | .takeTimestep => Runtime.takeTimestep env rt
  | .nextWakeup => do
    let _ ← Runtime.nextWakeup rt
  | .pollUntilDeadlock => Runtime.pollUntilDeadlock env fuel rt
  | .blockOn root => do
    let _ ← Runtime.blockOn env fuel rt root
  | .blockOnOrDeadlock root => do
    let _ ← Runtime.blockOnOrDeadlock env fuel rt root

end Futures

/-- The futures of `program`. The depth bounds how calls of methods nest, and the turns they take. -/
def Env.nested (program : Program X A) : Nat → Env X A
  | 0 => ⟨program, fun _ _ => Exec.outOfFuel⟩
  | depth + 1 => ⟨program, fun rt method => method.exec (Env.nested program depth) (depth + 1) rt⟩

def Program.env (program : Program X A) (depth : Nat) : Env X A := Env.nested program (depth + 1)

end Osaka
