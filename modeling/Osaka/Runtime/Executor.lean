import Mathlib.Data.List.Nodup
import Osaka.Shared.Traces

set_option autoImplicit false

namespace Osaka.Executor

open Traces

/-- A task by the order in which the executor has made it. -/
abbrev TaskId := Nat

structure TaskQueue where
  -- what the wakers have sent and `receive` has not taken yet
  receiver : List TaskId
  tasks : List TaskId

namespace TaskQueue

def new : TaskQueue := ⟨[], []⟩

def pop (self : TaskQueue) : Option TaskId × TaskQueue :=
  match self.tasks with
  | [] => (none, self)
  | task :: rest => (some task, { self with tasks := rest })

def push (self : TaskQueue) (runnable : TaskId) : TaskQueue :=
  { self with tasks := self.tasks ++ [runnable] }

-- `send` of the channel's `sender`
def send (self : TaskQueue) (runnable : TaskId) : TaskQueue :=
  { self with receiver := self.receiver ++ [runnable] }

def receive (self : TaskQueue) : TaskQueue :=
  ⟨[], self.tasks ++ self.receiver⟩

def isEmpty (self : TaskQueue) : Bool := self.tasks.isEmpty

end TaskQueue

/-- The wakers by the sources' keys. No entry of the maps is ever without a waker, so that they are lists of pairs. -/
structure Reactor where
  readable : List (Nat × TaskId)
  writable : List (Nat × TaskId)

namespace Reactor

def new : Reactor := ⟨[], []⟩

def wakeOnReadable (self : Reactor) (key : Nat) (waker : TaskId) : Reactor :=
  { self with readable := self.readable ++ [(key, waker)] }

def wakeOnWritable (self : Reactor) (key : Nat) (waker : TaskId) : Reactor :=
  { self with writable := self.writable ++ [(key, waker)] }

def remove (self : Reactor) (key : Nat) : Reactor :=
  ⟨self.readable.filter (fun entry => entry.1 != key), self.writable.filter (fun entry => entry.1 != key)⟩

def wakers (self : Reactor) : List Nat → List TaskId × Reactor
  | [] => ([], self)
  | key :: events =>
    let readers := (self.readable.filter (fun entry => entry.1 == key)).map Prod.snd
    let writers := (self.writable.filter (fun entry => entry.1 == key)).map Prod.snd
    let (wakers, self) := (self.remove key).wakers events
    (readers ++ writers ++ wakers, self)

def waitingOnEvents (self : Reactor) : Bool :=
  !self.readable.isEmpty || !self.writable.isEmpty

def registered (self : Reactor) : List TaskId := (self.readable ++ self.writable).map Prod.snd

theorem registered_wakeOnReadable {reactor : Reactor} {key : Nat} {task waker : TaskId}
    (held : task ∈ (reactor.wakeOnReadable key waker).registered) : task ∈ reactor.registered ∨ task = waker := by
  simp only [registered, wakeOnReadable, List.map_append, List.mem_append, List.map_cons, List.map_nil,
    List.mem_singleton] at held ⊢
  rcases held with (reader | new) | writer
  · exact .inl (.inl reader)
  · exact .inr new
  · exact .inl (.inr writer)

theorem registered_wakeOnWritable {reactor : Reactor} {key : Nat} {task waker : TaskId}
    (held : task ∈ (reactor.wakeOnWritable key waker).registered) : task ∈ reactor.registered ∨ task = waker := by
  simp only [registered, wakeOnWritable, List.map_append, List.mem_append, List.map_cons, List.map_nil,
    List.mem_singleton] at held ⊢
  rcases held with reader | writer | new
  · exact .inl (.inl reader)
  · exact .inl (.inr writer)
  · exact .inr new

theorem registered_remove {reactor : Reactor} {key : Nat} {task : TaskId}
    (left : task ∈ (reactor.remove key).registered) : task ∈ reactor.registered := by
  simp only [registered, remove, List.mem_map, List.mem_append, List.mem_filter] at left ⊢
  obtain ⟨entry, left | left, rfl⟩ := left
  · exact ⟨entry, .inl left.1, rfl⟩
  · exact ⟨entry, .inr left.1, rfl⟩

theorem registered_wakers {task : TaskId} (keys : List Nat) (reactor : Reactor) :
    task ∈ (reactor.wakers keys).1 ∨ task ∈ (reactor.wakers keys).2.registered → task ∈ reactor.registered := by
  induction keys generalizing reactor with
  | nil => simp [wakers]
  | cons key events ih =>
    have later := fun either => registered_remove (ih (reactor.remove key) either)
    simp only [wakers, List.mem_append]
    rintro (((reader | writer) | woken) | left)
    · obtain ⟨entry, member, rfl⟩ := List.mem_map.mp reader
      exact List.mem_map_of_mem (List.mem_append_left _ (List.mem_filter.mp member).1)
    · obtain ⟨entry, member, rfl⟩ := List.mem_map.mp writer
      exact List.mem_map_of_mem (List.mem_append_right _ (List.mem_filter.mp member).1)
    · exact later (.inl woken)
    · exact later (.inr left)

end Reactor

inductive Frame where
  | loop
  | polling (task : TaskId)
  -- the poll has answered, and the task, its waker and what they own may be dropped
  | dropping
  -- the ready queue is empty
  | leaving
  | waiting
  | waking (wakers : List TaskId)
  deriving DecidableEq

def Frame.calls : Frame → Bool
  | .polling _ | .dropping => true
  | _ => false

def Frame.tasks : Frame → List TaskId
  | .polling task => [task]
  | .waking wakers => wakers
  | _ => []

structure Executor where
  queue : TaskQueue
  reactor : Reactor
  -- the calls of `run`, the innermost first: a future may call `block_on` while it is polled
  frames : List Frame
  created : Nat
  -- the tasks for which a waker has been made
  wakers : List TaskId

namespace Executor

def new : Executor := ⟨.new, .new, [], 0, []⟩

/-- Whether the program's own code runs: a poll, a drop, or what is outside all calls of `run`. -/
def inCode (self : Executor) : Bool :=
  match self.frames with
  | [] => true
  | frame :: _ => frame.calls

def spawn (self : Executor) : Executor :=
  { self with queue := self.queue.push self.created, created := self.created + 1 }

def run (self : Executor) : Executor :=
  { self with frames := .loop :: self.frames }

-- the closure that `waker_fn` makes a waker of
def wake (self : Executor) (task : TaskId) : Executor :=
  { self with queue := self.queue.send task }

/-- The head of the inner loop, in a call of `run` that `outer` has made. A task that one of these is polling is
borrowed, and `borrow_mut` then unwinds the call. -/
def pop (self : Executor) (outer : List Frame) : Executor :=
  match self.queue.pop with
  | (none, queue) => { self with queue := queue, frames := .leaving :: outer }
  | (some task, queue) =>
    if .polling task ∈ outer then
      { self with queue := queue, frames := outer, wakers := task :: self.wakers }
    else
      { self with queue := queue, frames := .polling task :: outer, wakers := task :: self.wakers }

def advance (self : Executor) : Option Executor :=
  match self.frames with
  | .loop :: outer => some (self.pop outer)
  | .dropping :: outer =>
    if self.queue.isEmpty then
      some { self with frames := .leaving :: outer }
    else
      some { self with frames := .loop :: outer }
  | .leaving :: outer =>
    if !self.reactor.waitingOnEvents then
      some { self with frames := outer }
    else
      some { self with frames := .waiting :: outer }
  | .waking (waker :: rest) :: outer => some { self.wake waker with frames := .waking rest :: outer }
  | .waking [] :: outer => some { self with queue := self.queue.receive, frames := .loop :: outer }
  | _ => none

end Executor

def Executor.holds (self : Executor) : List TaskId :=
  self.reactor.registered ++ self.frames.flatMap Frame.tasks

/-- What the program, the futures and the operating system do. -/
inductive Action where
  | spawn
  | run
  | wake (task : TaskId)
  | wakeOnReadable (key : Nat) (waker : TaskId)
  | wakeOnWritable (key : Nat) (waker : TaskId)
  | remove (key : Nat)
  | advance
  | ready
  | pending
  | panics
  | events (keys : List Nat)
  | fails

namespace Executor

def answer (self : Executor) (answered : List Frame → List Frame) : Option Executor :=
  match self.frames with
  | .polling _ :: outer => some { self with frames := answered outer }
  | _ => none

/-- `none` is an action that cannot be taken there. -/
def step (self : Executor) : Action → Option Executor
  | .spawn => if self.inCode then some self.spawn else none
  | .run => if self.inCode then some self.run else none
  | .wake task => if self.inCode ∧ task ∈ self.wakers then some (self.wake task) else none
  | .wakeOnReadable key waker =>
    if self.inCode ∧ waker ∈ self.wakers then
      some { self with reactor := self.reactor.wakeOnReadable key waker }
    else none
  | .wakeOnWritable key waker =>
    if self.inCode ∧ waker ∈ self.wakers then
      some { self with reactor := self.reactor.wakeOnWritable key waker }
    else none
  | .remove key => if self.inCode then some { self with reactor := self.reactor.remove key } else none
  | .advance => self.advance
  | .ready | .pending => self.answer fun outer => .dropping :: outer
  | .panics => self.answer fun outer => outer
  | .events keys =>
    match self.frames with
    | .waiting :: outer =>
      let (wakers, reactor) := self.reactor.wakers keys
      some { self with reactor := reactor, frames := .waking wakers :: outer }
    | _ => none
  | .fails =>
    match self.frames with
    | .waiting :: outer => some { self with frames := outer }
    | _ => none

def polls (self : Executor) : Action → Option TaskId
  | .advance =>
    match self.frames, self.queue.tasks with
    | .loop :: outer, task :: _ => if .polling task ∈ outer then none else some task
    | _, _ => none
  | _ => none

/-- The task whose copy the action takes while an outer call polls it. -/
def refuses (self : Executor) : Action → Option TaskId
  | .advance =>
    match self.frames, self.queue.tasks with
    | .loop :: outer, task :: _ => if .polling task ∈ outer then some task else none
    | _, _ => none
  | _ => none

def wakes (self : Executor) : Action → Option TaskId
  | .wake task => if self.inCode ∧ task ∈ self.wakers then some task else none
  | .advance =>
    match self.frames with
    | .waking (waker :: _) :: _ => some waker
    | _ => none
  | _ => none

def finishes (self : Executor) : Action → Option TaskId
  | .ready =>
    match self.frames with
    | .polling task :: _ => some task
    | _ => none
  | _ => none

/-- Whether the call of `run` returns `Ok` or blocks in `wait_for_io` by the action. -/
def leaves (self : Executor) : Action → Bool
  | .advance =>
    match self.frames with
    | .leaving :: _ => true
    | _ => false
  | _ => false

def receives (self : Executor) : Action → Bool
  | .advance =>
    match self.frames with
    | .waking [] :: _ => true
    | _ => false
  | _ => false

end Executor

end Osaka.Executor
