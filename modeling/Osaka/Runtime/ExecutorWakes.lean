import Osaka.Runtime.Executor

set_option autoImplicit false

namespace Osaka.Executor

open Traces

structure History where
  -- have answered `Ready`
  finished : List TaskId
  polled : List TaskId
  -- woken since the latest poll of them began
  woken : List TaskId
  -- woken outside of `wait_for_io` since the channel was last drained
  late : List TaskId
  -- the copy that a wake since the latest poll has sent was lost to a poll in progress
  refused : List TaskId

namespace History

def new : History := ⟨[], [], [], [], []⟩

def without (tasks : List TaskId) (task : TaskId) : List TaskId :=
  tasks.filter fun other => other != task

def begin (history : History) (task : TaskId) : History :=
  { history with
    polled := task :: history.polled
    woken := without history.woken task
    refused := without history.refused task }

def refuse (history : History) (task : TaskId) : History :=
  if task ∈ history.woken then { history with refused := task :: history.refused } else history

def wake (history : History) (task : TaskId) (inCode : Bool) : History :=
  { history with
    woken := task :: history.woken
    late := if inCode then history.late ++ [task] else history.late }

def finish (history : History) (task : TaskId) : History :=
  { history with finished := task :: history.finished }

def drain (history : History) : History :=
  { history with late := [] }

def note (history : History) (self : Executor) (action : Action) : History :=
  match self.polls action, self.refuses action, self.wakes action, self.finishes action with
  | some task, _, _, _ => history.begin task
  | _, some task, _, _ => history.refuse task
  | _, _, some task, _ => history.wake task self.inCode
  | _, _, _, some task => history.finish task
  | _, _, _, _ => if self.receives action then history.drain else history

@[simp]
theorem mem_without {tasks : List TaskId} {task other : TaskId} :
    other ∈ without tasks task ↔ other ∈ tasks ∧ other ≠ task := by
  simp [without]

theorem refuse_keeps (history : History) (task : TaskId) : (history.refuse task).finished = history.finished ∧
    (history.refuse task).polled = history.polled ∧ (history.refuse task).woken = history.woken := by
  unfold refuse
  split <;> exact ⟨rfl, rfl, rfl⟩

end History

structure Recorded where
  executor : Executor
  history : History

namespace Recorded

def start : Recorded := ⟨.new, .new⟩

def step (self : Recorded) (action : Action) : Recorded :=
  match self.executor.step action with
  | none => self
  | some next => ⟨next, self.history.note self.executor action⟩

inductive Turns (empty : Bool) : List Frame → List Frame → Prop
  | same (frames : List Frame) : Turns empty frames frames
  | enters (frames : List Frame) (inCode : ∀ frame ∈ frames.head?, frame.calls) : Turns empty frames (.loop :: frames)
  | returns (frame : Frame) (outer : List Frame) (sent : ∀ wakers, frame ≠ .waking wakers) :
      Turns empty (frame :: outer) outer
  | goes (frame next : Frame) (outer : List Frame) (sent : ∀ wakers, frame ≠ .waking wakers)
      (left : next = .leaving → empty = true) : Turns empty (frame :: outer) (next :: outer)

inductive Moves (self : Recorded) : Action → Recorded → Prop
  | turns (action : Action) (next : Executor) (queue : next.queue = self.executor.queue)
      (wakers : next.wakers = self.executor.wakers) (created : next.created = self.executor.created)
      (holds : ∀ task ∈ next.holds, task ∈ self.executor.holds ∨ task ∈ self.executor.wakers)
      (turned : Turns self.executor.queue.isEmpty self.executor.frames next.frames) :
      Moves self action ⟨next, self.history⟩
  | spawns (inCode : self.executor.inCode) : Moves self .spawn ⟨self.executor.spawn, self.history⟩
  | wakes (task : TaskId) (inCode : self.executor.inCode) (made : task ∈ self.executor.wakers) :
      Moves self (.wake task) ⟨self.executor.wake task, self.history.wake task true⟩
  | sends (task : TaskId) (rest : List TaskId) (outer : List Frame)
      (frames : self.executor.frames = .waking (task :: rest) :: outer) :
      Moves self .advance
        ⟨{ self.executor.wake task with frames := .waking rest :: outer }, self.history.wake task false⟩
  | drains (outer : List Frame) (frames : self.executor.frames = .waking [] :: outer) :
      Moves self .advance
        ⟨{ self.executor with queue := self.executor.queue.receive, frames := .loop :: outer }, self.history.drain⟩
  | begins (task : TaskId) (rest : List TaskId) (outer : List Frame) (frames : self.executor.frames = .loop :: outer)
      (tasks : self.executor.queue.tasks = task :: rest) (free : .polling task ∉ outer) :
      Moves self .advance
        ⟨{ self.executor with
            queue := ⟨self.executor.queue.receiver, rest⟩
            frames := .polling task :: outer
            wakers := task :: self.executor.wakers }, self.history.begin task⟩
  | refuses (task : TaskId) (rest : List TaskId) (outer : List Frame) (frames : self.executor.frames = .loop :: outer)
      (tasks : self.executor.queue.tasks = task :: rest) (busy : .polling task ∈ outer) :
      Moves self .advance
        ⟨{ self.executor with
            queue := ⟨self.executor.queue.receiver, rest⟩
            frames := outer
            wakers := task :: self.executor.wakers }, self.history.refuse task⟩
  | finishes (task : TaskId) (outer : List Frame) (frames : self.executor.frames = .polling task :: outer) :
      Moves self .ready
        ⟨{ self.executor with frames := .dropping :: outer }, self.history.finish task⟩

theorem note_same {history : History} {self : Executor} {action : Action} (polls : self.polls action = none)
    (refuses : self.refuses action = none) (wakes : self.wakes action = none) (finishes : self.finishes action = none)
    (receives : self.receives action = false) : history.note self action = history := by
  simp [History.note, polls, refuses, wakes, finishes, receives]

variable {self : Recorded} {action : Action}

theorem moves_stays (action : Action) : Moves self action self :=
  .turns action self.executor rfl rfl rfl (fun _ => .inl) (.same _)

theorem held_registered {executor : Executor} {reactor : Reactor}
    (fewer : ∀ task ∈ reactor.registered, task ∈ executor.reactor.registered ∨ task ∈ executor.wakers) :
    ∀ task ∈ ({ executor with reactor := reactor } : Executor).holds, task ∈ executor.holds ∨ task ∈ executor.wakers := by
  intro task held
  rcases List.mem_append.mp held with registered | running
  · exact (fewer task registered).imp_left (List.mem_append_left _)
  · exact .inl (List.mem_append_right _ running)

theorem held_below {executor : Executor} {frame : Frame} {outer : List Frame} (frames : executor.frames = frame :: outer) :
    ∀ task ∈ ({ executor with frames := outer } : Executor).holds, task ∈ executor.holds ∨ task ∈ executor.wakers := by
  intro task held
  refine .inl ?_
  simp only [Executor.holds, frames, List.mem_append, List.flatMap_cons] at held ⊢
  exact held.imp_right .inr

theorem held_from {executor : Executor} {frame next : Frame} {outer : List Frame}
    (frames : executor.frames = frame :: outer) (none : next.tasks = []) :
    ∀ task ∈ ({ executor with frames := next :: outer } : Executor).holds,
      task ∈ executor.holds ∨ task ∈ executor.wakers := by
  intro task held
  refine held_below frames task ?_
  simpa only [Executor.holds, List.flatMap_cons, none, List.nil_append] using held

theorem held_events {executor : Executor} {outer : List Frame} {keys : List Nat}
    (frames : executor.frames = .waiting :: outer) :
    ∀ task ∈ ({ executor with
        reactor := (executor.reactor.wakers keys).2
        frames := .waking (executor.reactor.wakers keys).1 :: outer } : Executor).holds,
      task ∈ executor.holds ∨ task ∈ executor.wakers := by
  intro task held
  refine held_below frames task ?_
  rcases List.mem_append.mp held with left | running
  · exact List.mem_append_left _ (Reactor.registered_wakers keys _ (.inr left))
  · rw [List.flatMap_cons, List.mem_append] at running
    rcases running with woken | running
    · exact List.mem_append_left _ (Reactor.registered_wakers keys _ (.inl woken))
    · exact List.mem_append_right _ running

theorem advance_moves : Moves self .advance (self.step .advance) := by
  cases frames : self.executor.frames with
  | nil =>
    have stays : self.step .advance = self := by simp [step, Executor.step, Executor.advance, frames]
    rw [stays]
    exact moves_stays _
  | cons frame outer =>
    cases frame with
    | loop =>
      cases tasks : self.executor.queue.tasks with
      | nil =>
        have left : self.step .advance = ⟨{ self.executor with frames := .leaving :: outer }, self.history⟩ := by
          simp [step, Executor.step, Executor.advance, frames, Executor.pop, TaskQueue.pop, tasks, History.note,
            Executor.polls, Executor.refuses, Executor.wakes, Executor.finishes, Executor.receives]
        rw [left]
        refine .turns _ _ rfl rfl rfl (held_from frames rfl) ?_
        rw [frames]
        exact .goes _ _ outer nofun fun _ => by simp [TaskQueue.isEmpty, tasks]
      | cons task rest =>
        by_cases busy : .polling task ∈ outer
        · have refused : self.step .advance = ⟨{ self.executor with
              queue := ⟨self.executor.queue.receiver, rest⟩
              frames := outer
              wakers := task :: self.executor.wakers }, self.history.refuse task⟩ := by
            simp [step, Executor.step, Executor.advance, frames, Executor.pop, TaskQueue.pop, tasks, History.note,
              Executor.polls, Executor.refuses, busy]
          rw [refused]
          exact .refuses task rest outer frames tasks busy
        · have began : self.step .advance = ⟨{ self.executor with
              queue := ⟨self.executor.queue.receiver, rest⟩
              frames := .polling task :: outer
              wakers := task :: self.executor.wakers }, self.history.begin task⟩ := by
            simp [step, Executor.step, Executor.advance, frames, Executor.pop, TaskQueue.pop, tasks, History.note,
              Executor.polls, busy]
          rw [began]
          exact .begins task rest outer frames tasks busy
    | polling task =>
      have stays : self.step .advance = self := by simp [step, Executor.step, Executor.advance, frames]
      rw [stays]
      exact moves_stays _
    | waiting =>
      have stays : self.step .advance = self := by simp [step, Executor.step, Executor.advance, frames]
      rw [stays]
      exact moves_stays _
    | dropping =>
      cases empty : self.executor.queue.isEmpty <;>
        simp only [step, Executor.step, Executor.advance, frames, empty, Bool.false_eq_true, if_true, if_false]
      all_goals
        rw [note_same (by simp [Executor.polls, frames]) (by simp [Executor.refuses, frames])
          (by simp [Executor.wakes, frames]) rfl (by simp [Executor.receives, frames])]
        refine .turns _ _ rfl rfl rfl (held_from frames rfl) ?_
        rw [frames, empty]
        exact .goes _ _ outer nofun (by simp)
    | leaving =>
      cases events : self.executor.reactor.waitingOnEvents <;>
        simp only [step, Executor.step, Executor.advance, frames, events, Bool.not_true, Bool.not_false,
          Bool.false_eq_true, if_true, if_false]
      all_goals
        rw [note_same (by simp [Executor.polls, frames]) (by simp [Executor.refuses, frames])
          (by simp [Executor.wakes, frames]) rfl (by simp [Executor.receives, frames])]
      · refine .turns _ _ rfl rfl rfl (held_below frames) ?_
        rw [frames]
        exact .returns _ outer nofun
      · refine .turns _ _ rfl rfl rfl (held_from frames rfl) ?_
        rw [frames]
        exact .goes _ _ outer nofun nofun
    | waking wakers =>
      cases wakers with
      | nil =>
        have drained : self.step .advance = ⟨{ self.executor with
            queue := self.executor.queue.receive
            frames := .loop :: outer }, self.history.drain⟩ := by
          simp [step, Executor.step, Executor.advance, frames, History.note, Executor.polls, Executor.refuses,
            Executor.wakes, Executor.finishes, Executor.receives]
        rw [drained]
        exact .drains outer frames
      | cons task rest =>
        have sent : self.step .advance =
            ⟨{ self.executor.wake task with frames := .waking rest :: outer }, self.history.wake task false⟩ := by
          simp [step, Executor.step, Executor.advance, frames, History.note, Executor.polls, Executor.refuses,
            Executor.wakes, Executor.inCode, Frame.calls]
        rw [sent]
        exact .sends task rest outer frames

theorem inCode_head {executor : Executor} (inCode : executor.inCode = true) :
    ∀ frame ∈ executor.frames.head?, frame.calls = true := by
  intro frame head
  cases frames : executor.frames with
  | nil => simp [frames] at head
  | cons first outer =>
    obtain rfl : first = frame := by simpa [frames] using head
    simpa [Executor.inCode, frames] using inCode

theorem answered {executor next : Executor} {answer : List Frame → List Frame}
    (does : executor.answer answer = some next) :
    ∃ task outer, executor.frames = .polling task :: outer ∧ next = { executor with frames := answer outer } := by
  unfold Executor.answer at does
  split at does
  next task outer frames => exact ⟨task, outer, frames, (Option.some.inj does).symm⟩
  next => cases does

theorem moves_of (taken : Action) (moves : ∀ next, self.executor.step taken = some next →
    Moves self taken ⟨next, self.history.note self.executor taken⟩) : Moves self taken (self.step taken) := by
  unfold step
  split
  next => exact moves_stays _
  next next does => exact moves next does

theorem turns_of {next : Executor} {taken : Action} (same : self.history.note self.executor taken = self.history)
    (queue : next.queue = self.executor.queue) (wakers : next.wakers = self.executor.wakers)
    (created : next.created = self.executor.created)
    (holds : ∀ task ∈ next.holds, task ∈ self.executor.holds ∨ task ∈ self.executor.wakers)
    (turned : Turns self.executor.queue.isEmpty self.executor.frames next.frames) :
    Moves self taken ⟨next, self.history.note self.executor taken⟩ := by
  rw [same]
  exact .turns taken next queue wakers created holds turned

theorem step_moves (self : Recorded) (action : Action) : Moves self action (self.step action) := by
  cases action with
  | advance => exact advance_moves
  | spawn =>
    apply moves_of
    intro next does
    simp only [Executor.step, Option.ite_none_right_eq_some, Option.some.injEq] at does
    obtain ⟨inCode, rfl⟩ := does
    rw [note_same rfl rfl rfl rfl rfl]
    exact .spawns inCode
  | run =>
    apply moves_of
    intro next does
    simp only [Executor.step, Option.ite_none_right_eq_some, Option.some.injEq] at does
    obtain ⟨inCode, rfl⟩ := does
    exact turns_of rfl rfl rfl rfl (fun _ => .inl) (.enters _ (inCode_head inCode))
  | wake task =>
    apply moves_of
    intro next does
    simp only [Executor.step, Option.ite_none_right_eq_some, Option.some.injEq] at does
    obtain ⟨may, rfl⟩ := does
    have woken : self.history.note self.executor (.wake task) = self.history.wake task true := by
      simp [History.note, Executor.polls, Executor.refuses, Executor.wakes, may]
    rw [woken]
    exact .wakes task may.1 may.2
  | wakeOnReadable key waker =>
    apply moves_of
    intro next does
    simp only [Executor.step, Option.ite_none_right_eq_some, Option.some.injEq] at does
    obtain ⟨⟨-, made⟩, rfl⟩ := does
    refine turns_of rfl rfl rfl rfl (held_registered fun task held => ?_) (.same _)
    rcases Reactor.registered_wakeOnReadable held with old | rfl
    · exact .inl old
    · exact .inr made
  | wakeOnWritable key waker =>
    apply moves_of
    intro next does
    simp only [Executor.step, Option.ite_none_right_eq_some, Option.some.injEq] at does
    obtain ⟨⟨-, made⟩, rfl⟩ := does
    refine turns_of rfl rfl rfl rfl (held_registered fun task held => ?_) (.same _)
    rcases Reactor.registered_wakeOnWritable held with old | rfl
    · exact .inl old
    · exact .inr made
  | remove key =>
    apply moves_of
    intro next does
    simp only [Executor.step, Option.ite_none_right_eq_some, Option.some.injEq] at does
    obtain ⟨-, rfl⟩ := does
    exact turns_of rfl rfl rfl rfl (held_registered fun _ held => .inl (Reactor.registered_remove held)) (.same _)
  | ready =>
    apply moves_of
    intro next does
    obtain ⟨task, outer, frames, rfl⟩ := answered does
    have finished : self.history.note self.executor .ready = self.history.finish task := by
      simp [History.note, Executor.polls, Executor.refuses, Executor.wakes, Executor.finishes, frames]
    rw [finished]
    exact .finishes task outer frames
  | pending =>
    apply moves_of
    intro next does
    obtain ⟨task, outer, frames, rfl⟩ := answered does
    refine turns_of rfl rfl rfl rfl (held_from frames rfl) ?_
    rw [frames]
    exact .goes _ _ outer nofun nofun
  | panics =>
    apply moves_of
    intro next does
    obtain ⟨task, outer, frames, rfl⟩ := answered does
    refine turns_of rfl rfl rfl rfl (held_below frames) ?_
    rw [frames]
    exact .returns _ outer nofun
  | events keys =>
    apply moves_of
    intro next does
    simp only [Executor.step] at does
    split at does
    next outer frames =>
      obtain rfl := Option.some.inj does
      refine turns_of rfl rfl rfl rfl (held_events frames) ?_
      rw [frames]
      exact .goes _ _ outer nofun nofun
    next => cases does
  | fails =>
    apply moves_of
    intro next does
    simp only [Executor.step] at does
    split at does
    next outer frames =>
      obtain rfl := Option.some.inj does
      refine turns_of rfl rfl rfl rfl (held_below frames) ?_
      rw [frames]
      exact .returns _ outer nofun
    next => cases does

section Exits

/-- No unfinished task is woken, and nothing is queued, where a call of `run` returns `Ok` or waits for events. -/
def Idle (self : Recorded) (action : Action) : Prop :=
  self.executor.leaves action = true →
    self.executor.queue.tasks = [] ∧ self.executor.queue.receiver = [] ∧
      ∀ task ∈ self.history.woken, task ∈ self.history.finished

/-- There, no wake but by an event has come since the channel was last drained, and none was lost to a poll in
progress. -/
def Undisturbed (self : Recorded) (action : Action) : Prop :=
  self.executor.leaves action = true →
    self.history.late = [] ∧ ∀ task ∈ self.history.refused, task ∈ self.history.finished

structure Sound (recorded : Recorded) : Prop where
  -- only the innermost call of `run` runs: the others are held up in the program's code
  outer : ∀ frame ∈ recorded.executor.frames.tail, frame.calls = true
  left : recorded.executor.frames.head? = some .leaving → recorded.executor.queue.tasks = []
  sent : (∀ wakers, recorded.executor.frames.head? ≠ some (.waking wakers)) →
    recorded.executor.queue.receiver = recorded.history.late
  queued : ∀ task ∈ recorded.history.woken, task ∈ recorded.executor.queue.tasks ∨
    task ∈ recorded.executor.queue.receiver ∨ task ∈ recorded.history.refused
  refused : ∀ task ∈ recorded.history.refused, task ∈ recorded.history.woken

theorem start_sound : start.Sound :=
  ⟨by simp [start, Executor.new], by simp [start, Executor.new], fun _ => rfl, by simp [start, History.new],
    by simp [start, History.new]⟩

theorem head_calls {frames : List Frame} (calls : ∀ frame ∈ frames.head?, frame.calls = true) :
    frames.head? ≠ some .leaving ∧ ∀ wakers, frames.head? ≠ some (.waking wakers) := by
  constructor
  · exact fun head => by simpa [Frame.calls] using calls _ head
  · exact fun wakers head => by simpa [Frame.calls] using calls _ head

theorem outer_calls {frames : List Frame} (calls : ∀ frame ∈ frames, frame.calls = true) :
    frames.head? ≠ some .leaving ∧ ∀ wakers, frames.head? ≠ some (.waking wakers) :=
  head_calls fun frame head => calls frame (List.mem_of_head? head)

theorem Sound.turns {next : Executor} (sound : self.Sound) (queue : next.queue = self.executor.queue)
    (turned : Turns self.executor.queue.isEmpty self.executor.frames next.frames) :
    Sound ⟨next, self.history⟩ := by
  obtain ⟨⟨queue', reactor, frames, created, wakers⟩, history⟩ := self
  obtain ⟨queue'', reactor', frames', created', wakers'⟩ := next
  obtain rfl : queue'' = queue' := queue
  obtain ⟨outer, left, sent, queued, refused⟩ := sound
  dsimp only at *
  cases turned with
  | same => exact ⟨outer, left, sent, queued, refused⟩
  | enters frames inCode =>
    refine ⟨?_, nofun, fun _ => sent (head_calls inCode).2, queued, refused⟩
    cases frames with
    | nil => simp
    | cons frame rest =>
      rintro other (_ | ⟨_, member⟩)
      · exact inCode frame rfl
      · exact outer other member
  | returns frame _ idle =>
    refine ⟨?_, ?_, ?_, queued, refused⟩
    · exact fun other member => outer other (List.mem_of_mem_tail member)
    · exact fun head => absurd head (outer_calls outer).1
    · exact fun _ => sent fun wakers head => idle wakers (Option.some.inj head)
  | goes frame next rest idle empty =>
    refine ⟨outer, ?_, ?_, queued, refused⟩
    · rintro ⟨⟩
      simpa [TaskQueue.isEmpty] using empty rfl
    · exact fun _ => sent fun wakers head => idle wakers (Option.some.inj head)

theorem Sound.woke (sound : self.Sound) (task : TaskId) : ∀ other ∈ task :: self.history.woken,
    other ∈ self.executor.queue.tasks ∨ other ∈ (self.executor.queue.send task).receiver ∨
      other ∈ self.history.refused := by
  intro other woken
  rcases List.mem_cons.mp woken with rfl | woken
  · exact .inr (.inl (List.mem_append_right _ List.mem_cons_self))
  · rcases sound.queued other woken with ready | received | lost
    · exact .inl ready
    · exact .inr (.inl (List.mem_append_left _ received))
    · exact .inr (.inr lost)

theorem step_sound (sound : self.Sound) : (self.step action).Sound := by
  have moves := step_moves self action
  generalize self.step action = next at moves
  cases moves with
  | turns _ next queue _ _ _ turned => exact sound.turns queue turned
  | spawns inCode =>
    have head := head_calls (inCode_head inCode)
    refine ⟨sound.outer, fun leaving => absurd leaving head.1, sound.sent, ?_, sound.refused⟩
    intro task woken
    exact (sound.queued task woken).imp_left (List.mem_append_left _)
  | wakes task inCode made =>
    have head := head_calls (inCode_head inCode)
    refine ⟨sound.outer, sound.left, ?_, sound.woke task, ?_⟩
    · intro idle
      change self.executor.queue.receiver ++ [task] = self.history.late ++ [task]
      rw [sound.sent head.2]
    · exact fun other member => List.mem_cons_of_mem _ (sound.refused other member)
  | sends task rest outer frames =>
    refine ⟨?_, nofun, ?_, sound.woke task, ?_⟩
    · have calls := sound.outer
      rwa [frames] at calls
    · exact fun idle => absurd rfl (idle rest)
    · exact fun other member => List.mem_cons_of_mem _ (sound.refused other member)
  | drains outer frames =>
    refine ⟨?_, nofun, fun _ => rfl, ?_, sound.refused⟩
    · have calls := sound.outer
      rwa [frames] at calls
    · intro task woken
      rcases sound.queued task woken with ready | received | lost
      · exact .inl (List.mem_append_left _ ready)
      · exact .inl (List.mem_append_right _ received)
      · exact .inr (.inr lost)
  | begins task rest outer frames tasks free =>
    have calls := sound.outer
    rw [frames] at calls
    refine ⟨calls, nofun, fun _ => sound.sent (by simp [frames]), ?_, ?_⟩
    · intro other woken
      obtain ⟨woken, apart⟩ := History.mem_without.mp woken
      have queued := sound.queued other woken
      rw [tasks, List.mem_cons] at queued
      rcases queued with (same | ready) | received | lost
      · exact absurd same apart
      · exact .inl ready
      · exact .inr (.inl received)
      · exact .inr (.inr (History.mem_without.mpr ⟨lost, apart⟩))
    · intro other member
      obtain ⟨lost, apart⟩ := History.mem_without.mp member
      exact History.mem_without.mpr ⟨sound.refused other lost, apart⟩
  | refuses task rest outer frames tasks busy =>
    have calls := sound.outer
    rw [frames] at calls
    have head := outer_calls calls
    have sent := sound.sent (by simp [frames])
    have queued := sound.queued
    rw [tasks] at queued
    by_cases woken : task ∈ self.history.woken
    · rw [History.refuse, if_pos woken]
      refine ⟨?_, fun leaving => absurd leaving head.1, fun _ => sent, ?_, ?_⟩
      · exact fun frame member => calls frame (List.mem_of_mem_tail member)
      · intro other woken
        rcases queued other woken with ready | received | lost
        · rcases List.mem_cons.mp ready with rfl | ready
          · exact .inr (.inr List.mem_cons_self)
          · exact .inl ready
        · exact .inr (.inl received)
        · exact .inr (.inr (List.mem_cons_of_mem _ lost))
      · intro other member
        rcases List.mem_cons.mp member with rfl | lost
        · exact woken
        · exact sound.refused other lost
    · rw [History.refuse, if_neg woken]
      refine ⟨?_, fun leaving => absurd leaving head.1, fun _ => sent, ?_, sound.refused⟩
      · exact fun frame member => calls frame (List.mem_of_mem_tail member)
      · intro other since
        refine (queued other since).imp_left fun ready => ?_
        rcases List.mem_cons.mp ready with rfl | ready
        · exact absurd since woken
        · exact ready
  | finishes task outer frames =>
    have calls := sound.outer
    rw [frames] at calls
    exact ⟨calls, nofun, fun _ => sound.sent (by simp [frames]), sound.queued, sound.refused⟩

theorem leaves_head (leaves : self.executor.leaves action = true) : self.executor.frames.head? = some .leaving := by
  cases action with
  | advance =>
    simp only [Executor.leaves] at leaves
    split at leaves
    next outer frames => simp [frames]
    next => cases leaves
  | _ => cases leaves

theorem idle_undisturbed (sound : self.Sound) : self.Idle action ↔ self.Undisturbed action := by
  refine forall_congr' fun leaves => ?_
  have head := leaves_head leaves
  have empty : self.executor.queue.tasks = [] := sound.left head
  have sent : self.executor.queue.receiver = self.history.late := sound.sent (by simp [head])
  rw [sent]
  constructor
  · rintro ⟨-, none, finished⟩
    exact ⟨none, fun task lost => finished task (sound.refused task lost)⟩
  · rintro ⟨none, finished⟩
    refine ⟨empty, none, ?_⟩
    intro task woken
    rcases sound.queued task woken with ready | received | lost
    · simp [empty] at ready
    · simp [sent, none] at received
    · exact finished task lost

/-- A call of `run` abandons no task that is woken, exactly where each wake before it leaves is an event's or drained
by one. -/
theorem idle_iff_undisturbed (actions : List Action) :
    Each step Idle start actions ↔ Each step Undisturbed start actions :=
  each_iff actions (fun _ _ sound _ => step_sound sound) (fun _ _ sound => idle_undisturbed sound) start_sound

/-- The only task wakes itself while it is polled, and the call returns with the wake in the channel. -/
theorem yielded_abandoned : ¬ Each step Idle start
    [.spawn, .run, .advance, .wake 0, .pending, .advance, .advance] := by
  rintro ⟨-, -, -, -, -, -, idle, -⟩
  exact absurd (idle rfl).2.1 (by decide)

end Exits

end Recorded

end Osaka.Executor
