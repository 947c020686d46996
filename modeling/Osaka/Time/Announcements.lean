import Osaka.Time.Simulation

set_option autoImplicit false

namespace Osaka.Time

variable {W : Type}

/-- What the host does at one instant: it moves there, takes the timestep, has the tasks polled
and asks for the next wakeup. -/
structure Visit (W : Type) where
  time : SimTime
  tasks : List (TaskStep W)

structure Host (W : Type) where
  sim : Simulation W
  -- announced by `next_wakeup`, and not reached since
  unvisited : List SimTime

namespace Simulation

def polled (self : Simulation W) (tasks : List (TaskStep W)) : Simulation W :=
  tasks.foldl task self

def ResetsAhead (self : Simulation W) : List (TaskStep W) → Prop
  | [] => True
  | .reset id deadline :: rest =>
    ((∃ entry ∈ self.driver.sleeps, entry.id = id) → self.now < deadline) ∧
      ResetsAhead (self.task (.reset id deadline)) rest
  | other :: rest => ResetsAhead (self.task other) rest

end Simulation

namespace Host

def start (now : SimTime) : Host W := { sim := Simulation.start now, unvisited := [] }

def woke (self : Host W) (time : SimTime) : Simulation W := (self.sim.setNow time).takeTimestep

def visit (self : Host W) (here : Visit W) : Host W :=
  let sim := (self.woke here.time).polled here.tasks
  { sim := sim.nextWakeup
    unvisited := self.unvisited.filter (fun time => time ≠ here.time) ++
      sim.driver.nextWakeup.1.toList }

/-- The host moves forward and skips no announced instant, and resets lie ahead. -/
structure Allowed (host : Host W) (next : Visit W) : Prop where
  forward : host.sim.now ≤ next.time
  noSkip : ∀ time ∈ host.unvisited, next.time ≤ time
  resets : (host.woke next.time).ResetsAhead next.tasks

def run (self : Host W) (visits : List (Visit W)) : Host W := visits.foldl visit self

def Disciplined (self : Host W) : List (Visit W) → Prop
  | [] => True
  | next :: rest => self.Allowed next ∧ Disciplined (self.visit next) rest

end Host

namespace Simulation

def Ahead (self : Simulation W) : Prop := ∀ entry ∈ self.driver.sleeps, self.now < entry.deadline

theorem task_emitted (self : Simulation W) (valid : self.driver.WellFormed) (taken : TaskStep W) :
    (self.task taken).driver.nextWakeupEmitted = self.driver.nextWakeupEmitted := by
  rcases self.task_driver taken with same | ⟨sleep, waker, _, registered⟩ | ⟨id, deadline, _, moved⟩
  · rw [same]
  · exact (TimeDriver.wakeSleeper_correct valid registered).2.1
  · rw [moved]
    rfl

theorem ResetsAhead.head {self : Simulation W} {taken : TaskStep W} {rest : List (TaskStep W)}
    (resets : self.ResetsAhead (taken :: rest)) :
    (∀ id deadline, taken = .reset id deadline →
      (∃ entry ∈ self.driver.sleeps, entry.id = id) → self.now < deadline) ∧
    (self.task taken).ResetsAhead rest := by
  cases taken with
  | reset id deadline =>
    refine ⟨fun other later same => ?_, resets.2⟩
    cases same
    exact resets.1
  | newTimeout deadline => exact ⟨fun _ _ same => by simp at same, resets⟩
  | poll id waker => exact ⟨fun _ _ same => by simp at same, resets⟩
  | drop id => exact ⟨fun _ _ same => by simp at same, resets⟩

theorem polled_correct (tasks : List (TaskStep W)) {self : Simulation W}
    (valid : self.driver.WellFormed) (ahead : self.Ahead) (resets : self.ResetsAhead tasks) :
    (self.polled tasks).driver.WellFormed ∧ (self.polled tasks).Ahead ∧
      (self.polled tasks).now = self.now ∧ (self.polled tasks).woken = self.woken ∧
      (self.polled tasks).driver.nextWakeupEmitted = self.driver.nextWakeupEmitted := by
  induction tasks generalizing self with
  | nil => exact ⟨valid, ahead, rfl, rfl, rfl⟩
  | cons taken rest ih =>
    obtain ⟨moves, later⟩ := resets.head
    have stillAhead : (self.task taken).Ahead := by
      intro entry stored
      rw [task_now]
      rcases task_entries valid taken stored with kept | new | ⟨deadline, same, at_, old⟩
      · exact ahead entry kept
      · exact new
      · exact at_ ▸ moves entry.id deadline same old
    obtain ⟨good, ahead', now, woken, emitted⟩ := ih (task_wellFormed valid taken) stillAhead later
    refine ⟨good, ahead', ?_, ?_, ?_⟩
    · exact now.trans (task_now self taken)
    · exact woken.trans (task_woken self taken)
    · exact emitted.trans (task_emitted self valid taken)

end Simulation

namespace Host

/-- After `next_wakeup`: what is registered lies ahead, the last announcement is either behind or
still to be visited, and so is the earliest deadline. -/
structure Announced (host : Host W) : Prop where
  valid : host.sim.driver.WellFormed
  ahead : host.sim.Ahead
  emitted : ∀ last, host.sim.driver.nextWakeupEmitted = some last →
    last ≤ host.sim.now ∨ last ∈ host.unvisited
  earliest : ∀ head, MaxHeap.peek host.sim.driver.sleeps = some head →
    head.deadline ∈ host.unvisited

theorem start_announced (now : SimTime) : (start now : Host W).Announced where
  valid := TimeDriver.new_wellFormed
  ahead := by simp [Simulation.Ahead, start, Simulation.start, TimeDriver.new]
  emitted := by simp [start, Simulation.start, TimeDriver.new]
  earliest := by simp [start, Simulation.start, TimeDriver.new, MaxHeap.peek]

theorem Announced.reaches {self : Host W} (announced : self.Announced) {next : Visit W}
    (allowed : self.Allowed next) : self.sim.driver.Current next.time := by
  intro entry stored
  cases peeked : MaxHeap.peek self.sim.driver.sleeps with
  | none => simp [TimeDriver.peek_none.mp peeked] at stored
  | some head =>
    have first := allowed.noSkip _ (announced.earliest head peeked)
    exact first.trans (announced.valid.peek_earliest peeked stored)

/-- `next_wakeup` announces the earliest deadline unless it is the one it announced last. -/
theorem nextWakeup_cases (driver : TimeDriver W) {head : Entry W}
    (peeked : MaxHeap.peek driver.sleeps = some head) :
    (driver.nextWakeupEmitted = some head.deadline ∧ driver.nextWakeup = (none, driver)) ∨
      driver.nextWakeup =
        (some head.deadline, { driver with nextWakeupEmitted := some head.deadline }) := by
  cases emitted : driver.nextWakeupEmitted with
  | none => exact Or.inr (by simp [TimeDriver.nextWakeup, peeked, emitted])
  | some last =>
    by_cases same : last = head.deadline
    · exact Or.inl ⟨by rw [same], by simp [TimeDriver.nextWakeup, peeked, emitted, same]⟩
    · exact Or.inr (by simp [TimeDriver.nextWakeup, peeked, emitted, same])

theorem nextWakeup_empty (driver : TimeDriver W) (none : MaxHeap.peek driver.sleeps = none) :
    driver.nextWakeup = (Option.none, driver) := by
  simp [TimeDriver.nextWakeup, none]

theorem polled_visit {host : Host W} (announced : host.Announced) {next : Visit W}
    (allowed : host.Allowed next) :
    ((host.woke next.time).polled next.tasks).driver.WellFormed ∧
      ((host.woke next.time).polled next.tasks).Ahead ∧
      ((host.woke next.time).polled next.tasks).now = next.time ∧
      ((host.woke next.time).polled next.tasks).woken = (host.woke next.time).woken ∧
      ((host.woke next.time).polled next.tasks).driver.nextWakeupEmitted =
        host.sim.driver.nextWakeupEmitted := by
  have current := announced.reaches allowed
  have ahead : (host.woke next.time).Ahead :=
    fun entry left => TimeDriver.takeTimestep_left announced.valid current left
  exact Simulation.polled_correct next.tasks (announced.valid.takeTimestep next.time) ahead
    allowed.resets

theorem visit_announced {host : Host W} (announced : host.Announced) {next : Visit W}
    (allowed : host.Allowed next) : (host.visit next).Announced := by
  obtain ⟨valid, ahead, now, _, emitted⟩ := polled_visit announced allowed
  have kept : ∀ last, host.sim.driver.nextWakeupEmitted = some last →
      last ≤ next.time ∨ last ∈ (host.visit next).unvisited := by
    intro last was
    rcases announced.emitted last was with behind | waiting
    · exact Or.inl (behind.trans allowed.forward)
    · by_cases reached : last = next.time
      · exact Or.inl reached.le
      · exact Or.inr (List.mem_append_left _ (List.mem_filter.mpr ⟨waiting, by simpa using reached⟩))
  have sleeps := TimeDriver.nextWakeup_sleeps ((host.woke next.time).polled next.tasks).driver
  have clock : (host.visit next).sim.now = next.time := now
  refine ⟨valid.nextWakeup, fun entry stored => ?_, fun last was => ?_, fun head peeked => ?_⟩
  · exact ahead entry (sleeps ▸ stored)
  · rw [clock]
    cases peeked : MaxHeap.peek ((host.woke next.time).polled next.tasks).driver.sleeps with
    | none =>
      refine kept last ?_
      rw [← emitted, ← was]
      simp [visit, Simulation.nextWakeup, nextWakeup_empty _ peeked]
    | some head =>
      rcases nextWakeup_cases _ peeked with ⟨_, silent⟩ | spoke
      · refine kept last ?_
        rw [← emitted, ← was]
        simp [visit, Simulation.nextWakeup, silent]
      · simp only [visit, Simulation.nextWakeup, spoke, Option.some.injEq] at was
        simp [visit, spoke, was]
  · change MaxHeap.peek ((host.woke next.time).polled next.tasks).driver.nextWakeup.2.sleeps = _ at peeked
    rw [sleeps] at peeked
    rcases nextWakeup_cases _ peeked with ⟨suppressed, _⟩ | spoke
    · have later := ahead head (TimeDriver.peek_mem peeked)
      rw [now] at later
      rw [emitted] at suppressed
      exact (kept head.deadline suppressed).resolve_left (not_le.mpr later)
    · simp [visit, spoke]

theorem run_announced (visits : List (Visit W)) {host : Host W} (announced : host.Announced)
    (disciplined : host.Disciplined visits) : (host.run visits).Announced := by
  induction visits generalizing host with
  | nil => exact announced
  | cons next rest ih => exact ih (visit_announced announced disciplined.1) disciplined.2

/-- Whatever has been woken was woken at exactly its deadline. -/
def WokenOnTime (host : Host W) : Prop := ∀ woken ∈ host.sim.woken, woken.2.deadline = woken.1

theorem visit_woken {host : Host W} (announced : host.Announced) {next : Visit W}
    (allowed : host.Allowed next) :
    (host.visit next).sim.woken = host.sim.woken ++
      (host.sim.driver.due next.time).map (fun entry => (next.time, entry)) :=
  (polled_visit announced allowed).2.2.2.1

theorem run_wokenOnTime (visits : List (Visit W)) {host : Host W} (announced : host.Announced)
    (disciplined : host.Disciplined visits) (onTime : host.WokenOnTime) :
    (host.run visits).WokenOnTime := by
  induction visits generalizing host with
  | nil => exact onTime
  | cons next rest ih =>
    refine ih (visit_announced announced disciplined.1) disciplined.2 (fun woken member => ?_)
    rw [visit_woken announced disciplined.1] at member
    rcases List.mem_append.mp member with old | new
    · exact onTime woken old
    · obtain ⟨entry, popped, rfl⟩ := List.mem_map.mp new
      exact TimeDriver.due_now announced.valid popped

theorem run_woken_mono (visits : List (Visit W)) {host : Host W} (announced : host.Announced)
    (disciplined : host.Disciplined visits) {woken : SimTime × Entry W}
    (member : woken ∈ host.sim.woken) : woken ∈ (host.run visits).sim.woken := by
  induction visits generalizing host with
  | nil => exact member
  | cons next rest ih =>
    refine ih (visit_announced announced disciplined.1) disciplined.2 ?_
    rw [visit_woken announced disciplined.1]
    exact List.mem_append_left _ member

theorem task_keeps {sim : Simulation W} (valid : sim.driver.WellFormed) {taken : TaskStep W}
    {entry : Entry W} (notReset : ∀ deadline, taken ≠ .reset entry.id deadline)
    (stored : entry ∈ sim.driver.sleeps) : entry ∈ (sim.task taken).driver.sleeps := by
  rcases sim.task_driver taken with same | ⟨sleep, waker, _, registered⟩ | ⟨id, deadline, rfl, moved⟩
  · rwa [same]
  · exact ((TimeDriver.wakeSleeper_correct valid registered).2.2 entry).mpr (Or.inl stored)
  · rw [moved]
    refine ((TimeDriver.resetSleeper_correct valid id deadline).2 entry).mpr ⟨entry, stored, ?_⟩
    have other : entry.id ≠ id := fun same => notReset deadline (by rw [same])
    simp [TimeDriver.rescheduled, other]

theorem polled_keeps (tasks : List (TaskStep W)) {sim : Simulation W} (valid : sim.driver.WellFormed)
    {entry : Entry W} (notReset : ∀ deadline, .reset entry.id deadline ∉ tasks)
    (stored : entry ∈ sim.driver.sleeps) : entry ∈ (sim.polled tasks).driver.sleeps := by
  induction tasks generalizing sim with
  | nil => exact stored
  | cons taken rest ih =>
    refine ih (Simulation.task_wellFormed valid taken)
      (fun deadline member => notReset deadline (List.mem_cons_of_mem _ member))
      (task_keeps valid (fun deadline same => ?_) stored)
    exact notReset deadline (by simp [same])

/-- A registered sleep that no task resets stays registered until the visit at its deadline. -/
theorem run_sleeper (visits : List (Visit W)) {host : Host W} (announced : host.Announced)
    (disciplined : host.Disciplined visits) {entry : Entry W}
    (notReset : ∀ visit ∈ visits, ∀ deadline, .reset entry.id deadline ∉ visit.tasks)
    (stored : entry ∈ host.sim.driver.sleeps) :
    entry ∈ (host.run visits).sim.driver.sleeps ∨
      (entry.deadline, entry) ∈ (host.run visits).sim.woken := by
  induction visits generalizing host with
  | nil => exact Or.inl stored
  | cons next rest ih =>
    have later := visit_announced announced disciplined.1
    have current := announced.reaches disciplined.1
    obtain ⟨popped, left⟩ := TimeDriver.takeTimestep_mem announced.valid current entry
    rcases (current entry stored).eq_or_lt with reached | ahead
    · refine Or.inr (run_woken_mono rest later disciplined.2 ?_)
      rw [visit_woken announced disciplined.1, ← reached]
      refine List.mem_append_right _ (List.mem_map.mpr ⟨entry, ?_, rfl⟩)
      exact popped.mpr ⟨stored, reached.symm⟩
    · refine ih later disciplined.2 (fun visit member => notReset visit (List.mem_cons_of_mem _ member)) ?_
      change entry ∈ ((host.woke next.time).polled next.tasks).driver.nextWakeup.2.sleeps
      rw [TimeDriver.nextWakeup_sleeps]
      exact polled_keeps next.tasks (announced.valid.takeTimestep next.time)
        (notReset next (by simp)) (left.mpr ⟨stored, ahead⟩)

theorem announcement_complete (now : SimTime) (visits later : List (Visit W))
    (disciplined : (start now).Disciplined visits)
    (onward : ((start now).run visits).Disciplined later) :
    (∀ entry ∈ ((start now).run visits).sim.driver.sleeps,
      (∀ other ∈ ((start now).run visits).sim.driver.sleeps, entry.deadline ≤ other.deadline) →
        entry.deadline ∈ ((start now).run visits).unvisited) ∧
    (∀ entry ∈ ((start now).run visits).sim.driver.sleeps,
      ((start now).run visits).sim.now < entry.deadline ∧
        ∀ next, ((start now).run visits).Allowed next → next.time ≤ entry.deadline) ∧
    (∀ woken ∈ ((start now).run visits).sim.woken, woken.2.deadline = woken.1) ∧
    ∀ entry ∈ ((start now).run visits).sim.driver.sleeps,
      (∀ visit ∈ later, ∀ deadline, .reset entry.id deadline ∉ visit.tasks) →
        (entry ∈ (((start now).run visits).run later).sim.driver.sleeps ∧
          (((start now).run visits).run later).sim.now < entry.deadline) ∨
        (entry.deadline, entry) ∈ (((start now).run visits).run later).sim.woken := by
  have announced := run_announced visits (start_announced now) disciplined
  refine ⟨fun entry stored least => ?_, fun entry stored => ⟨announced.ahead entry stored, ?_⟩, ?_, ?_⟩
  · cases peeked : MaxHeap.peek ((start now).run visits).sim.driver.sleeps with
    | none => simp [TimeDriver.peek_none.mp peeked] at stored
    | some head =>
      have same := le_antisymm (announced.valid.peek_earliest peeked stored)
        (least head (TimeDriver.peek_mem peeked))
      exact same ▸ announced.earliest head peeked
  · exact fun next allowed => announced.reaches allowed entry stored
  · refine run_wokenOnTime visits (start_announced now) disciplined ?_
    simp [WokenOnTime, start, Simulation.start]
  · intro entry stored notReset
    refine (run_sleeper later announced onward notReset stored).imp_left (fun remains => ⟨remains, ?_⟩)
    exact (run_announced later announced onward).ahead entry remains

-- One task sleeps for 10 nanoseconds, and the host comes back when it was told to.
theorem announcement_complete_sleep :
    let asleep : Visit Unit := ⟨.ofNanos 0, [.newTimeout (.ofNanos 10), .poll 0 ()]⟩
    let awake : Visit Unit := ⟨.ofNanos 10, []⟩
    (SimTime.ofNanos 10, ⟨.ofNanos 10, (), 0⟩) ∈
      (((start (.ofNanos 0)).run [asleep]).run [awake]).sim.woken := by
  intro asleep awake
  have disciplined : (start (.ofNanos 0)).Disciplined [asleep] :=
    ⟨⟨le_rfl, by simp [start], trivial⟩, trivial⟩
  have onward : ((start (.ofNanos 0)).run [asleep]).Disciplined [awake] :=
    ⟨⟨by decide, by decide, trivial⟩, trivial⟩
  obtain ⟨_, _, _, woken⟩ := announcement_complete (.ofNanos 0) [asleep] [awake] disciplined onward
  refine (woken ⟨.ofNanos 10, (), 0⟩ (by decide) (by simp [awake])).resolve_left (fun asleepStill => ?_)
  exact absurd asleepStill.1 (by decide)

end Host

end Osaka.Time
