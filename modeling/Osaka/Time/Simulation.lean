import Mathlib.Logic.Function.Basic
import Osaka.Time.Driver

set_option autoImplicit false

namespace Osaka.Time

variable {W : Type}

def Sleep.poll (now : SimTime) (driver : TimeDriver W) (self : Sleep) (waker : W) :
    Option (Poll Unit × TimeDriver W) :=
  match compare self.deadline now with
  | .gt => (driver.wakeSleeper now self waker).map (fun registered => (.pending, registered))
  | .eq => some (.ready (), driver)
  | .lt => some (.ready (), driver)

theorem Sleep.poll_reached {now : SimTime} (self : Sleep) (driver : TimeDriver W) (waker : W)
    (reached : self.deadline ≤ now) : self.poll now driver waker = some (.ready (), driver) := by
  rcases reached.lt_or_eq with before | same
  · simp [Sleep.poll, compare_lt_iff_lt.mpr before]
  · simp [Sleep.poll, compare_eq_iff_eq.mpr same]

theorem Sleep.poll_ahead {now : SimTime} (self : Sleep) (driver : TimeDriver W) (waker : W)
    (ahead : now < self.deadline) :
    ∃ registered, driver.wakeSleeper now self waker = some registered ∧
      self.poll now driver waker = some (.pending, registered) := by
  have registers : ∃ registered, driver.wakeSleeper now self waker = some registered := by
    unfold TimeDriver.wakeSleeper
    rw [if_pos ahead.le]
    split
    next => exact ⟨_, rfl⟩
    next => exact ⟨_, rfl⟩
  obtain ⟨registered, registers⟩ := registers
  exact ⟨registered, registers, by simp [Sleep.poll, compare_gt_iff_gt.mpr ahead, registers]⟩

def Sleep.reset (driver : TimeDriver W) (self : Sleep) (deadline : SimTime) : Sleep × TimeDriver W :=
  ({ self with deadline := deadline }, driver.resetSleeper self.id deadline)

/-- One driver, the clock and the sleeps alive, with what has been woken and announced so far. -/
structure Simulation (W : Type) where
  now : SimTime
  driver : TimeDriver W
  -- the deadline each sleep alive holds, by its id
  sleeps : Nat → Option SimTime
  nextId : Nat
  woken : List (SimTime × Entry W)
  announced : List SimTime

/-- What the future of a task does to its sleeps while it is polled. -/
inductive TaskStep (W : Type) where
  | newTimeout (deadline : SimTime)
  | poll (id : Nat) (waker : W)
  | reset (id : Nat) (deadline : SimTime)
  | drop (id : Nat)

inductive Step (W : Type) where
  | setNow (time : SimTime)
  | takeTimestep
  | task (step : TaskStep W)
  | nextWakeup

namespace Simulation

def start (now : SimTime) : Simulation W :=
  { now := now
    driver := TimeDriver.new
    sleeps := fun _ => none
    nextId := 0
    woken := []
    announced := [] }

def setNow (self : Simulation W) (time : SimTime) : Simulation W := { self with now := time }

def takeTimestep (self : Simulation W) : Simulation W :=
  { self with
    driver := (self.driver.takeTimestep self.now).2
    woken := self.woken ++ (self.driver.due self.now).map (fun entry => (self.now, entry)) }

def nextWakeup (self : Simulation W) : Simulation W :=
  { self with
    driver := self.driver.nextWakeup.2
    announced := self.announced ++ self.driver.nextWakeup.1.toList }

def task (self : Simulation W) : TaskStep W → Simulation W
  | .newTimeout deadline =>
    { self with
      sleeps := Function.update self.sleeps self.nextId (some deadline)
      nextId := self.nextId + 1 }
  | .poll id waker =>
    match self.sleeps id with
    | none => self
    | some deadline =>
      match (Sleep.mk deadline id).poll self.now self.driver waker with
      | none => self
      | some (_, driver) => { self with driver := driver }
  | .reset id deadline =>
    match self.sleeps id with
    | none => self
    | some old =>
      let (sleep, driver) := (Sleep.mk old id).reset self.driver deadline
      { self with sleeps := Function.update self.sleeps id (some sleep.deadline), driver := driver }
  | .drop id => { self with sleeps := Function.update self.sleeps id none }

def step (self : Simulation W) : Step W → Simulation W
  | .setNow time => self.setNow time
  | .takeTimestep => self.takeTimestep
  | .task step => self.task step
  | .nextWakeup => self.nextWakeup

-- The states in which a run is about to take a timestep.
def timesteps (self : Simulation W) : List (Step W) → List (Simulation W)
  | [] => []
  | .takeTimestep :: rest => self :: timesteps self.takeTimestep rest
  | other :: rest => timesteps (self.step other) rest

def Forward (self : Simulation W) : List (Step W) → Prop
  | [] => True
  | .setNow time :: rest => self.now ≤ time ∧ Forward (self.setNow time) rest
  | other :: rest => Forward (self.step other) rest

/-- Every sleep that has reached its deadline is woken and leaves the heap, nothing stale stays
behind, and what is announced next lies ahead. -/
def TimestepExact (self : Simulation W) : Prop :=
  (∀ entry ∈ self.driver.sleeps, entry.deadline ≤ self.now →
    entry ∈ self.driver.due self.now ∧ entry ∉ self.takeTimestep.driver.sleeps) ∧
  (∀ entry ∈ self.takeTimestep.driver.sleeps, self.now < entry.deadline) ∧
  ∀ time, self.takeTimestep.driver.nextWakeup.1 = some time → self.now < time

theorem nextWakeup_stored {driver : TimeDriver W} {time : SimTime}
    (announced : driver.nextWakeup.1 = some time) : ∃ entry ∈ driver.sleeps, entry.deadline = time := by
  cases peeked : MaxHeap.peek driver.sleeps with
  | none => simp [TimeDriver.nextWakeup, peeked] at announced
  | some head =>
    refine ⟨head, TimeDriver.peek_mem peeked, ?_⟩
    cases emitted : driver.nextWakeupEmitted with
    | none => simpa [TimeDriver.nextWakeup, peeked, emitted] using announced
    | some last =>
      by_cases same : last = head.deadline <;>
        simp [TimeDriver.nextWakeup, peeked, emitted, same] at announced
      exact announced

theorem timestepExact_iff {self : Simulation W} (valid : self.driver.WellFormed) :
    self.TimestepExact ↔ self.driver.Current self.now := by
  constructor
  · rintro ⟨gone, _, _⟩ entry stored
    by_contra past
    obtain ⟨popped, _⟩ := gone entry stored (not_le.mp past).le
    simp [(TimeDriver.takeTimestep_stale valid stored (not_le.mp past)).1] at popped
  · intro current
    have left := fun entry => (TimeDriver.takeTimestep_mem valid current entry).2
    have ahead : ∀ entry ∈ self.takeTimestep.driver.sleeps, self.now < entry.deadline :=
      fun entry stays => ((left entry).mp stays).2
    refine ⟨fun entry stored reached => ⟨?_, fun stays => ?_⟩, ahead, fun time announced => ?_⟩
    · have atNow := le_antisymm reached (current entry stored)
      exact (TimeDriver.takeTimestep_mem valid current entry).1.mpr ⟨stored, atNow⟩
    · exact absurd (ahead entry stays) (not_lt.mpr reached)
    · obtain ⟨entry, stays, rfl⟩ := nextWakeup_stored announced
      exact ahead entry stays

/-- What a task can do to the heap: nothing, register one sleep that lies ahead, or move one. -/
theorem task_driver (self : Simulation W) (taken : TaskStep W) :
    (self.task taken).driver = self.driver ∨
      (∃ sleep waker, self.now < sleep.deadline ∧
        self.driver.wakeSleeper self.now sleep waker = some (self.task taken).driver) ∨
      ∃ id deadline, taken = .reset id deadline ∧
        (self.task taken).driver = self.driver.resetSleeper id deadline := by
  cases taken with
  | newTimeout deadline => exact Or.inl rfl
  | drop id => exact Or.inl rfl
  | reset id deadline =>
    cases alive : self.sleeps id with
    | none => exact Or.inl (by simp [task, alive])
    | some old => exact Or.inr (Or.inr ⟨id, deadline, rfl, by simp [task, alive, Sleep.reset]⟩)
  | poll id waker =>
    cases alive : self.sleeps id with
    | none => exact Or.inl (by simp [task, alive])
    | some deadline =>
      rcases le_or_gt deadline self.now with reached | ahead
      · have ready := Sleep.poll_reached ⟨deadline, id⟩ self.driver waker reached
        exact Or.inl (by simp [task, alive, ready])
      · obtain ⟨registered, registers, polled⟩ := Sleep.poll_ahead ⟨deadline, id⟩ self.driver waker ahead
        refine Or.inr (Or.inl ⟨⟨deadline, id⟩, waker, ahead, ?_⟩)
        simp [task, alive, polled, registers]

@[simp]
theorem task_now (self : Simulation W) (taken : TaskStep W) : (self.task taken).now = self.now := by
  cases taken <;> simp only [task] <;> (repeat' split) <;> rfl

@[simp]
theorem task_woken (self : Simulation W) (taken : TaskStep W) :
    (self.task taken).woken = self.woken := by
  cases taken <;> simp only [task] <;> (repeat' split) <;> rfl

theorem task_wellFormed {self : Simulation W} (valid : self.driver.WellFormed) (taken : TaskStep W) :
    (self.task taken).driver.WellFormed := by
  rcases self.task_driver taken with same | ⟨sleep, waker, _, registered⟩ | ⟨id, deadline, _, moved⟩
  · rw [same]
    exact valid
  · exact (TimeDriver.wakeSleeper_correct valid registered).1
  · rw [moved]
    exact (TimeDriver.resetSleeper_correct valid id deadline).1

theorem task_entries {self : Simulation W} (valid : self.driver.WellFormed) (taken : TaskStep W)
    {entry : Entry W} (stored : entry ∈ (self.task taken).driver.sleeps) :
    entry ∈ self.driver.sleeps ∨ self.now < entry.deadline ∨
      ∃ deadline, taken = .reset entry.id deadline ∧ entry.deadline = deadline ∧
        ∃ old ∈ self.driver.sleeps, old.id = entry.id := by
  rcases self.task_driver taken with same | ⟨sleep, waker, ahead, registered⟩ | ⟨id, deadline, rfl, moved⟩
  · exact Or.inl (same ▸ stored)
  · rcases ((TimeDriver.wakeSleeper_correct valid registered).2.2 entry).mp stored with kept | ⟨_, rfl⟩
    · exact Or.inl kept
    · exact Or.inr (Or.inl ahead)
  · rw [moved] at stored
    obtain ⟨old, kept, rfl⟩ :=
      ((TimeDriver.resetSleeper_correct valid id deadline).2 entry).mp stored
    by_cases hit : old.id = id
    · refine Or.inr (Or.inr ⟨deadline, ?_, ?_, old, kept, ?_⟩) <;>
        simp [TimeDriver.rescheduled, hit]
    · exact Or.inl (by simpa [TimeDriver.rescheduled, hit] using kept)

theorem step_wellFormed {self : Simulation W} (valid : self.driver.WellFormed) (taken : Step W) :
    (self.step taken).driver.WellFormed := by
  cases taken with
  | setNow time => exact valid
  | takeTimestep => exact valid.takeTimestep self.now
  | task step => exact task_wellFormed valid step
  | nextWakeup => exact valid.nextWakeup

theorem timesteps_wellFormed (steps : List (Step W)) {self : Simulation W}
    (valid : self.driver.WellFormed) : ∀ s ∈ self.timesteps steps, s.driver.WellFormed := by
  induction steps generalizing self with
  | nil => simp [timesteps]
  | cons taken rest ih =>
    have later := ih (step_wellFormed valid taken)
    cases taken with
    | takeTimestep =>
      intro s member
      rcases List.mem_cons.mp member with rfl | member
      · exact valid
      · exact later s member
    | setNow time => exact later
    | task step => exact later
    | nextWakeup => exact later

/-- The clock does not pass a registered deadline, and no registered sleep is reset to the past. -/
def Punctual (self : Simulation W) : Step W → Prop
  | .setNow time => ∀ entry ∈ self.driver.sleeps, time ≤ entry.deadline
  | .task (.reset id deadline) => (∃ entry ∈ self.driver.sleeps, entry.id = id) → self.now ≤ deadline
  | _ => True

theorem step_current {self : Simulation W} (valid : self.driver.WellFormed)
    (current : self.driver.Current self.now) (taken : Step W) (punctual : self.Punctual taken) :
    (self.step taken).driver.Current (self.step taken).now := by
  cases taken with
  | setNow time => exact punctual
  | takeTimestep =>
    intro entry left
    exact (TimeDriver.takeTimestep_left valid current left).le
  | nextWakeup =>
    intro entry stored
    refine current entry ?_
    rwa [← TimeDriver.nextWakeup_sleeps]
  | task taken =>
    intro entry stored
    change (self.task taken).now ≤ entry.deadline
    rw [task_now]
    rcases task_entries valid taken stored with kept | ahead | ⟨deadline, rfl, same, old⟩
    · exact current entry kept
    · exact ahead.le
    · exact same ▸ punctual old

theorem timestep_exact_iff_current (now : SimTime) (steps : List (Step W)) :
    (∀ s ∈ (start now).timesteps steps, s.TimestepExact) ↔
      ∀ s ∈ (start now).timesteps steps, s.driver.Current s.now := by
  have valid : (start now : Simulation W).driver.WellFormed := TimeDriver.new_wellFormed
  have valids := timesteps_wellFormed steps valid
  exact forall₂_congr (fun s member => timestepExact_iff (valids s member))

def jumped : List (Step Unit) :=
  [.task (.newTimeout (.ofNanos 10)), .task (.poll 0 ()),
    .task (.newTimeout (.ofNanos 20)), .task (.poll 1 ()),
    .setNow (.ofNanos 20), .takeTimestep]

theorem stale_head_blocks :
    ¬ ∀ (now : SimTime) (steps : List (Step Unit)), (start now).Forward steps →
      ∀ s ∈ (start now).timesteps steps, s.TimestepExact := by
  intro exact
  have last := exact (.ofNanos 0) jumped ⟨by decide, trivial⟩ _ (List.mem_singleton.mpr rfl)
  have late := last.2.1 ⟨.ofNanos 10, (), 0⟩ (by decide)
  exact absurd late (by decide)

end Simulation

end Osaka.Time
