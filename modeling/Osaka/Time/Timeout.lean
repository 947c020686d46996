import Osaka.Time.Registrations
import Osaka.Time.Announcements

set_option autoImplicit false

namespace Osaka.Time

/-- One poll of a future: its answer and what is left of it, what it does to sleeps, and whom it wakes. -/
structure Polling (F V W : Type) where
  answer : Poll V
  left : F
  steps : List (TaskStep W)
  wakes : List W

abbrev Future (F V W : Type) := Simulation W → F → W → Polling F V W

structure Elapsed where
  deriving DecidableEq

structure Timeout (F : Type) where
  value : F
  delay : Sleep

variable {F V W : Type}

/-- `SimTime::now().checked_add(duration)`, or else the deadline of `Sleep::far_future`. -/
def deadlineAfter (now : SimTime) (duration : Duration) : SimTime :=
  match now.checkedAdd duration with
  | some deadline => deadline
  | none => SimTime.max

def timeout (self : Simulation W) (duration : Duration) (future : F) : Timeout F × Simulation W :=
  let deadline := deadlineAfter self.now duration
  ({ value := future, delay := ⟨deadline, self.nextId⟩ }, self.task (.newTimeout deadline))

-- `none` is a failed assertion of the driver.
def Timeout.poll (future : Future F V W) (self : Timeout F) (sim : Simulation W) (waker : W) :
    Option (Poll (Except Elapsed V) × Timeout F × Simulation W) :=
  let polled := future sim self.value waker
  let after := sim.polled polled.steps
  match polled.answer with
  | .ready value => some (.ready (.ok value), { self with value := polled.left }, after)
  | .pending =>
    match self.delay.poll after.now after.driver waker with
    | none => none
    | some (.ready (), driver) =>
      some (.ready (.error {}), { self with value := polled.left }, { after with driver := driver })
    | some (.pending, driver) => some (.pending, { self with value := polled.left }, { after with driver := driver })

theorem deadlineAfter_le (now : SimTime) (duration : Duration) : now ≤ deadlineAfter now duration := by
  unfold deadlineAfter
  cases sum : now.checkedAdd duration with
  | none => exact SimTime.le_max now
  | some deadline =>
    unfold SimTime.checkedAdd Duration.checkedAdd at sum
    split at sum
    next =>
      simp only [Option.map_some, Option.some.injEq] at sum
      subst sum
      exact Nat.le_add_right _ _
    next => simp at sum

def TaskStep.Names (id : Nat) : TaskStep W → Prop
  | .newTimeout _ => False
  | .poll other _ => other = id
  | .reset other _ => other = id
  | .drop other => other = id

namespace Simulation

section Apart

variable {self : Simulation W} {id : Nat}

theorem polled_append (self : Simulation W) (first second : List (TaskStep W)) :
    self.polled (first ++ second) = (self.polled first).polled second :=
  List.foldl_append

theorem polled_now (steps : List (TaskStep W)) (self : Simulation W) : (self.polled steps).now = self.now := by
  induction steps generalizing self with
  | nil => rfl
  | cons taken rest ih => exact (ih (self.task taken)).trans (task_now self taken)

theorem polled_wellFormed (steps : List (TaskStep W)) (valid : self.driver.WellFormed) :
    (self.polled steps).driver.WellFormed := by
  induction steps generalizing self with
  | nil => exact valid
  | cons taken rest ih => exact ih (task_wellFormed valid taken)

theorem resetsAhead_append (self : Simulation W) (first second : List (TaskStep W)) :
    self.ResetsAhead (first ++ second) ↔ self.ResetsAhead first ∧ (self.polled first).ResetsAhead second := by
  induction first generalizing self with
  | nil => simp [ResetsAhead, polled]
  | cons taken rest ih =>
    have later := ih (self.task taken)
    cases taken with
    | reset other deadline =>
      simp only [List.cons_append, ResetsAhead, later, and_assoc]
      rfl
    | newTimeout deadline => exact later
    | poll other waker => exact later
    | drop other => exact later

theorem task_apart (valid : self.driver.WellFormed) {taken : TaskStep W} (apart : ¬taken.Names id)
    (born : id < self.nextId) :
    (self.task taken).sleeps id = self.sleeps id ∧ id < (self.task taken).nextId ∧
      ∀ entry, entry.id = id → (entry ∈ (self.task taken).driver.sleeps ↔ entry ∈ self.driver.sleeps) := by
  cases taken with
  | newTimeout deadline =>
    refine ⟨?_, Nat.lt_succ_of_lt born, fun _ _ => Iff.rfl⟩
    simp [task, born.ne]
  | drop other =>
    have other : id ≠ other := fun same => apart same.symm
    exact ⟨by simp [task, other], born, fun _ _ => Iff.rfl⟩
  | reset other deadline =>
    have differs : id ≠ other := fun same => apart same.symm
    cases alive : self.sleeps other with
    | none => simp [task, alive, born]
    | some old =>
      refine ⟨by simp [task, alive, differs], by simpa [task, alive] using born, ?_⟩
      intro entry same
      have moved : (self.task (.reset other deadline)).driver = self.driver.resetSleeper other deadline := by
        simp [task, alive, Sleep.reset]
      rw [moved, (TimeDriver.resetSleeper_correct valid other deadline).2]
      constructor
      · rintro ⟨before, stored, rfl⟩
        rw [TimeDriver.rescheduled_id] at same
        have kept : before.id ≠ other := same ▸ differs
        simpa [TimeDriver.rescheduled, kept] using stored
      · intro stored
        have kept : entry.id ≠ other := same ▸ differs
        exact ⟨entry, stored, by simp [TimeDriver.rescheduled, kept]⟩
  | poll other waker =>
    have differs : id ≠ other := fun same => apart same.symm
    cases alive : self.sleeps other with
    | none => simp [task, alive, born]
    | some deadline =>
      rcases le_or_gt deadline self.now with reached | ahead
      · have ready := Sleep.poll_reached ⟨deadline, other⟩ self.driver waker reached
        simp [task, alive, ready, born]
      · obtain ⟨registered, registers, polled⟩ := Sleep.poll_ahead ⟨deadline, other⟩ self.driver waker ahead
        refine ⟨by simp [task, alive, polled], by simpa [task, alive, polled] using born, ?_⟩
        intro entry same
        have driver : (self.task (.poll other waker)).driver = registered := by simp [task, alive, polled]
        rw [driver, (TimeDriver.wakeSleeper_correct valid registers).2.2]
        constructor
        · rintro (stored | ⟨_, rfl⟩)
          · exact stored
          · exact absurd same.symm differs
        · exact Or.inl

theorem polled_apart (steps : List (TaskStep W)) (valid : self.driver.WellFormed)
    (apart : ∀ taken ∈ steps, ¬taken.Names id) (born : id < self.nextId) :
    (self.polled steps).sleeps id = self.sleeps id ∧ id < (self.polled steps).nextId ∧
      ∀ entry, entry.id = id → (entry ∈ (self.polled steps).driver.sleeps ↔ entry ∈ self.driver.sleeps) := by
  induction steps generalizing self with
  | nil => exact ⟨rfl, born, fun _ _ => Iff.rfl⟩
  | cons taken rest ih =>
    obtain ⟨sleeps, born, entries⟩ := task_apart valid (apart taken List.mem_cons_self) born
    obtain ⟨later, born, others⟩ :=
      ih (task_wellFormed valid taken) (fun other member => apart other (List.mem_cons_of_mem _ member)) born
    exact ⟨later.trans sleeps, born, fun entry same => (others entry same).trans (entries entry same)⟩

end Apart

end Simulation

namespace Timeout

variable {future : Future F V W} {self : Timeout F} {sim : Simulation W} {waker : W}

theorem poll_value {value : V} (ready : (future sim self.value waker).answer = .ready value) :
    self.poll future sim waker = some (.ready (.ok value), { self with value := (future sim self.value waker).left },
      sim.polled (future sim self.value waker).steps) := by
  simp [poll, ready]

theorem poll_elapsed (pending : (future sim self.value waker).answer = .pending)
    (reached : self.delay.deadline ≤ sim.now) :
    self.poll future sim waker = some (.ready (.error {}), { self with value := (future sim self.value waker).left },
      sim.polled (future sim self.value waker).steps) := by
  rw [← Simulation.polled_now (future sim self.value waker).steps] at reached
  have ready := self.delay.poll_reached (sim.polled (future sim self.value waker).steps).driver waker reached
  simp [poll, pending, ready]

theorem poll_waits (pending : (future sim self.value waker).answer = .pending) (ahead : sim.now < self.delay.deadline)
    (alive : (sim.polled (future sim self.value waker).steps).sleeps self.delay.id = some self.delay.deadline) :
    self.poll future sim waker = some (.pending, { self with value := (future sim self.value waker).left },
      sim.polled ((future sim self.value waker).steps ++ [.poll self.delay.id waker])) := by
  rw [← Simulation.polled_now (future sim self.value waker).steps] at ahead
  obtain ⟨registered, _, waits⟩ :=
    self.delay.poll_ahead (sim.polled (future sim self.value waker).steps).driver waker ahead
  have last : (sim.polled (future sim self.value waker).steps).task (.poll self.delay.id waker) =
      { sim.polled (future sim self.value waker).steps with driver := registered } := by
    simp [Simulation.task, alive, waits]
  rw [Simulation.polled_append, poll]
  simp only [pending, waits]
  rw [← last]
  rfl

end Timeout

end Osaka.Time
