import Osaka.Shared.Traces
import Osaka.Time.Simulation

set_option autoImplicit false

namespace Osaka.Time

variable {W : Type}

/-- What a poll of the sleep `id` answers; nothing if there is no such sleep. -/
def Simulation.answer (self : Simulation W) (id : Nat) (waker : W) : Option (Poll Unit) :=
  match self.sleeps id with
  | none => none
  | some deadline => ((Sleep.mk deadline id).poll self.now self.driver waker).map Prod.fst

structure Polled (W : Type) where
  sim : Simulation W
  -- the last poll of the sleep returned Pending, and no timestep has woken it since
  waiting : Nat → Bool
  -- the waker of its most recent Pending poll
  latest : Nat → Option W

namespace Polled

def start (now : SimTime) : Polled W :=
  { sim := Simulation.start now
    waiting := fun _ => false
    latest := fun _ => none }

def note (self : Polled W) : Step W → Polled W
  | .takeTimestep =>
    { self with
      waiting := fun id => self.waiting id && !(self.sim.driver.due self.sim.now).any (fun entry => entry.id == id) }
  | .task (.poll id waker) =>
    match self.sim.answer id waker with
    | some .pending =>
      { self with
        waiting := Function.update self.waiting id true
        latest := Function.update self.latest id (some waker) }
    | some (.ready ()) => { self with waiting := Function.update self.waiting id false }
    | none => self
  | _ => self

def step (self : Polled W) (taken : Step W) : Polled W :=
  { self.note taken with sim := self.sim.step taken }

def states (self : Polled W) : List (Step W) → List (Polled W)
  | [] => [self]
  | taken :: rest => self :: states (self.step taken) rest

def Each (meets : Polled W → Step W → Prop) (self : Polled W) : List (Step W) → Prop
  | [] => True
  | taken :: rest => meets self taken ∧ Each meets (self.step taken) rest

def Registered (self : Polled W) (id : Nat) : Prop := ∃ entry ∈ self.sim.driver.sleeps, entry.id = id

structure Sound (polled : Polled W) : Prop where
  valid : polled.sim.driver.WellFormed
  fresh : ∀ id, polled.sim.nextId ≤ id → polled.sim.sleeps id = none ∧ ¬polled.Registered id
  deadline : ∀ entry ∈ polled.sim.driver.sleeps, ∀ deadline, polled.sim.sleeps entry.id = some deadline →
    deadline = entry.deadline
  waiting : ∀ id, polled.waiting id = true → polled.Registered id

section Polls

variable {self : Polled W} {id : Nat} {deadline : SimTime} {waker : W}

theorem step_dead (dead : self.sim.sleeps id = none) : self.step (.task (.poll id waker)) = self := by
  simp [step, note, Simulation.answer, Simulation.step, Simulation.task, dead]

theorem step_ready (alive : self.sim.sleeps id = some deadline) (reached : deadline ≤ self.sim.now) :
    self.step (.task (.poll id waker)) = { self with waiting := Function.update self.waiting id false } := by
  have answers := Sleep.poll_reached ⟨deadline, id⟩ self.sim.driver waker reached
  simp [step, note, Simulation.answer, Simulation.step, Simulation.task, alive, answers]

/-- A poll before the deadline registers the sleep, unless it is registered already. -/
theorem step_pending (waker : W) (valid : self.sim.driver.WellFormed) (alive : self.sim.sleeps id = some deadline)
    (ahead : self.sim.now < deadline) : ∃ driver : TimeDriver W,
      self.step (.task (.poll id waker)) =
        { sim := { self.sim with driver := driver }
          waiting := Function.update self.waiting id true
          latest := Function.update self.latest id (some waker) } ∧
      driver.WellFormed ∧
      ∀ entry, entry ∈ driver.sleeps ↔ entry ∈ self.sim.driver.sleeps ∨
        ¬self.Registered id ∧ entry = ⟨deadline, waker, id⟩ := by
  obtain ⟨driver, registers, answers⟩ := Sleep.poll_ahead ⟨deadline, id⟩ self.sim.driver waker ahead
  obtain ⟨valid', _, entries⟩ := TimeDriver.wakeSleeper_correct valid registers
  refine ⟨driver, ?_, valid', ?_⟩
  · simp [step, note, Simulation.answer, Simulation.step, Simulation.task, alive, answers]
  · intro entry
    rw [entries, Registered]
    simp only [ne_eq, not_exists, not_and]

end Polls

section Steps

variable {self : Polled W} {id : Nat} {deadline : SimTime} {entry : Entry W}

theorem step_newTimeout : self.step (.task (.newTimeout deadline)) =
    { self with
      sim := { self.sim with
        sleeps := Function.update self.sim.sleeps self.sim.nextId (some deadline)
        nextId := self.sim.nextId + 1 } } := rfl

theorem step_drop : self.step (.task (.drop id)) =
    { self with sim := { self.sim with sleeps := Function.update self.sim.sleeps id none } } := rfl

theorem step_reset_dead (dead : self.sim.sleeps id = none) : self.step (.task (.reset id deadline)) = self := by
  simp [step, note, Simulation.step, Simulation.task, dead]

theorem step_reset {old : SimTime} (alive : self.sim.sleeps id = some old) :
    self.step (.task (.reset id deadline)) =
      { self with
        sim := { self.sim with
          sleeps := Function.update self.sim.sleeps id (some deadline)
          driver := self.sim.driver.resetSleeper id deadline } } := by
  simp [step, note, Simulation.step, Simulation.task, alive, Sleep.reset]

/-- A timestep leaves the entries that it does not wake. -/
theorem step_takeTimestep (sound : self.Sound) (left : entry ∈ (self.step .takeTimestep).sim.driver.sleeps) :
    entry ∈ self.sim.driver.sleeps ∧
      ¬(self.sim.driver.due self.sim.now).any (fun other => other.id == entry.id) = true := by
  have perm := TimeDriver.takeTimestep_perm self.sim.now sound.valid
  have unique := (perm.map Entry.id).nodup_iff.mp sound.valid.unique
  rw [List.map_append] at unique
  refine ⟨perm.mem_iff.mpr (List.mem_append_right _ left), ?_⟩
  intro popped
  obtain ⟨other, popped, same⟩ := List.any_eq_true.mp popped
  have apart := List.disjoint_of_nodup_append unique
  have same : other.id = entry.id := by simpa using same
  apply apart (List.mem_map_of_mem popped)
  rw [same]
  exact List.mem_map_of_mem left

theorem takeTimestep_kept (sound : self.Sound) (stored : entry ∈ self.sim.driver.sleeps)
    (asleep : ¬(self.sim.driver.due self.sim.now).any (fun other => other.id == entry.id) = true) :
    entry ∈ (self.step .takeTimestep).sim.driver.sleeps := by
  have perm := TimeDriver.takeTimestep_perm self.sim.now sound.valid
  rcases List.mem_append.mp (perm.mem_iff.mp stored) with popped | left
  · exact absurd (List.any_eq_true.mpr ⟨entry, popped, by simp⟩) asleep
  · exact left

theorem step_nextWakeup (self : Polled W) : (self.step .nextWakeup).sim.driver.sleeps = self.sim.driver.sleeps :=
  TimeDriver.nextWakeup_sleeps _

theorem Sound.alive_registered (sound : self.Sound) (alive : self.sim.sleeps id = some deadline) :
    id ≠ self.sim.nextId := by
  rintro rfl
  simp [(sound.fresh _ le_rfl).1] at alive

theorem start_sound (now : SimTime) : (start now : Polled W).Sound := by
  constructor
  · exact TimeDriver.new_wellFormed
  · simp [start, Simulation.start, Registered, TimeDriver.new]
  · simp [start, Simulation.start, TimeDriver.new]
  · simp [start]

theorem poll_sound {waker : W} (sound : self.Sound) : (self.step (.task (.poll id waker))).Sound := by
  cases alive : self.sim.sleeps id with
  | none =>
    rw [step_dead alive]
    exact sound
  | some deadline =>
    rcases le_or_gt deadline self.sim.now with reached | ahead
    · rw [step_ready alive reached]
      obtain ⟨valid, fresh, deadlines, waiting⟩ := sound
      refine ⟨valid, fresh, deadlines, ?_⟩
      intro other waits
      by_cases same : other = id
      · simp [same] at waits
      · exact waiting other (by simpa [same] using waits)
    · obtain ⟨driver, stepped, valid', entries⟩ := step_pending waker sound.valid alive ahead
      rw [stepped]
      obtain ⟨valid, fresh, deadlines, waiting⟩ := sound
      have kept : ∀ other, self.Registered other → ∃ entry ∈ driver.sleeps, entry.id = other := by
        rintro other ⟨entry, stored, rfl⟩
        exact ⟨entry, (entries entry).mpr (.inl stored), rfl⟩
      constructor
      · exact valid'
      · intro other beyond
        refine ⟨(fresh other beyond).1, ?_⟩
        rintro ⟨entry, stored, rfl⟩
        rcases (entries entry).mp stored with old | ⟨_, rfl⟩
        · exact (fresh entry.id beyond).2 ⟨entry, old, rfl⟩
        · simp [(fresh id beyond).1] at alive
      · intro entry stored other known
        rcases (entries entry).mp stored with old | ⟨_, rfl⟩
        · exact deadlines entry old other known
        · change self.sim.sleeps id = some other at known
          rw [alive] at known
          exact (Option.some.inj known).symm
      · intro other waits
        by_cases same : other = id
        · subst same
          by_cases registered : self.Registered other
          · exact kept other registered
          · exact ⟨_, (entries _).mpr (.inr ⟨registered, rfl⟩), rfl⟩
        · exact kept other (waiting other (by simpa [same] using waits))

theorem reset_sound (sound : self.Sound) : (self.step (.task (.reset id deadline))).Sound := by
  cases alive : self.sim.sleeps id with
  | none =>
    rw [step_reset_dead alive]
    exact sound
  | some old =>
    rw [step_reset alive]
    have away := sound.alive_registered alive
    obtain ⟨valid, fresh, deadlines, waiting⟩ := sound
    obtain ⟨valid', entries⟩ := TimeDriver.resetSleeper_correct valid id deadline
    constructor
    · exact valid'
    · intro other beyond
      have apart : other ≠ id := by
        rintro rfl
        simp [(fresh other beyond).1] at alive
      refine ⟨by simp [apart, (fresh other beyond).1], ?_⟩
      rintro ⟨entry, stored, rfl⟩
      obtain ⟨before, present, rfl⟩ := (entries entry).mp stored
      exact (fresh _ beyond).2 ⟨before, present, by simp⟩
    · intro entry stored other known
      obtain ⟨before, present, rfl⟩ := (entries entry).mp stored
      by_cases same : before.id = id
      · simp only [TimeDriver.rescheduled_id, same, Function.update_self, Option.some.injEq] at known
        simp [TimeDriver.rescheduled, same, known]
      · simp only [TimeDriver.rescheduled_id, Function.update_of_ne same] at known
        simp only [TimeDriver.rescheduled, if_neg same]
        exact deadlines before present other known
    · intro other waits
      obtain ⟨before, stored, rfl⟩ := waiting other waits
      exact ⟨_, (entries _).mpr ⟨before, stored, rfl⟩, by simp⟩

theorem step_sound (sound : self.Sound) (taken : Step W) : (self.step taken).Sound := by
  cases taken with
  | setNow time => exact ⟨sound.valid, sound.fresh, sound.deadline, sound.waiting⟩
  | nextWakeup =>
    obtain ⟨valid, fresh, deadlines, waiting⟩ := sound
    refine ⟨valid.nextWakeup, ?_, ?_, ?_⟩
    · intro id beyond
      refine ⟨(fresh id beyond).1, ?_⟩
      rintro ⟨entry, stored, same⟩
      exact (fresh id beyond).2 ⟨entry, step_nextWakeup self ▸ stored, same⟩
    · intro entry stored
      exact deadlines entry (step_nextWakeup self ▸ stored)
    · intro id waits
      obtain ⟨entry, stored, same⟩ := waiting id waits
      exact ⟨entry, step_nextWakeup self ▸ stored, same⟩
  | takeTimestep =>
    refine ⟨sound.valid.takeTimestep _, ?_, ?_, ?_⟩
    · intro id beyond
      refine ⟨(sound.fresh id beyond).1, ?_⟩
      rintro ⟨entry, left, same⟩
      exact (sound.fresh id beyond).2 ⟨entry, (step_takeTimestep sound left).1, same⟩
    · intro entry left
      exact sound.deadline entry (step_takeTimestep sound left).1
    · intro id waits
      obtain ⟨waits, asleep⟩ := Bool.and_eq_true_iff.mp waits
      obtain ⟨entry, stored, rfl⟩ := sound.waiting id waits
      exact ⟨entry, takeTimestep_kept sound stored (by simpa using asleep), rfl⟩
  | task taken =>
    cases taken with
    | newTimeout deadline =>
      rw [step_newTimeout]
      obtain ⟨valid, fresh, deadlines, waiting⟩ := sound
      refine ⟨valid, ?_, ?_, waiting⟩
      · intro id beyond
        have apart : id ≠ self.sim.nextId := by
          change self.sim.nextId + 1 ≤ id at beyond
          omega
        exact ⟨by simp [apart, (fresh id (Nat.le_of_succ_le beyond)).1], (fresh id (Nat.le_of_succ_le beyond)).2⟩
      · intro entry stored other known
        have apart : entry.id ≠ self.sim.nextId := fun same => (fresh _ le_rfl).2 ⟨entry, stored, same⟩
        exact deadlines entry stored other (by simpa [apart] using known)
    | poll id waker => exact poll_sound sound
    | reset id deadline => exact reset_sound sound
    | drop id =>
      rw [step_drop]
      obtain ⟨valid, fresh, deadlines, waiting⟩ := sound
      refine ⟨valid, ?_, ?_, waiting⟩
      · intro other beyond
        refine ⟨?_, (fresh other beyond).2⟩
        by_cases same : other = id
        · simp [same]
        · simp [same, (fresh other beyond).1]
      · intro entry stored other known
        by_cases same : entry.id = id
        · simp [same] at known
        · exact deadlines entry stored other (by simpa [same] using known)

end Steps

section Runs

variable {self : Polled W}

theorem states_eq (self : Polled W) (steps : List (Step W)) : self.states steps = Traces.states step self steps := by
  induction steps generalizing self with
  | nil => rfl
  | cons taken rest ih => rw [states, Traces.states, ih]

theorem each_eq (meets : Polled W → Step W → Prop) (self : Polled W) (steps : List (Step W)) :
    self.Each meets steps ↔ Traces.Each step meets self steps := by
  induction steps generalizing self with
  | nil => exact Iff.rfl
  | cons taken rest ih => rw [Each, Traces.Each, ih]

theorem states_iff {P : Polled W → Prop} {meets : Polled W → Step W → Prop} (steps : List (Step W))
    (kept : ∀ s taken, s.Sound → P s → (P (s.step taken) ↔ meets s taken)) (sound : self.Sound) (holds : P self) :
    (∀ s ∈ self.states steps, P s) ↔ self.Each meets steps := by
  rw [states_eq, each_eq]
  exact Traces.states_iff steps (fun _ taken sound _ => step_sound sound taken) kept sound holds

end Runs

section LiveSleeps

variable {self : Polled W}

def Waits (self : Polled W) (id : Nat) (deadline : SimTime) : Prop :=
  self.sim.sleeps id = some deadline ∧ self.waiting id = true

/-- Entries, announcements and wakes belong to sleeps that exist and wait. -/
structure OnlyLive (s : Polled W) : Prop where
  entries : ∀ entry ∈ s.sim.driver.sleeps, s.Waits entry.id entry.deadline
  announced : ∀ time, s.sim.driver.nextWakeup.1 = some time → ∃ id, s.Waits id time
  woken : ∀ entry ∈ s.sim.driver.due s.sim.now, s.Waits entry.id entry.deadline

/-- A sleep is dropped, or answers Ready, only when it has no entry. -/
def Withdrawn (self : Polled W) : Step W → Prop
  | .task (.drop id) => ¬self.Registered id
  | .task (.poll id _) => ∀ deadline, self.sim.sleeps id = some deadline → deadline ≤ self.sim.now →
    ¬self.Registered id
  | _ => True

theorem onlyLive_iff (sound : self.Sound) :
    self.OnlyLive ↔ ∀ entry ∈ self.sim.driver.sleeps, (self.sim.sleeps entry.id).isSome = true ∧
      self.waiting entry.id = true := by
  constructor
  · intro live entry stored
    obtain ⟨alive, waits⟩ := live.entries entry stored
    exact ⟨by simp [alive], waits⟩
  · intro live
    have entries : ∀ entry ∈ self.sim.driver.sleeps, self.Waits entry.id entry.deadline := by
      intro entry stored
      obtain ⟨alive, waits⟩ := live entry stored
      obtain ⟨deadline, alive⟩ := Option.isSome_iff_exists.mp alive
      rw [sound.deadline entry stored deadline alive] at alive
      exact ⟨alive, waits⟩
    refine ⟨entries, ?_, ?_⟩
    · intro time announced
      obtain ⟨entry, stored, rfl⟩ := Simulation.nextWakeup_stored announced
      exact ⟨entry.id, entries entry stored⟩
    · intro entry popped
      have perm := TimeDriver.takeTimestep_perm self.sim.now sound.valid
      exact entries entry (perm.mem_iff.mpr (List.mem_append_left _ popped))

theorem poll_onlyLive {id : Nat} {waker : W} (sound : self.Sound) (live : self.OnlyLive) :
    (self.step (.task (.poll id waker))).OnlyLive ↔ self.Withdrawn (.task (.poll id waker)) := by
  rw [onlyLive_iff (step_sound sound _)]
  have before := (onlyLive_iff sound).mp live
  cases alive : self.sim.sleeps id with
  | none =>
    rw [step_dead alive]
    refine ⟨?_, fun _ => before⟩
    simp [Withdrawn, alive]
  | some deadline =>
    rcases le_or_gt deadline self.sim.now with reached | ahead
    · rw [step_ready alive reached]
      constructor
      · rintro after other known _ ⟨entry, stored, rfl⟩
        have waits := (after entry stored).2
        simp at waits
      · intro withdrawn entry stored
        have apart : entry.id ≠ id := fun same => withdrawn deadline alive reached ⟨entry, stored, same⟩
        simpa [apart] using before entry stored
    · obtain ⟨driver, stepped, _, entries⟩ := step_pending waker sound.valid alive ahead
      rw [stepped]
      constructor
      · intro _ other known reached
        rw [alive] at known
        obtain rfl := Option.some.inj known
        exact absurd reached (not_le.mpr ahead)
      · intro _ entry stored
        by_cases same : entry.id = id
        · simp [same, alive]
        · rcases (entries entry).mp stored with old | ⟨_, rfl⟩
          · simpa [same] using before entry old
          · exact absurd rfl same

theorem step_onlyLive (taken : Step W) (sound : self.Sound) (live : self.OnlyLive) :
    (self.step taken).OnlyLive ↔ self.Withdrawn taken := by
  have before := (onlyLive_iff sound).mp live
  cases taken with
  | setNow time =>
    rw [onlyLive_iff (step_sound sound _)]
    exact ⟨fun _ => trivial, fun _ => before⟩
  | nextWakeup =>
    rw [onlyLive_iff (step_sound sound _), step_nextWakeup]
    exact ⟨fun _ => trivial, fun _ => before⟩
  | takeTimestep =>
    rw [onlyLive_iff (step_sound sound _)]
    refine ⟨fun _ => trivial, fun _ entry left => ?_⟩
    obtain ⟨stored, asleep⟩ := step_takeTimestep sound left
    obtain ⟨alive, waits⟩ := before entry stored
    refine ⟨alive, ?_⟩
    change (self.waiting entry.id && !_) = true
    rw [waits, Bool.eq_false_of_not_eq_true asleep]
    rfl
  | task taken =>
    cases taken with
    | newTimeout deadline =>
      rw [onlyLive_iff (step_sound sound _)]
      refine ⟨fun _ => trivial, fun _ entry stored => ?_⟩
      have apart : entry.id ≠ self.sim.nextId := fun same => (sound.fresh _ le_rfl).2 ⟨entry, stored, same⟩
      rw [step_newTimeout]
      simpa [apart] using before entry stored
    | poll id waker => exact poll_onlyLive sound live
    | reset id deadline =>
      rw [onlyLive_iff (step_sound sound _)]
      refine ⟨fun _ => trivial, fun _ entry stored => ?_⟩
      cases alive : self.sim.sleeps id with
      | none =>
        rw [step_reset_dead alive] at stored ⊢
        exact before entry stored
      | some old =>
        rw [step_reset alive] at stored ⊢
        obtain ⟨_, entries⟩ := TimeDriver.resetSleeper_correct sound.valid id deadline
        obtain ⟨previous, present, rfl⟩ := (entries entry).mp stored
        obtain ⟨alive', waits⟩ := before previous present
        by_cases same : previous.id = id
        · simpa [same] using waits
        · simpa [same] using ⟨alive', waits⟩
    | drop id =>
      rw [onlyLive_iff (step_sound sound _), step_drop]
      constructor
      · rintro after ⟨entry, stored, rfl⟩
        simpa using (after entry stored).1
      · intro withdrawn entry stored
        have apart : entry.id ≠ id := fun same => withdrawn ⟨entry, stored, same⟩
        simpa [apart] using before entry stored

/-- In a run every entry, announcement and wake belongs to a sleep that exists and waits, exactly if no sleep is
dropped, or completes, while it has an entry. -/
theorem only_live_iff_withdrawn (now : SimTime) (steps : List (Step W)) :
    (∀ s ∈ (start now).states steps, s.OnlyLive) ↔ (start now).Each Withdrawn steps := by
  refine states_iff steps (fun s taken => step_onlyLive taken) (start_sound now) ?_
  rw [onlyLive_iff (start_sound now)]
  simp [start, Simulation.start, TimeDriver.new]

/-- A timeout of 10 nanoseconds, whose inner future is ready at its second poll. -/
def timeoutFinished : List (Step Unit) :=
  [.task (.newTimeout (.ofNanos 10)), .task (.poll 0 ()), .task (.drop 0), .nextWakeup, .setNow (.ofNanos 10),
    .takeTimestep]

/-- The deadline of the dropped sleep is announced, and its task is woken for it. -/
theorem dropped_sleep_announced :
    (∃ s ∈ (start (.ofNanos 0)).states timeoutFinished, s.sim.driver.nextWakeup.1 = some (.ofNanos 10) ∧
      ∀ id, s.sim.sleeps id = none) ∧
    ∃ s ∈ (start (.ofNanos 0)).states timeoutFinished, ∃ entry ∈ s.sim.driver.due s.sim.now,
      s.sim.sleeps entry.id = none := by
  constructor
  · refine ⟨_, List.mem_of_getElem? (i := 3) rfl, by decide, ?_⟩
    intro id
    change Function.update (Function.update (fun _ => none) 0 (some (SimTime.ofNanos 10))) 0 none id = none
    simp
  · exact ⟨_, List.mem_of_getElem? (i := 5) rfl, ⟨.ofNanos 10, (), 0⟩, by decide, by decide⟩

end LiveSleeps

section LatestWakers

variable {self : Polled W}

/-- Whatever a timestep wakes, it wakes by the waker of the most recent Pending poll. -/
structure LatestWaker (s : Polled W) : Prop where
  entries : ∀ entry ∈ s.sim.driver.sleeps, s.latest entry.id = some entry.waker
  woken : ∀ entry ∈ s.sim.driver.due s.sim.now, s.latest entry.id = some entry.waker
  -- unless an entry with a deadline in the past blocks the heap
  reached : s.sim.driver.Current s.sim.now → ∀ id deadline, s.Waits id deadline → deadline ≤ s.sim.now →
    ∃ entry ∈ s.sim.driver.due s.sim.now, entry.id = id ∧ s.latest id = some entry.waker

/-- A sleep that has an entry is polled by the waker of its entry until it is woken. -/
def SameWaker (self : Polled W) : Step W → Prop
  | .task (.poll id waker) => ∀ deadline, self.sim.sleeps id = some deadline → self.sim.now < deadline →
    ∀ entry ∈ self.sim.driver.sleeps, entry.id = id → entry.waker = waker
  | _ => True

theorem latestWaker_iff (sound : self.Sound) :
    self.LatestWaker ↔ ∀ entry ∈ self.sim.driver.sleeps, self.latest entry.id = some entry.waker := by
  refine ⟨LatestWaker.entries, fun entries => ⟨entries, ?_, ?_⟩⟩
  · intro entry popped
    have perm := TimeDriver.takeTimestep_perm self.sim.now sound.valid
    exact entries entry (perm.mem_iff.mpr (List.mem_append_left _ popped))
  · rintro current id deadline ⟨alive, waits⟩ reached
    obtain ⟨entry, stored, rfl⟩ := sound.waiting id waits
    obtain rfl := sound.deadline entry stored deadline alive
    have at' := le_antisymm reached (current entry stored)
    have popped := (TimeDriver.takeTimestep_mem sound.valid current entry).1.mpr ⟨stored, at'⟩
    exact ⟨entry, popped, rfl, entries entry stored⟩

theorem poll_latestWaker {id : Nat} {waker : W} (sound : self.Sound) (latest : self.LatestWaker) :
    (self.step (.task (.poll id waker))).LatestWaker ↔ self.SameWaker (.task (.poll id waker)) := by
  rw [latestWaker_iff (step_sound sound _)]
  have before := latest.entries
  cases alive : self.sim.sleeps id with
  | none =>
    rw [step_dead alive]
    refine ⟨?_, fun _ => before⟩
    simp [SameWaker, alive]
  | some deadline =>
    rcases le_or_gt deadline self.sim.now with reached | ahead
    · rw [step_ready alive reached]
      refine ⟨?_, fun _ => before⟩
      intro _ other known ahead
      rw [alive] at known
      obtain rfl := Option.some.inj known
      exact absurd reached (not_le.mpr ahead)
    · obtain ⟨driver, stepped, _, entries⟩ := step_pending waker sound.valid alive ahead
      rw [stepped]
      constructor
      · rintro after other _ _ entry stored rfl
        have told := after entry ((entries entry).mpr (.inl stored))
        simpa using told.symm
      · intro same entry stored
        rcases (entries entry).mp stored with old | ⟨_, rfl⟩
        · by_cases own : entry.id = id
          · simp [own, same deadline alive ahead entry old own]
          · simpa [own] using before entry old
        · simp

theorem step_latestWaker (taken : Step W) (sound : self.Sound) (latest : self.LatestWaker) :
    (self.step taken).LatestWaker ↔ self.SameWaker taken := by
  have before := latest.entries
  cases taken with
  | setNow time =>
    rw [latestWaker_iff (step_sound sound _)]
    exact ⟨fun _ => trivial, fun _ => before⟩
  | nextWakeup =>
    rw [latestWaker_iff (step_sound sound _), step_nextWakeup]
    exact ⟨fun _ => trivial, fun _ => before⟩
  | takeTimestep =>
    rw [latestWaker_iff (step_sound sound _)]
    exact ⟨fun _ => trivial, fun _ entry left => before entry (step_takeTimestep sound left).1⟩
  | task taken =>
    cases taken with
    | newTimeout deadline =>
      rw [latestWaker_iff (step_sound sound _)]
      exact ⟨fun _ => trivial, fun _ => before⟩
    | poll id waker => exact poll_latestWaker sound latest
    | reset id deadline =>
      rw [latestWaker_iff (step_sound sound _)]
      refine ⟨fun _ => trivial, fun _ entry stored => ?_⟩
      cases alive : self.sim.sleeps id with
      | none =>
        rw [step_reset_dead alive] at stored ⊢
        exact before entry stored
      | some old =>
        rw [step_reset alive] at stored ⊢
        obtain ⟨_, entries⟩ := TimeDriver.resetSleeper_correct sound.valid id deadline
        obtain ⟨previous, present, rfl⟩ := (entries entry).mp stored
        simpa using before previous present
    | drop id =>
      rw [latestWaker_iff (step_sound sound _)]
      exact ⟨fun _ => trivial, fun _ => before⟩

/-- In a run the entries keep to the waker of the most recent Pending poll, exactly if no sleep is polled by another
waker while it has an entry. -/
theorem latest_waker_iff_same (now : SimTime) (steps : List (Step W)) :
    (∀ s ∈ (start now).states steps, s.LatestWaker) ↔ (start now).Each SameWaker steps := by
  refine states_iff steps (fun s taken => step_latestWaker taken) (start_sound now) ?_
  rw [latestWaker_iff (start_sound now)]
  simp [start, Simulation.start, TimeDriver.new]

def movedSleep : List (Step Bool) :=
  [.task (.newTimeout (.ofNanos 10)), .task (.poll 0 false), .task (.poll 0 true), .setNow (.ofNanos 10),
    .takeTimestep]

/-- The timestep wakes the task that does not wait any more. -/
theorem first_waker_woken :
    ∃ s ∈ (start (.ofNanos 0)).states movedSleep, ∃ entry ∈ s.sim.driver.due s.sim.now,
      s.Waits entry.id s.sim.now ∧ s.latest entry.id = some true ∧ entry.waker = false :=
  ⟨_, List.mem_of_getElem? (i := 4) rfl, ⟨.ofNanos 10, false, 0⟩, by decide, ⟨by decide, by decide⟩, by decide, rfl⟩

end LatestWakers

end Polled

end Osaka.Time
