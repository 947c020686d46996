import Osaka.Time.Announcements

set_option autoImplicit false

namespace Osaka.Time

inductive Panic where
  -- "Overflow when adding Duration to SimTime"
  | addOverflow
  -- "Overflow when substracting Duration from SimTime"
  | subOverflow
  -- the unwrap in `duration_since`
  | earlier
  -- "too much time has elapsed since the interval was supposed to tick"
  | tooMuchTime
  -- "`period` must be non-zero."
  | zeroPeriod
  -- assert!(source.deadline >= SimTime::now())
  | missedDeadline
  deriving DecidableEq

def Duration.checkedSub (self rhs : Duration) : Option Duration :=
  if rhs.nanos ≤ self.nanos then
    some ⟨self.nanos - rhs.nanos, (Nat.sub_le _ _).trans_lt self.representable⟩
  else
    none

-- u64::MAX nanoseconds are 584 years.
def Duration.fromNanos (nanos : Nat) (fits : nanos < 2 ^ 64) : Duration :=
  ⟨nanos, fits.trans (by decide)⟩

def Duration.fromMillis5 : Duration := ⟨5000000, by decide⟩

namespace SimTime

def checkedSub (self : SimTime) (duration : Duration) : Option SimTime :=
  (self.elapsed.checkedSub duration).map SimTime.mk

def add (self : SimTime) (rhs : Duration) : Except Panic SimTime :=
  match self.checkedAdd rhs with
  | some time => .ok time
  | none => .error .addOverflow

def sub (self : SimTime) (rhs : Duration) : Except Panic SimTime :=
  match self.checkedSub rhs with
  | some time => .ok time
  | none => .error .subOverflow

def durationSince (self earlier : SimTime) : Except Panic Duration :=
  match self.elapsed.checkedSub earlier.elapsed with
  | some duration => .ok duration
  | none => .error .earlier

end SimTime

inductive MissedTickBehavior where
  | burst
  | delay
  | skip
  deriving DecidableEq

def MissedTickBehavior.nextTimeout (self : MissedTickBehavior) (timeout now : SimTime) (period : Duration) :
    Except Panic SimTime :=
  match self with
  | .burst => timeout.add period
  | .delay => now.add period
  | .skip => do
    let later ← now.add period
    let late ← now.durationSince timeout
    if fits : late.nanos % period.nanos < 2 ^ 64 then
      later.sub (Duration.fromNanos (late.nanos % period.nanos) fits)
    else
      .error .tooMuchTime

structure Interval where
  delay : Sleep
  period : Duration
  nonzero : 0 < period.nanos
  missedTickBehavior : MissedTickBehavior

namespace Interval

variable {W : Type}

-- `id` is what SLEEP_ID gives to the new sleep.
def intervalAt (id : Nat) (start : SimTime) (period : Duration) : Except Panic Interval :=
  if nonzero : 0 < period.nanos then
    .ok { delay := ⟨start, id⟩, period := period, nonzero := nonzero, missedTickBehavior := .burst }
  else
    .error .zeroPeriod

def interval (id : Nat) (now : SimTime) (period : Duration) : Except Panic Interval := intervalAt id now period

-- The deadline of the next tick, after that of `timeout` was polled at `now`.
def next (self : Interval) (timeout now : SimTime) : Except Panic SimTime := do
  let tolerance ← timeout.add Duration.fromMillis5
  if tolerance < now then
    self.missedTickBehavior.nextTimeout timeout now self.period
  else
    timeout.add self.period

def pollTick (now : SimTime) (driver : TimeDriver W) (self : Interval) (waker : W) :
    Except Panic (Poll SimTime × Interval × TimeDriver W) :=
  match self.delay.poll now driver waker with
  | none => .error .missedDeadline
  | some (.pending, driver) => .ok (.pending, self, driver)
  | some (.ready (), driver) => do
    let timeout := self.delay.deadline
    let next ← self.next timeout now
    let (delay, driver) := self.delay.reset driver next
    return (.ready timeout, { self with delay := delay }, driver)

def reset (now : SimTime) (driver : TimeDriver W) (self : Interval) : Except Panic (Interval × TimeDriver W) := do
  let next ← now.add self.period
  let (delay, driver) := self.delay.reset driver next
  return ({ self with delay := delay }, driver)

def setMissedTickBehavior (self : Interval) (behavior : MissedTickBehavior) : Interval :=
  { self with missedTickBehavior := behavior }

end Interval

section Instants

variable {time other : SimTime} {duration : Duration}

theorem SimTime.add_ok : time.add duration = .ok other ↔ other.nanos = time.nanos + duration.nanos := by
  unfold SimTime.add SimTime.checkedAdd Duration.checkedAdd
  by_cases fits : time.elapsed.nanos + duration.nanos < durationLimit
  · simp only [dif_pos fits, Option.map_some, Except.ok.injEq]
    constructor
    · rintro rfl
      rfl
    · exact fun same => SimTime.ext_nanos same.symm
  · simp only [dif_neg fits, Option.map_none, reduceCtorEq, false_iff]
    intro same
    have representable := other.elapsed.representable
    change other.elapsed.nanos = time.elapsed.nanos + duration.nanos at same
    omega

theorem SimTime.add_fits : (∃ sum, time.add duration = .ok sum) ↔ time.nanos + duration.nanos < durationLimit := by
  simp only [SimTime.add_ok]
  constructor
  · rintro ⟨sum, same⟩
    exact same ▸ sum.elapsed.representable
  · exact fun fits => ⟨⟨⟨_, fits⟩⟩, rfl⟩

theorem SimTime.sub_ok : time.sub duration = .ok other ↔ other.nanos + duration.nanos = time.nanos := by
  unfold SimTime.sub SimTime.checkedSub Duration.checkedSub
  by_cases fits : duration.nanos ≤ time.elapsed.nanos
  · simp only [if_pos fits, Option.map_some, Except.ok.injEq]
    constructor
    · rintro rfl
      exact Nat.sub_add_cancel fits
    · intro same
      apply SimTime.ext_nanos
      change time.elapsed.nanos - duration.nanos = other.nanos
      change other.nanos + duration.nanos = time.elapsed.nanos at same
      omega
  · simp only [if_neg fits, Option.map_none, reduceCtorEq, false_iff]
    intro same
    change other.nanos + duration.nanos = time.elapsed.nanos at same
    omega

theorem SimTime.durationSince_ok (before : other ≤ time) :
    ∃ late, time.durationSince other = .ok late ∧ late.nanos = time.nanos - other.nanos := by
  have fits : other.elapsed.nanos ≤ time.elapsed.nanos := before
  unfold SimTime.durationSince Duration.checkedSub
  rw [if_pos fits]
  exact ⟨_, rfl, rfl⟩

end Instants

section Deadlines

variable {timeout now time : SimTime} {period : Duration}

theorem Panic.bind_ok {A B : Type} {result : Except Panic A} {next : A → Except Panic B} {value : B} :
    (result >>= next) = .ok value ↔ ∃ before, result = .ok before ∧ next before = .ok value := by
  cases result with
  | ok before => simp [bind, Except.bind]
  | error panic => simp [bind, Except.bind]

/-- How far `now` is past the last multiple of the period after `timeout`. -/
def remainder (timeout now : SimTime) (period : Duration) : Nat := (now.nanos - timeout.nanos) % period.nanos

theorem nextTimeout_skip (reached : timeout ≤ now) :
    MissedTickBehavior.skip.nextTimeout timeout now period = .ok time ↔
      now.nanos + period.nanos < durationLimit ∧ remainder timeout now period < 2 ^ 64 ∧
        time.nanos + remainder timeout now period = now.nanos + period.nanos := by
  obtain ⟨late, since, nanos⟩ := SimTime.durationSince_ok reached
  unfold MissedTickBehavior.nextTimeout
  rw [Panic.bind_ok]
  simp only [since, SimTime.add_ok]
  change (∃ later : SimTime, later.nanos = now.nanos + period.nanos ∧
    (if fits : late.nanos % period.nanos < 2 ^ 64 then
      later.sub (Duration.fromNanos (late.nanos % period.nanos) fits)
    else .error .tooMuchTime) = .ok time) ↔ _
  rw [nanos]
  change (∃ later : SimTime, later.nanos = now.nanos + period.nanos ∧
    (if fits : remainder timeout now period < 2 ^ 64 then
      later.sub (Duration.fromNanos (remainder timeout now period) fits)
    else .error .tooMuchTime) = .ok time) ↔ _
  constructor
  · rintro ⟨later, same, answered⟩
    split at answered
    next fits =>
      have sum := SimTime.sub_ok.mp answered
      have representable := later.elapsed.representable
      exact ⟨same ▸ representable, fits, sum.trans same⟩
    next => simp at answered
  · rintro ⟨room, fits, sum⟩
    refine ⟨⟨⟨_, room⟩⟩, rfl, ?_⟩
    rw [dif_pos fits, SimTime.sub_ok]
    exact sum

def Interval.Next (self : Interval) (timeout now time : SimTime) : Prop :=
  timeout.nanos + Duration.fromMillis5.nanos < durationLimit ∧
    if timeout.nanos + Duration.fromMillis5.nanos < now.nanos then
      match self.missedTickBehavior with
      | .burst => time.nanos = timeout.nanos + self.period.nanos
      | .delay => time.nanos = now.nanos + self.period.nanos
      | .skip => now.nanos + self.period.nanos < durationLimit ∧ remainder timeout now self.period < 2 ^ 64 ∧
        time.nanos + remainder timeout now self.period = now.nanos + self.period.nanos
    else
      time.nanos = timeout.nanos + self.period.nanos

theorem Interval.next_ok {self : Interval} (reached : timeout ≤ now) :
    self.next timeout now = .ok time ↔ self.Next timeout now time := by
  unfold Interval.next Interval.Next
  rw [Panic.bind_ok]
  simp only [SimTime.add_ok, SimTime.lt_iff]
  constructor
  · rintro ⟨tolerance, same, scheduled⟩
    have representable := tolerance.elapsed.representable
    change tolerance.nanos < durationLimit at representable
    rw [same] at representable scheduled
    refine ⟨representable, ?_⟩
    split at scheduled
    next late =>
      rw [if_pos late]
      cases behavior : self.missedTickBehavior with
      | burst =>
        rw [behavior] at scheduled
        exact SimTime.add_ok.mp scheduled
      | delay =>
        rw [behavior] at scheduled
        exact SimTime.add_ok.mp scheduled
      | skip =>
        rw [behavior] at scheduled
        exact (nextTimeout_skip reached).mp scheduled
    next early =>
      rw [if_neg early]
      exact SimTime.add_ok.mp scheduled
  · rintro ⟨room, scheduled⟩
    refine ⟨⟨⟨_, room⟩⟩, rfl, ?_⟩
    change (if timeout.nanos + Duration.fromMillis5.nanos < now.nanos then _ else _) = _
    split at scheduled
    next late =>
      rw [if_pos late]
      cases behavior : self.missedTickBehavior with
      | burst =>
        rw [behavior] at scheduled
        exact SimTime.add_ok.mpr scheduled
      | delay =>
        rw [behavior] at scheduled
        exact SimTime.add_ok.mpr scheduled
      | skip =>
        rw [behavior] at scheduled
        exact (nextTimeout_skip reached).mpr scheduled
    next early =>
      rw [if_neg early]
      exact SimTime.add_ok.mpr scheduled

end Deadlines

namespace Interval

variable {W : Type}

section Ticks

variable {self : Interval} {now : SimTime} {driver : TimeDriver W} {waker : W}

theorem pollTick_pending (driver : TimeDriver W) (waker : W) (ahead : now < self.delay.deadline) :
    ∃ registered, self.delay.poll now driver waker = some (.pending, registered) ∧
      self.pollTick now driver waker = .ok (.pending, self, registered) := by
  obtain ⟨registered, _, polled⟩ := self.delay.poll_ahead driver waker ahead
  exact ⟨registered, polled, by simp [pollTick, polled]⟩

theorem pollTick_ready {answer : Poll SimTime} {after : Interval} {driver' : TimeDriver W}
    (reached : self.delay.deadline ≤ now) :
    self.pollTick now driver waker = .ok (answer, after, driver') ↔
      ∃ time, self.Next self.delay.deadline now time ∧ answer = .ready self.delay.deadline ∧
        after = { self with delay := { self.delay with deadline := time } } ∧
        driver' = driver.resetSleeper self.delay.id time := by
  simp only [pollTick, Sleep.poll_reached _ _ _ reached, Panic.bind_ok, next_ok reached, Sleep.reset, pure,
    Except.pure, Except.ok.injEq, Prod.mk.injEq]
  constructor
  · rintro ⟨time, scheduled, rfl, rfl, rfl⟩
    exact ⟨time, scheduled, rfl, rfl, rfl⟩
  · rintro ⟨time, scheduled, rfl, rfl, rfl⟩
    exact ⟨time, scheduled, rfl, rfl, rfl⟩

theorem pollTick_steps {sim : Simulation W} {answer : Poll SimTime} {after : Interval} {driver' : TimeDriver W}
    (alive : sim.sleeps self.delay.id = some self.delay.deadline)
    (polled : self.pollTick sim.now sim.driver waker = .ok (answer, after, driver')) :
    ∃ steps : List (TaskStep W),
      (steps = [.poll self.delay.id waker] ∨
        ∃ time, steps = [.poll self.delay.id waker, .reset self.delay.id time]) ∧
      sim.polled steps = { sim with
        driver := driver'
        sleeps := Function.update sim.sleeps self.delay.id (some after.delay.deadline) } := by
  rcases le_or_gt self.delay.deadline sim.now with reached | ahead
  · obtain ⟨time, _, _, rfl, rfl⟩ := (pollTick_ready reached).mp polled
    have ready : (Sleep.mk self.delay.deadline self.delay.id).poll sim.now sim.driver waker =
        some (.ready (), sim.driver) := Sleep.poll_reached _ _ _ reached
    refine ⟨_, Or.inr ⟨time, rfl⟩, ?_⟩
    simp [Simulation.polled, Simulation.task, alive, ready, Sleep.reset]
  · obtain ⟨registered, waits, pending⟩ := pollTick_pending sim.driver waker ahead
    rw [pending, Except.ok.injEq, Prod.mk.injEq, Prod.mk.injEq] at polled
    obtain ⟨_, rfl, rfl⟩ := polled
    refine ⟨_, Or.inl rfl, ?_⟩
    simp [Simulation.polled, Simulation.task, alive, waits]

theorem reset_steps {sim : Simulation W} {after : Interval} {driver' : TimeDriver W}
    (alive : sim.sleeps self.delay.id = some self.delay.deadline)
    (moved : self.reset sim.now sim.driver = .ok (after, driver')) :
    sim.polled [.reset self.delay.id after.delay.deadline] = { sim with
      driver := driver'
      sleeps := Function.update sim.sleeps self.delay.id (some after.delay.deadline) } := by
  simp only [reset, Panic.bind_ok, Sleep.reset, pure, Except.pure, Except.ok.injEq, Prod.mk.injEq] at moved
  obtain ⟨time, _, rfl, rfl⟩ := moved
  simp [Simulation.polled, Simulation.task, alive, Sleep.reset]

structure TickPoll (W : Type) where
  now : SimTime
  driver : TimeDriver W
  waker : W

/-- One instant that `poll_tick` has returned, when, and the deadline it set then. -/
structure Tick where
  now : SimTime
  instant : SimTime
  next : SimTime

def ticks (self : Interval) : List (TickPoll W) → Except Panic (List Tick × Interval)
  | [] => .ok ([], self)
  | poll :: rest => do
    let (answer, after, _) ← self.pollTick poll.now poll.driver poll.waker
    let (later, last) ← after.ticks rest
    match answer with
    | .ready instant => return (⟨poll.now, instant, after.delay.deadline⟩ :: later, last)
    | .pending => return (later, last)

/-- Each tick is that of the deadline which the one before it has set. -/
def Linked : SimTime → List Tick → Prop
  | _, [] => True
  | deadline, tick :: rest => tick.instant = deadline ∧ Linked tick.next rest

theorem ticks_linked {polls : List (TickPoll W)} {ticks : List Tick} {last : Interval}
    (ran : self.ticks polls = .ok (ticks, last)) :
    Linked self.delay.deadline ticks ∧ ∀ tick ∈ ticks, tick.instant ≤ tick.now ∧
      self.Next tick.instant tick.now tick.next := by
  induction polls generalizing self ticks last with
  | nil =>
    simp only [Interval.ticks, Except.ok.injEq, Prod.mk.injEq] at ran
    obtain ⟨rfl, _⟩ := ran
    exact ⟨trivial, by simp⟩
  | cons poll rest ih =>
    simp only [Interval.ticks, Panic.bind_ok] at ran
    obtain ⟨⟨answer, after, driver⟩, polled, ⟨later, final⟩, ran, answered⟩ := ran
    rcases le_or_gt self.delay.deadline poll.now with reached | ahead
    · obtain ⟨time, scheduled, rfl, rfl, _⟩ := (pollTick_ready reached).mp polled
      obtain ⟨linked, each⟩ := ih ran
      simp only [pure, Except.pure, Except.ok.injEq, Prod.mk.injEq] at answered
      obtain ⟨rfl, _⟩ := answered
      refine ⟨⟨rfl, linked⟩, ?_⟩
      intro tick member
      rcases List.mem_cons.mp member with rfl | member
      · exact ⟨reached, scheduled⟩
      · exact each tick member
    · obtain ⟨registered, _, pending⟩ := pollTick_pending poll.driver poll.waker ahead
      rw [pending, Except.ok.injEq, Prod.mk.injEq, Prod.mk.injEq] at polled
      obtain ⟨rfl, rfl, _⟩ := polled
      simp only [pure, Except.pure, Except.ok.injEq, Prod.mk.injEq] at answered
      obtain ⟨rfl, _⟩ := answered
      exact ih ran

end Ticks

section Schedule

variable {self : Interval} {timeout now time : SimTime}

/-- The tick is polled more than 5 ms after its instant. -/
def Tick.Late (tick : Tick) : Prop := tick.instant.nanos + Duration.fromMillis5.nanos < tick.now.nanos

theorem next_burst (behavior : self.missedTickBehavior = .burst) (scheduled : self.Next timeout now time) :
    time.nanos = timeout.nanos + self.period.nanos := by
  obtain ⟨_, scheduled⟩ := scheduled
  split at scheduled
  next => simpa [behavior] using scheduled
  next => exact scheduled

theorem next_delay (behavior : self.missedTickBehavior = .delay) (scheduled : self.Next timeout now time) :
    time.nanos = (if timeout.nanos + Duration.fromMillis5.nanos < now.nanos then now.nanos else timeout.nanos) +
      self.period.nanos := by
  obtain ⟨_, scheduled⟩ := scheduled
  split at scheduled
  next late => simpa [behavior, late] using scheduled
  next early => simpa [early] using scheduled

theorem next_multiple {at' since period after : Nat} (positive : 0 < period) (reached : since ≤ at')
    (sum : after + (at' - since) % period = at' + period) :
    ∃ k, 0 < k ∧ after = since + k * period ∧ at' < after ∧ ∀ j, at' < since + j * period → k ≤ j := by
  have split := Nat.div_add_mod (at' - since) period
  have below := Nat.mod_lt (at' - since) positive
  rw [Nat.mul_comm] at split
  have next : ((at' - since) / period + 1) * period = (at' - since) / period * period + period := Nat.succ_mul _ _
  refine ⟨(at' - since) / period + 1, Nat.succ_pos _, by omega, by omega, ?_⟩
  intro j later
  by_contra short
  have small : j * period ≤ (at' - since) / period * period := Nat.mul_le_mul_right _ (by omega)
  omega

theorem next_skip (behavior : self.missedTickBehavior = .skip) (reached : timeout ≤ now)
    (scheduled : self.Next timeout now time) :
    ∃ k, 0 < k ∧ time.nanos = timeout.nanos + k * self.period.nanos ∧
      (timeout.nanos + Duration.fromMillis5.nanos < now.nanos →
        now.nanos < time.nanos ∧ ∀ j, now.nanos < timeout.nanos + j * self.period.nanos → k ≤ j) := by
  obtain ⟨_, scheduled⟩ := scheduled
  split at scheduled
  next late =>
    simp only [behavior] at scheduled
    obtain ⟨k, positive, multiple, later, least⟩ :=
      next_multiple self.nonzero (SimTime.le_iff.mp reached) scheduled.2.2
    exact ⟨k, positive, multiple, fun _ => ⟨later, least⟩⟩
  next early => exact ⟨1, Nat.one_pos, by rw [scheduled, Nat.one_mul], fun late => absurd late early⟩

theorem linked_burst {deadline : SimTime} {ticks : List Tick} (behavior : self.missedTickBehavior = .burst)
    (linked : Linked deadline ticks) (each : ∀ tick ∈ ticks, self.Next tick.instant tick.now tick.next) :
    ∀ k tick, ticks[k]? = some tick → tick.instant.nanos = deadline.nanos + k * self.period.nanos := by
  induction ticks generalizing deadline with
  | nil => simp
  | cons first rest ih =>
    intro k tick found
    obtain ⟨same, linked⟩ := linked
    cases k with
    | zero =>
      obtain rfl : first = tick := by simpa using found
      simp [same]
    | succ k =>
      have later := ih linked (fun tick member => each tick (List.mem_cons_of_mem _ member)) k tick
        (by simpa using found)
      have step := next_burst behavior (each first List.mem_cons_self)
      rw [later, step, same, Nat.succ_mul]
      omega

theorem linked_skip {deadline : SimTime} {ticks : List Tick} (start : SimTime) (m : Nat)
    (behavior : self.missedTickBehavior = .skip) (linked : Linked deadline ticks)
    (multiple : deadline.nanos = start.nanos + m * self.period.nanos)
    (each : ∀ tick ∈ ticks, tick.instant ≤ tick.now ∧ self.Next tick.instant tick.now tick.next) :
    ∃ ms : List Nat, ms.Pairwise (· < ·) ∧ (∀ i ∈ ms, m ≤ i) ∧
      ticks.map (fun tick => tick.instant.nanos) = ms.map (fun i => start.nanos + i * self.period.nanos) ∧
      ∀ tick ∈ ticks, ∃ i, tick.next.nanos = start.nanos + i * self.period.nanos ∧
        (tick.Late → tick.now.nanos < tick.next.nanos ∧
          ∀ j, tick.now.nanos < start.nanos + j * self.period.nanos → i ≤ j) := by
  induction ticks generalizing deadline m with
  | nil => exact ⟨[], List.Pairwise.nil, by simp, rfl, by simp⟩
  | cons first rest ih =>
    obtain ⟨same, linked⟩ := linked
    obtain ⟨reached, scheduled⟩ := each first List.mem_cons_self
    obtain ⟨k, positive, next, late⟩ := next_skip behavior reached scheduled
    have after : first.next.nanos = start.nanos + (m + k) * self.period.nanos := by
      rw [next, same, multiple, Nat.add_mul, Nat.add_assoc]
    obtain ⟨ms, increasing, above, instants, others⟩ :=
      ih (m + k) linked after (fun tick member => each tick (List.mem_cons_of_mem _ member))
    refine ⟨m :: ms, ?_, ?_, ?_, ?_⟩
    · refine List.Pairwise.cons ?_ increasing
      intro i member
      have := above i member
      omega
    · intro i member
      rcases List.mem_cons.mp member with rfl | member
      · exact le_rfl
      · have := above i member
        omega
    · simp only [List.map_cons, instants, same, multiple]
    · intro tick member
      rcases List.mem_cons.mp member with rfl | member
      · refine ⟨m + k, after, fun isLate => ⟨(late isLate).1, ?_⟩⟩
        intro j later
        by_cases below : j ≤ m
        · have small : j * self.period.nanos ≤ m * self.period.nanos := Nat.mul_le_mul_right _ below
          have : tick.instant.nanos ≤ tick.now.nanos := SimTime.le_iff.mp reached
          rw [same, multiple] at this
          omega
        · obtain ⟨i, rfl⟩ := Nat.exists_eq_add_of_le (Nat.le_of_not_le below)
          have := (late isLate).2 i (by rw [same, multiple, Nat.add_assoc, ← Nat.add_mul]; exact later)
          omega
      · exact others tick member

end Schedule

/-- An interval that is polled again and again, at any times. -/
theorem tick_schedule {W : Type} {id : Nat} {start : SimTime} {period : Duration} {behavior : MissedTickBehavior}
    {created last : Interval} {polls : List (TickPoll W)} {ticks : List Tick}
    (creates : intervalAt id start period = .ok created)
    (ran : (created.setMissedTickBehavior behavior).ticks polls = .ok (ticks, last)) :
    (∀ tick ∈ ticks, tick.instant ≤ tick.now) ∧
    Linked start ticks ∧
    (behavior = .burst → ∀ k tick, ticks[k]? = some tick →
      tick.instant.nanos = start.nanos + k * period.nanos) ∧
    (behavior = .skip →
      (∃ ms : List Nat, ms.Pairwise (· < ·) ∧
        ticks.map (fun tick => tick.instant.nanos) = ms.map (fun i => start.nanos + i * period.nanos)) ∧
      ∀ tick ∈ ticks, tick.Late → ∃ i, tick.next.nanos = start.nanos + i * period.nanos ∧
        tick.now.nanos < tick.next.nanos ∧
          ∀ j, tick.now.nanos < start.nanos + j * period.nanos → tick.next.nanos ≤ start.nanos + j * period.nanos) ∧
    (behavior = .delay → ∀ tick ∈ ticks,
      (tick.Late → tick.next.nanos = tick.now.nanos + period.nanos) ∧
      (¬tick.Late → tick.next.nanos = tick.instant.nanos + period.nanos)) := by
  unfold intervalAt at creates
  split at creates
  next nonzero =>
    rw [Except.ok.injEq] at creates
    subst creates
    obtain ⟨linked, each⟩ := ticks_linked ran
    refine ⟨fun tick member => (each tick member).1, linked, ?_, ?_, ?_⟩
    · rintro rfl
      exact linked_burst rfl linked fun tick member => (each tick member).2
    · rintro rfl
      obtain ⟨ms, increasing, _, instants, nexts⟩ :=
        linked_skip start 0 rfl linked (by simp [setMissedTickBehavior]) each
      refine ⟨⟨ms, increasing, instants⟩, ?_⟩
      intro tick member late
      obtain ⟨i, multiple, least⟩ := nexts tick member
      refine ⟨i, multiple, (least late).1, ?_⟩
      intro j later
      rw [multiple]
      exact Nat.add_le_add_left (Nat.mul_le_mul_right _ ((least late).2 j later)) _
    · rintro rfl tick member
      have scheduled := next_delay rfl (each tick member).2
      constructor
      · intro late
        unfold Tick.Late at late
        rw [scheduled, if_pos late]
        rfl
      · intro early
        unfold Tick.Late at early
        rw [scheduled, if_neg early]
        rfl
  next => simp at creates

def millis (count : Nat) : SimTime := .ofNanos (count * 1000000)

/-- An interval of 10 milliseconds, polled too early once, and much too late for its second and its last tick. -/
def skippedPolls : List (TickPoll Unit) := [0, 5, 17, 20, 50].map fun count => ⟨millis count, .new, ()⟩

def skipped : List Tick :=
  [⟨millis 0, millis 0, millis 10⟩, ⟨millis 17, millis 10, millis 20⟩, ⟨millis 20, millis 20, millis 30⟩,
    ⟨millis 50, millis 30, millis 60⟩]

theorem tick_schedule_run :
    ∃ ms : List Nat, ms.Pairwise (· < ·) ∧
      skipped.map (fun tick => tick.instant.nanos) = ms.map (fun i => (millis 0).nanos + i * 10000000) := by
  have creates : intervalAt 0 (millis 0) ⟨10000000, by decide⟩ =
    .ok ⟨⟨millis 0, 0⟩, ⟨10000000, by decide⟩, by decide, .burst⟩ := rfl
  have ran : (Interval.setMissedTickBehavior ⟨⟨millis 0, 0⟩, ⟨10000000, by decide⟩, by decide, .burst⟩ .skip).ticks
    skippedPolls = .ok (skipped, ⟨⟨millis 60, 0⟩, ⟨10000000, by decide⟩, by decide, .skip⟩) := rfl
  exact ((tick_schedule creates ran).2.2.2.1 rfl).1

end Interval

end Osaka.Time
