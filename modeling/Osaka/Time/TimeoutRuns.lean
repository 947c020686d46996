import Osaka.Time.Timeout

set_option autoImplicit false

namespace Osaka.Time

variable {F V W : Type}

/-- How far the task has come that creates a timeout and at once awaits it. -/
inductive Stage (F V : Type) where
  | before (value : F)
  | awaiting (created : SimTime) (timeout : Timeout F)
  -- a poll has unwound: the harness has caught the panic, and the task is over
  | panicked (created : SimTime)
  | resolved (created time : SimTime) (result : Except Elapsed V)

def Stage.share (change : F → F) : Stage F V → Stage F V
  | .before value => .before (change value)
  | .awaiting created timeout => .awaiting created { timeout with value := change timeout.value }
  | .panicked created => .panicked created
  | .resolved created time result => .resolved created time result

/-- One poll of a task in `poll_until_deadlock`. -/
inductive Turn (F W : Type) where
  -- what another task does to sleeps, whom it wakes, and what it changes that the future sees
  | other (task : W) (steps : List (TaskStep W)) (wakes : List W) (change : F → F)
  | awaiting

structure Awaiting (F V W : Type) where
  host : Host W
  -- the tasks that are queued, by their wakers
  ready : List W
  stage : Stage F V
  -- how many turns the task has taken to create and await the timeout
  polled : Nat
  -- what the polls of the future have answered, and when
  answers : List (SimTime × Poll V)

namespace Awaiting

-- The loop starts with the instant at which it finds the clock.
def start (now : SimTime) (value : F) (spawned : List W) : Awaiting F V W :=
  { host := { sim := Simulation.start now, unvisited := [now] }
    ready := spawned
    stage := .before value
    polled := 0
    answers := [] }

section Loop

variable [DecidableEq W] (future : Future F V W) (waker : W) (duration : Duration)

def poll (self : Awaiting F V W) (created : SimTime) (timeout : Timeout F) (sim : Simulation W) : Awaiting F V W :=
  let polled := future sim timeout.value waker
  match timeout.poll future sim waker with
  | none =>
    { self with
      host := { self.host with sim := sim.polled polled.steps }
      ready := self.ready.filter (fun task => task ≠ waker) ++ polled.wakes
      stage := .panicked created }
  | some (answer, timeout, after) =>
    { self with
      host := { self.host with sim := after }
      ready := self.ready.filter (fun task => task ≠ waker) ++ polled.wakes
      stage := match answer with
        | .ready result => .resolved created sim.now result
        | .pending => .awaiting created timeout
      answers := self.answers ++ [(sim.now, polled.answer)] }

def counted (self : Awaiting F V W) : Awaiting F V W := { self with polled := self.polled + 1 }

def turn (self : Awaiting F V W) : Turn F W → Awaiting F V W
  | .other task steps wakes change =>
    { self with
      host := { self.host with sim := self.host.sim.polled steps }
      ready := self.ready.filter (fun queued => queued ≠ task) ++ wakes
      stage := self.stage.share change }
  | .awaiting =>
    match self.stage with
    | .before value =>
      let (timeout, sim) := timeout self.host.sim duration value
      self.counted.poll future waker self.host.sim.now timeout sim
    | .awaiting created timeout => self.counted.poll future waker created timeout self.host.sim
    | .panicked _ => self
    | .resolved _ _ _ => self

def turns (self : Awaiting F V W) (taken : List (Turn F W)) : Awaiting F V W :=
  taken.foldl (turn future waker duration) self

def woke (self : Awaiting F V W) (time : SimTime) : Awaiting F V W :=
  { self with
    host := { self.host with sim := self.host.woke time }
    ready := self.ready ++ ((self.host.sim.setNow time).driver.takeTimestep time).1 }

/-- The host moves to the first instant it has not visited, and stops when there is none. -/
def visit (self : Awaiting F V W) (taken : List (Turn F W)) : Awaiting F V W :=
  match self.host.unvisited.min? with
  | none => self
  | some time =>
    let after := (self.woke time).turns future waker duration taken
    { after with
      host :=
        { sim := after.host.sim.nextWakeup
          unvisited := self.host.unvisited.filter (fun other => other ≠ time) ++
            after.host.sim.driver.nextWakeup.1.toList } }

def run (self : Awaiting F V W) (visits : List (List (Turn F W))) : Awaiting F V W :=
  visits.foldl (visit future waker duration) self

/-- What a poll of the future does to sleeps: resets lie ahead, and the sleep of the timeout is out of its reach. -/
def Private (sim : Simulation W) (steps : List (TaskStep W)) (id : Nat) : Prop :=
  sim.ResetsAhead steps ∧ ∀ taken ∈ steps, ¬taken.Names id

/-- While the task awaits the timeout, all its polls are polls of the timeout. -/
def Allowed (self : Awaiting F V W) : Turn F W → Prop
  | .other task steps _ _ =>
    match self.stage with
    | .awaiting _ timeout => task ≠ waker ∧ Private self.host.sim steps timeout.delay.id
    | _ => self.host.sim.ResetsAhead steps
  | .awaiting =>
    match self.stage with
    | .before value =>
      let (timeout, sim) := timeout self.host.sim duration value
      Private sim (future sim value waker).steps timeout.delay.id
    | .awaiting _ timeout => Private self.host.sim (future self.host.sim timeout.value waker).steps timeout.delay.id
    | .panicked _ => True
    | .resolved _ _ _ => True

def Each (self : Awaiting F V W) : List (Turn F W) → Prop
  | [] => True
  | taken :: rest => self.Allowed future waker duration taken ∧ (self.turn future waker duration taken).Each rest

/-- `poll_until_deadlock` returns when no task is queued any more. -/
def Settles (self : Awaiting F V W) (taken : List (Turn F W)) : Prop :=
  ∀ time, self.host.unvisited.min? = some time →
    (self.woke time).Each future waker duration taken ∧ ((self.woke time).turns future waker duration taken).ready = []

def Follows (self : Awaiting F V W) : List (List (Turn F W)) → Prop
  | [] => True
  | taken :: rest => self.Settles future waker duration taken ∧ (self.visit future waker duration taken).Follows rest

end Loop

/-- How a timeout has resolved, by what the polls of its future had answered. -/
def Resolution (deadline time : SimTime) (answers : List (SimTime × Poll V)) : Except Elapsed V → Prop
  | .ok value => time ≤ deadline ∧
    ∃ before, answers = before ++ [(time, .ready value)] ∧ ∀ answer ∈ before, answer.2 = .pending
  | .error _ => time = deadline ∧ (time, .pending) ∈ answers ∧ ∀ answer ∈ answers, answer.2 = .pending

section Turns

variable [DecidableEq W] {future : Future F V W} {waker : W} {duration : Duration} {self : Awaiting F V W}

/-- While the task awaits, its sleep is registered, or it is queued to be polled at the deadline. -/
structure Waits (waker : W) (duration : Duration) (s : Awaiting F V W) (created : SimTime) (timeout : Timeout F) :
    Prop where
  deadline : timeout.delay.deadline = deadlineAfter created duration
  pending : ∀ answer ∈ s.answers, answer.2 = .pending
  alive : s.host.sim.sleeps timeout.delay.id = some timeout.delay.deadline
  born : timeout.delay.id < s.host.sim.nextId
  due : (⟨timeout.delay.deadline, waker, timeout.delay.id⟩ ∈ s.host.sim.driver.sleeps ∧
      s.host.sim.now < timeout.delay.deadline) ∨ (s.host.sim.now = timeout.delay.deadline ∧ waker ∈ s.ready)

def Owed (waker : W) (duration : Duration) (self : Awaiting F V W) : Prop :=
  match self.stage with
  | .before _ => self.answers = []
  | .awaiting created timeout => self.Waits waker duration created timeout
  | .panicked _ => False
  | .resolved created time result => Resolution (deadlineAfter created duration) time self.answers result

omit [DecidableEq W] in
theorem poll_registers {sim : Simulation W} {sleep : Sleep} (valid : sim.driver.WellFormed)
    (alive : sim.sleeps sleep.id = some sleep.deadline) (ahead : sim.now < sleep.deadline)
    (entry : ⟨sleep.deadline, waker, sleep.id⟩ ∈ sim.driver.sleeps ∨ ∀ e ∈ sim.driver.sleeps, e.id ≠ sleep.id) :
    ⟨sleep.deadline, waker, sleep.id⟩ ∈ (sim.task (.poll sleep.id waker)).driver.sleeps ∧
      (sim.task (.poll sleep.id waker)).sleeps = sim.sleeps ∧
      (sim.task (.poll sleep.id waker)).nextId = sim.nextId := by
  obtain ⟨registered, registers, waits⟩ := sleep.poll_ahead sim.driver waker ahead
  have after : sim.task (.poll sleep.id waker) = { sim with driver := registered } := by
    simp [Simulation.task, alive, waits]
  rw [after]
  have entries := (TimeDriver.wakeSleeper_correct valid registers).2.2
  exact ⟨(entries _).mpr (entry.imp_right fun unregistered => ⟨unregistered, rfl⟩), rfl, rfl⟩

theorem poll_owed (self : Awaiting F V W) (sim : Simulation W) {created : SimTime} {timeout : Timeout F}
    (deadline : timeout.delay.deadline = deadlineAfter created duration)
    (pending : ∀ answer ∈ self.answers, answer.2 = .pending)
    (valid : sim.driver.WellFormed) (reach : sim.now ≤ timeout.delay.deadline)
    (alive : sim.sleeps timeout.delay.id = some timeout.delay.deadline) (born : timeout.delay.id < sim.nextId)
    (entry : sim.now < timeout.delay.deadline →
      ⟨timeout.delay.deadline, waker, timeout.delay.id⟩ ∈ sim.driver.sleeps ∨
        ∀ e ∈ sim.driver.sleeps, e.id ≠ timeout.delay.id)
    (allowed : Private sim (future sim timeout.value waker).steps timeout.delay.id) :
    (∃ tasks, (self.poll future waker created timeout sim).host.sim = sim.polled tasks ∧ sim.ResetsAhead tasks) ∧
      (self.poll future waker created timeout sim).Owed waker duration ∧
      (self.poll future waker created timeout sim).answers.length = self.answers.length + 1 ∧
      (self.poll future waker created timeout sim).polled = self.polled := by
  obtain ⟨resets, apart⟩ := allowed
  obtain ⟨alive', born', entries⟩ := Simulation.polled_apart _ valid apart born
  rw [alive] at alive'
  cases answer : (future sim timeout.value waker).answer with
  | ready value =>
    rw [poll, Timeout.poll_value answer]
    refine ⟨⟨_, rfl, resets⟩, ?_, by simp, rfl⟩
    exact ⟨deadline ▸ reach, self.answers, by rw [answer], pending⟩
  | pending =>
    have all : ∀ given ∈ self.answers ++ [(sim.now, (future sim timeout.value waker).answer)], given.2 = .pending := by
      intro given member
      rcases List.mem_append.mp member with before | last
      · exact pending given before
      · rw [List.mem_singleton.mp last]
        exact answer
    rcases reach.eq_or_lt with reached | ahead
    · rw [poll, Timeout.poll_elapsed answer reached.ge]
      refine ⟨⟨_, rfl, resets⟩, ?_, by simp, rfl⟩
      refine ⟨reached.trans deadline, ?_, all⟩
      rw [answer]
      exact List.mem_append_right _ (List.mem_singleton.mpr rfl)
    · rw [poll, Timeout.poll_waits answer ahead alive']
      have resetsAll := (Simulation.resetsAhead_append sim (future sim timeout.value waker).steps
        [.poll timeout.delay.id waker]).mpr ⟨resets, trivial⟩
      refine ⟨⟨_, rfl, resetsAll⟩, ?_, by simp, rfl⟩
      have entry' := (entry ahead).imp (entries _ rfl).mpr fun none e stored same =>
        none e ((entries e same).mp stored) same
      have now := Simulation.polled_now (future sim timeout.value waker).steps sim
      obtain ⟨stored, sleeps, nextId⟩ :=
        poll_registers (Simulation.polled_wellFormed _ valid) alive' (now ▸ ahead) entry'
      refine ⟨deadline, all, ?_, ?_, Or.inl ?_⟩
      · rw [Simulation.polled_append]
        exact sleeps ▸ alive'
      · rw [Simulation.polled_append]
        exact nextId ▸ born'
      · rw [Simulation.polled_now, Simulation.polled_append]
        exact ⟨stored, ahead⟩

def Tracked (sim : Simulation W) : Prop := ∃ polled : Polled W, polled.Sound ∧ polled.sim = sim

omit [DecidableEq W] in
theorem Tracked.step {sim : Simulation W} (tracked : Tracked sim) (taken : Step W) : Tracked (sim.step taken) := by
  obtain ⟨polled, sound, rfl⟩ := tracked
  exact ⟨polled.step taken, Polled.step_sound sound taken, rfl⟩

omit [DecidableEq W] in
theorem Tracked.polled {sim : Simulation W} (tracked : Tracked sim) (tasks : List (TaskStep W)) :
    Tracked (sim.polled tasks) := by
  induction tasks generalizing sim with
  | nil => exact tracked
  | cons taken rest ih => exact ih (tracked.step (.task taken))

structure Turning (waker : W) (duration : Duration) (woke : Simulation W) (s : Awaiting F V W) : Prop where
  reached : ∃ tasks, s.host.sim = woke.polled tasks ∧ woke.ResetsAhead tasks
  tracked : Tracked s.host.sim
  owed : s.Owed waker duration
  counted : s.answers.length = s.polled

omit [DecidableEq W] in
theorem Turning.goOn {woke : Simulation W} {after : Awaiting F V W} (turning : self.Turning waker duration woke)
    (tasks : List (TaskStep W)) (sim : after.host.sim = self.host.sim.polled tasks)
    (resets : self.host.sim.ResetsAhead tasks) (owed : after.Owed waker duration)
    (counted : after.answers.length = after.polled) : after.Turning waker duration woke := by
  obtain ⟨⟨before, same, ahead⟩, tracked, _⟩ := turning
  refine ⟨⟨before ++ tasks, ?_, ?_⟩, sim ▸ tracked.polled tasks, owed, counted⟩
  · rw [sim, same, Simulation.polled_append]
  · exact (Simulation.resetsAhead_append _ before tasks).mpr ⟨ahead, same ▸ resets⟩

theorem turn_other {woke : Simulation W} {task : W} {steps : List (TaskStep W)} {wakes : List W} {change : F → F}
    (turning : self.Turning waker duration woke)
    (allowed : self.Allowed future waker duration (.other task steps wakes change)) :
    (self.turn future waker duration (.other task steps wakes change)).Turning waker duration woke := by
  obtain ⟨polled, sound, sim⟩ := turning.tracked
  have valid := sim ▸ sound.valid
  have owed := turning.owed
  unfold Owed at owed
  unfold Allowed at allowed
  cases stage : self.stage with
  | before value =>
    rw [stage] at owed allowed
    refine turning.goOn steps rfl allowed ?_ turning.counted
    simpa [Owed, turn, stage, Stage.share] using owed
  | awaiting created timeout =>
    rw [stage] at owed allowed
    obtain ⟨differs, resets, apart⟩ := allowed
    refine turning.goOn steps rfl resets ?_ turning.counted
    obtain ⟨alive, born, entries⟩ := Simulation.polled_apart steps valid apart owed.born
    have now := Simulation.polled_now steps self.host.sim
    have waits : (self.turn future waker duration (.other task steps wakes change)).Waits waker duration created
        { timeout with value := change timeout.value } := by
      refine ⟨owed.deadline, owed.pending, alive.trans owed.alive, born, ?_⟩
      rcases owed.due with ⟨stored, ahead⟩ | ⟨reached, queued⟩
      · exact Or.inl ⟨(entries _ rfl).mpr stored, now.symm ▸ ahead⟩
      · refine Or.inr ⟨now.trans reached, List.mem_append_left _ (List.mem_filter.mpr ⟨queued, ?_⟩)⟩
        simpa using differs.symm
    simpa [Owed, turn, stage, Stage.share] using waits
  | panicked created =>
    rw [stage] at owed
    exact owed.elim
  | resolved created time result =>
    rw [stage] at owed allowed
    refine turning.goOn steps rfl allowed ?_ turning.counted
    simpa [Owed, turn, stage, Stage.share] using owed

theorem turn_awaiting {woke : Simulation W} (turning : self.Turning waker duration woke)
    (allowed : self.Allowed future waker duration .awaiting) :
    (self.turn future waker duration .awaiting).Turning waker duration woke := by
  obtain ⟨polled, sound, sim⟩ := turning.tracked
  have valid := sim ▸ sound.valid
  have owed := turning.owed
  unfold Owed at owed
  unfold Allowed at allowed
  cases stage : self.stage with
  | before value =>
    rw [stage] at owed allowed
    -- the sleep is new, so that no entry has its id
    obtain ⟨_, unregistered⟩ := sound.fresh _ le_rfl
    rw [Polled.Registered, sim] at unregistered
    have deadline : (timeout self.host.sim duration value).1.delay.deadline =
      deadlineAfter self.host.sim.now duration := rfl
    have alive : (timeout self.host.sim duration value).2.sleeps self.host.sim.nextId =
        some (deadlineAfter self.host.sim.now duration) := by
      simp [timeout, Simulation.task]
    obtain ⟨⟨tasks, same, resets⟩, owed, grown, counts⟩ :=
      poll_owed self.counted (timeout self.host.sim duration value).2 deadline
      (by simp [counted, owed]) valid (deadlineAfter_le _ _) alive (Nat.lt_succ_self _)
      (fun _ => Or.inr fun e stored same => unregistered ⟨e, stored, same⟩) allowed
    have turned : self.turn future waker duration .awaiting = self.counted.poll future waker self.host.sim.now
        (timeout self.host.sim duration value).1 (timeout self.host.sim duration value).2 := by
      simp [turn, stage]
    refine turning.goOn (.newTimeout (deadlineAfter self.host.sim.now duration) :: tasks) ?_ resets ?_ ?_
    · rw [turned, same]
      rfl
    · rw [turned]
      exact owed
    · rw [turned, grown, counts]
      exact congrArg (· + 1) turning.counted
  | awaiting created timeout =>
    rw [stage] at owed allowed
    have reach : self.host.sim.now ≤ timeout.delay.deadline := by
      rcases owed.due with ⟨_, ahead⟩ | ⟨reached, _⟩
      · exact ahead.le
      · exact reached.le
    have entry (ahead : self.host.sim.now < timeout.delay.deadline) :
        ⟨timeout.delay.deadline, waker, timeout.delay.id⟩ ∈ self.host.sim.driver.sleeps := by
      rcases owed.due with ⟨stored, _⟩ | ⟨reached, _⟩
      · exact stored
      · exact absurd reached ahead.ne
    obtain ⟨⟨tasks, same, resets⟩, owed, grown, counts⟩ := poll_owed self.counted _ owed.deadline owed.pending valid reach owed.alive
      owed.born (fun ahead => Or.inl (entry ahead)) allowed
    have turned : self.turn future waker duration .awaiting =
        self.counted.poll future waker created timeout self.host.sim := by
      simp [turn, stage]
    rw [turned]
    refine turning.goOn tasks same resets owed ?_
    rw [grown, counts]
    exact congrArg (· + 1) turning.counted
  | panicked created =>
    rw [stage] at owed
    exact owed.elim
  | resolved created time result =>
    have turned : self.turn future waker duration .awaiting = self := by
      simp [turn, stage]
    rw [turned]
    exact turning

theorem turns_turning {woke : Simulation W} (taken : List (Turn F W)) (turning : self.Turning waker duration woke)
    (each : self.Each future waker duration taken) :
    (self.turns future waker duration taken).Turning waker duration woke := by
  induction taken generalizing self with
  | nil => exact turning
  | cons first rest ih =>
    refine ih ?_ each.2
    cases first with
    | other task steps wakes change => exact turn_other turning each.1
    | awaiting => exact turn_awaiting turning each.1

end Turns

section Visits

variable [DecidableEq W] {future : Future F V W} {waker : W} {duration : Duration} {self : Awaiting F V W}

/-- What holds between two visits; no instant before `soonest` is left to visit. -/
structure Between (waker : W) (duration : Duration) (soonest : Nat) (s : Awaiting F V W) : Prop where
  announced : s.host.Announced
  tracked : Tracked s.host.sim
  owed : s.Owed waker duration
  counted : s.answers.length = s.polled
  settled : s.ready = [] ∨ ∃ value, s.stage = .before value
  onward : ∀ time ∈ s.host.unvisited, s.host.sim.now ≤ time ∧ soonest ≤ time.nanos

omit [DecidableEq W] in
theorem Between.allowed {soonest : Nat} {time : SimTime} (tasks : List (TaskStep W))
    (between : self.Between waker duration soonest) (first : self.host.unvisited.min? = some time)
    (resets : (self.host.woke time).ResetsAhead tasks) : self.host.Allowed ⟨time, tasks⟩ := by
  obtain ⟨listed, least⟩ := List.min?_eq_some_iff.mp first
  exact ⟨(between.onward time listed).1, least, resets⟩

omit [DecidableEq W] in
theorem Between.woke {soonest : Nat} {time : SimTime} (between : self.Between waker duration soonest)
    (first : self.host.unvisited.min? = some time) :
    (self.woke time).Turning waker duration (self.host.woke time) := by
  have current := between.announced.reaches (between.allowed [] first trivial)
  refine ⟨⟨[], rfl, trivial⟩, (between.tracked.step (.setNow time)).step .takeTimestep, ?_, between.counted⟩
  have owed := between.owed
  unfold Owed at owed ⊢
  cases stage : self.stage with
  | before value =>
    rw [stage] at owed
    simpa [Awaiting.woke, stage] using owed
  | awaiting created timeout =>
    rw [stage] at owed
    have waits : (self.woke time).Waits waker duration created timeout := by
      refine ⟨owed.deadline, owed.pending, owed.alive, owed.born, ?_⟩
      have idle : self.ready = [] := by
        rcases between.settled with idle | ⟨value, before⟩
        · exact idle
        · simp [stage] at before
      have stored : ⟨timeout.delay.deadline, waker, timeout.delay.id⟩ ∈ self.host.sim.driver.sleeps := by
        rcases owed.due with ⟨stored, _⟩ | ⟨_, queued⟩
        · exact stored
        · simp [idle] at queued
      obtain ⟨popped, left⟩ := TimeDriver.takeTimestep_mem between.announced.valid current
        ⟨timeout.delay.deadline, waker, timeout.delay.id⟩
      rcases (current _ stored).lt_or_eq with ahead | reached
      · exact Or.inl ⟨left.mpr ⟨stored, ahead⟩, ahead⟩
      · refine Or.inr ⟨reached, List.mem_append_right _ (List.mem_map.mpr ⟨_, popped.mpr ⟨stored, reached.symm⟩, rfl⟩)⟩
    simpa [Awaiting.woke, stage] using waits
  | panicked created =>
    rw [stage] at owed
    exact owed.elim
  | resolved created time' result =>
    rw [stage] at owed
    simpa [Awaiting.woke, stage] using owed

omit [DecidableEq W] in
theorem nextWakeup_ahead {sim : Simulation W} {time : SimTime} (ahead : sim.Ahead)
    (announced : sim.driver.nextWakeup.1 = some time) : sim.now < time := by
  obtain ⟨entry, stored, rfl⟩ := Simulation.nextWakeup_stored announced
  exact ahead entry stored

theorem visit_between {soonest : Nat} (taken : List (Turn F W)) (between : self.Between waker duration soonest)
    (settles : self.Settles future waker duration taken) :
    (self.visit future waker duration taken).Between waker duration (soonest + 1) := by
  unfold visit
  cases first : self.host.unvisited.min? with
  | none =>
    obtain ⟨announced, tracked, owed, counted, settled, _⟩ := between
    refine ⟨announced, tracked, owed, counted, settled, ?_⟩
    simp [List.min?_eq_none_iff.mp first]
  | some time =>
    obtain ⟨each, idle⟩ := settles time first
    obtain ⟨⟨tasks, same, resets⟩, tracked, owed, counted⟩ := turns_turning taken (between.woke first) each
    have allowed := between.allowed tasks first resets
    have announced := Host.visit_announced between.announced allowed
    obtain ⟨_, ahead, now, _, _⟩ := Host.polled_visit between.announced allowed
    have visited : self.host.visit ⟨time, tasks⟩ =
        { sim := ((self.woke time).turns future waker duration taken).host.sim.nextWakeup
          unvisited := self.host.unvisited.filter (fun other => other ≠ time) ++
            ((self.woke time).turns future waker duration taken).host.sim.driver.nextWakeup.1.toList } := by
      simp only [Host.visit, same]
    dsimp only
    rw [← visited]
    refine ⟨announced, ?_, ?_, counted, Or.inl idle, ?_⟩
    · rw [visited]
      exact tracked.step .nextWakeup
    · unfold Owed at owed ⊢
      cases stage : ((self.woke time).turns future waker duration taken).stage with
      | before value =>
        rw [stage] at owed
        exact owed
      | awaiting created timeout =>
        rw [stage] at owed
        obtain ⟨deadline, pending, alive, born, due⟩ := owed
        refine ⟨deadline, pending, ?_, ?_, ?_⟩
        · rw [visited]
          exact alive
        · rw [visited]
          exact born
        · rw [visited]
          change (_ ∈ ((self.woke time).turns future waker duration taken).host.sim.driver.nextWakeup.2.sleeps ∧ _) ∨ _
          rw [TimeDriver.nextWakeup_sleeps]
          exact due
      | panicked created =>
        rw [stage] at owed
        exact owed.elim
      | resolved created time' result =>
        rw [stage] at owed
        exact owed
    · intro other listed
      have later : time < other := by
        rcases List.mem_append.mp listed with before | new
        · obtain ⟨before, differs⟩ := List.mem_filter.mp before
          have differs : other ≠ time := by simpa using differs
          exact lt_of_le_of_ne ((List.min?_eq_some_iff.mp first).2 other before) differs.symm
        · have announces := nextWakeup_ahead ahead (Option.mem_toList.mp new)
          rwa [now] at announces
      have soon := (between.onward time (List.min?_eq_some_iff.mp first).1).2
      have clock : (self.host.visit ⟨time, tasks⟩).sim.now = time := now
      exact ⟨clock.symm ▸ later.le, soon.trans_lt (SimTime.lt_iff.mp later)⟩

omit [DecidableEq W] in
/-- The loop goes on while a sleep is registered, and does not pass its deadline. -/
theorem announced_next {host : Host W} {entry : Entry W} (announced : host.Announced)
    (stored : entry ∈ host.sim.driver.sleeps) :
    ∃ time ∈ host.unvisited, host.sim.now < time ∧ time ≤ entry.deadline := by
  cases peeked : MaxHeap.peek host.sim.driver.sleeps with
  | none => simp [TimeDriver.peek_none.mp peeked] at stored
  | some head =>
    exact ⟨head.deadline, announced.earliest head peeked, announced.ahead head (TimeDriver.peek_mem peeked),
      announced.valid.peek_earliest peeked stored⟩

theorem run_between {soonest : Nat} (visits : List (List (Turn F W)))
    (between : self.Between waker duration soonest) (follows : self.Follows future waker duration visits) :
    (self.run future waker duration visits).Between waker duration (soonest + visits.length) := by
  induction visits generalizing self soonest with
  | nil => exact between
  | cons taken rest ih =>
    have later := ih (visit_between taken between follows.1) follows.2
    rw [List.length_cons, Nat.add_comm rest.length 1, ← Nat.add_assoc]
    exact later

omit [DecidableEq W] in
theorem start_between (now : SimTime) (value : F) (spawned : List W) :
    (start now value spawned : Awaiting F V W).Between waker duration now.nanos := by
  obtain ⟨valid, ahead, emitted, _⟩ := Host.start_announced (W := W) now
  refine ⟨⟨valid, ahead, ?_, ?_⟩, ⟨_, Polled.start_sound now, rfl⟩, rfl, rfl, Or.inr ⟨value, rfl⟩, ?_⟩
  · simp [start, Simulation.start, TimeDriver.new]
  · simp [start, Simulation.start, TimeDriver.new, MaxHeap.peek]
  · simp [start, Simulation.start]

end Visits

/-- A timeout resolves to the value of its future if that is ready at some poll up to the deadline, and else to an
error, at the deadline. Until then the loop has an instant to visit that is not after the deadline, each visit to a
later instant than the one before. The first turn that the task takes creates the timeout, and each one polls it. -/
theorem timeout_resolves [DecidableEq W] (future : Future F V W) (waker : W) (duration : Duration) (now : SimTime) (value : F)
    (spawned : List W) (visits : List (List (Turn F W)))
    (follows : (start now value spawned).Follows future waker duration visits) :
    let last := (start now value spawned).run future waker duration visits
    last.answers.length = last.polled ∧
    match last.stage with
    | .before _ => last.polled = 0
    | .awaiting created _ =>
      (∀ answer ∈ last.answers, answer.2 = .pending) ∧
        last.host.sim.now < deadlineAfter created duration ∧
        (∃ time ∈ last.host.unvisited, last.host.sim.now < time ∧ time ≤ deadlineAfter created duration) ∧
        now.nanos + visits.length ≤ (deadlineAfter created duration).nanos
    | .panicked _ => False
    | .resolved created time result => Resolution (deadlineAfter created duration) time last.answers result := by
  intro last
  have between := run_between visits (start_between now value spawned) follows
  have owed := between.owed
  refine ⟨between.counted, ?_⟩
  unfold Owed at owed
  split
  next before stage =>
    rw [stage] at owed
    exact between.counted.symm.trans (congrArg List.length owed)
  next created timeout stage =>
    rw [stage] at owed
    obtain ⟨deadline, pending, _, _, due⟩ := owed
    have idle : last.ready = [] := by
      rcases between.settled with idle | ⟨value, before⟩
      · exact idle
      · simp [last, before] at stage
    rcases due with ⟨stored, ahead⟩ | ⟨_, queued⟩
    · obtain ⟨time, listed, later, least⟩ := announced_next between.announced stored
      rw [deadline] at ahead least
      have soon := (between.onward time listed).2
      exact ⟨pending, ahead, ⟨time, listed, later, least⟩, soon.trans (SimTime.le_iff.mp least)⟩
    · simp [last, idle] at queued
  next created stage =>
    rw [stage] at owed
    exact owed
  next created time result stage =>
    rw [stage] at owed
    exact owed

def firstSleep : Future Unit Unit Unit := fun sim _ waker =>
  match sim.answer 0 waker with
  | some answer => ⟨answer, (), [.poll 0 waker], []⟩
  | none => ⟨.pending, (), [], []⟩

/-- The future and its timeout are due at the same instant: the value is not dropped. -/
theorem timeout_resolves_tie :
    let last := (start (.ofNanos 0) () [()]).run firstSleep () ⟨10, by decide⟩
      [[.other () [.newTimeout (.ofNanos 10)] [()] id, .awaiting], [.awaiting]]
    last.stage = .resolved (.ofNanos 0) (.ofNanos 10) (.ok ()) ∧
      Resolution (.ofNanos 10) (.ofNanos 10) last.answers (.ok ()) := by
  intro last
  have stage : last.stage = .resolved (.ofNanos 0) (.ofNanos 10) (.ok ()) := rfl
  have follows : (start (.ofNanos 0) () [()]).Follows firstSleep () ⟨10, by decide⟩
      [[.other () [.newTimeout (.ofNanos 10)] [()] id, .awaiting], [.awaiting]] := by
    refine ⟨?_, ?_, trivial⟩
    · intro time first
      obtain rfl : SimTime.ofNanos 0 = time := Option.some.inj first
      refine ⟨⟨trivial, ⟨trivial, ?_⟩, trivial⟩, rfl⟩
      intro taken member
      obtain rfl : taken = .poll 0 () := List.mem_singleton.mp member
      exact Nat.zero_ne_one
    · intro time first
      obtain rfl : SimTime.ofNanos 10 = time := Option.some.inj first
      refine ⟨⟨⟨trivial, ?_⟩, trivial⟩, rfl⟩
      intro taken member
      obtain rfl : taken = .poll 0 () := List.mem_singleton.mp member
      exact Nat.zero_ne_one
  exact ⟨stage, (timeout_resolves firstSleep () ⟨10, by decide⟩ (.ofNanos 0) () [()] _ follows).2⟩

end Awaiting

end Osaka.Time
