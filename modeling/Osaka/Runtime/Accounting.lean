import Osaka.Runtime.Turns

set_option autoImplicit false

namespace Osaka

open Unwind Unwind.Exec Thread Time

variable {X A B : Type} {rt : RuntimeId}

/-- What one run of `rt` records: polls of its own tasks and of its root future, and what happens inside
them. -/
def Event.Driven (rt : RuntimeId) : Event A → Prop
  | .scheduled _ _ _ => True
  | .ran rt' place _ _ => rt' = rt ∧ place ≠ .nowhere
  | .spawned _ => True
  | .contextSet _ => True
  | .wokeRoot _ => True
  | .rootPolling rt' => rt' = rt
  | .rootPolled rt' _ => rt' = rt

theorem Event.Passive.driven {event : Event A} (passive : event.Passive) : event.Driven rt := by
  cases event <;> trivial

theorem turn_cases (core : Core) {s : Thread X A} (driving : Driving rt s) :
    ((s.runtimes rt).queue = some [] ∧ core.tasks = [] ∧
        nextEntry rt core s = (.returned (none, core.ticked), s)) ∨
      ∃ place task core₁ s₁, place ≠ .nowhere ∧
        nextEntry rt core s = (.returned (some (place, task), core₁), s₁) := by
  obtain ⟨queue, stored⟩ := Option.isSome_iff_exists.mp driving.alive
  rcases nextEntry_cases core stored with ⟨empty, drained, ended⟩ | ⟨task, rest, _, ended⟩ |
    ⟨task, rest, _, ended⟩
  · exact .inl ⟨drained ▸ stored, empty, ended⟩
  · exact .inr ⟨.core, task, _, _, by simp, ended⟩
  · exact .inr ⟨.shared, task, _, _, by simp, ended⟩

theorem Progress.ticked (rt : RuntimeId) (core : Core) (s : Thread X A) :
    Progress rt core s core.ticked s [] := by
  constructor <;> simp [Core.ticked]

section Loop

variable {env : Env X A}

theorem pollUntilDeadlockTurn_empty {turn : Turn} {s : Thread X A}
    (empty : nextEntry rt turn.core s = (.returned (none, turn.core.ticked), s)) :
    pollUntilDeadlockTurn env rt turn s =
      (.returned (if turn.c = 0 then .inr turn.core.ticked else .inl (.top turn.core.ticked)), s) := by
  simp only [pollUntilDeadlockTurn, turn.core.handled]
  exact (bind_returned empty).trans rfl

theorem pollUntilDeadlockTurn_task {turn : Turn} {s s₁ : Thread X A} {place : Place} {task : Notified}
    {core₁ : Core} (taken : nextEntry rt turn.core s = (.returned (some (place, task), core₁), s₁)) :
    pollUntilDeadlockTurn env rt turn s = (do
      let (core, _) ← Context.enter rt core₁ (runTask env rt place task)
      return .inl (if turn.i + 1 < 10 then ⟨core, turn.c + 1, turn.i + 1⟩ else .top core) :
        Act X A (Turn ⊕ Core)) s₁ := by
  simp only [pollUntilDeadlockTurn, turn.core.handled]
  exact bind_returned taken

/-- What a run that started in `s` with `core` has recorded when it has come to `t` with `core'`. -/
def Accounted (rt : RuntimeId) (core : Core) (s : Thread X A) (core' : Core) (t : Thread X A) : Prop :=
  ∃ events, Progress rt core s core' t events ∧ ∀ event ∈ events, event.Driven rt

namespace Accounted

variable {core core' core'' : Core} {s t u : Thread X A} {events : List (Event A)}

theorem refl (rt : RuntimeId) (core : Core) (s : Thread X A) : Accounted rt core s core s :=
  ⟨[], Progress.refl rt core s, by simp⟩

theorem next (accounted : Accounted rt core s core' t) (progress : Progress rt core' t core'' u events)
    (driven : ∀ event ∈ events, event.Driven rt) : Accounted rt core s core'' u := by
  obtain ⟨earlier, before, drivenBefore⟩ := accounted
  refine ⟨earlier ++ events, before.trans progress, ?_⟩
  intro event member
  rcases List.mem_append.mp member with member | member
  · exact drivenBefore event member
  · exact driven event member

theorem ticked (accounted : Accounted rt core s core' t) : Accounted rt core s core'.ticked t :=
  accounted.next (Progress.ticked rt core' t) (by simp)

end Accounted

theorem task_driven {s : Thread X A} {place : Place} {task : Notified} {events : List (Event A)}
    (placed : place ≠ .nowhere) (passive : ∀ event ∈ events, event.Passive) :
    ∀ event ∈ Event.ran rt place task s.context :: events, event.Driven rt := by
  intro event member
  rcases List.mem_cons.mp member with rfl | member
  · exact ⟨rfl, placed⟩
  · exact (passive event member).driven

/-- A turn of `poll_until_deadlock` never unwinds, and is the last one only with both queues empty. -/
theorem pollUntilDeadlockTurn_cases (contained : env.Contained) {core : Core} {turn : Turn}
    {s t : Thread X A} (driving : Driving rt t) (accounted : Accounted rt core s turn.core t) :
    (∃ core', pollUntilDeadlockTurn env rt turn t = (.returned (.inr core'), t) ∧
        Accounted rt core s core' t ∧ core'.tasks = [] ∧ (t.runtimes rt).queue = some []) ∨
    ∃ turn' t', pollUntilDeadlockTurn env rt turn t = (.returned (.inl turn'), t') ∧
      Accounted rt core s turn'.core t' ∧ Driving rt t' := by
  rcases turn_cases turn.core driving with ⟨drained, empty, none⟩ |
    ⟨place, task, core₁, t₁, placed, taken⟩
  · rw [pollUntilDeadlockTurn_empty none]
    by_cases idle : turn.c = 0
    · exact .inl ⟨turn.core.ticked, by simp [idle], accounted.ticked, empty, drained⟩
    · exact .inr ⟨.top turn.core.ticked, t, by simp [idle], accounted.ticked, driving⟩
  · rw [pollUntilDeadlockTurn_task taken]
    obtain ⟨core₂, t', events, progress, passive, driving', _, ended⟩ := task_turn contained driving taken
    have later := accounted.next progress (task_driven placed passive)
    refine .inr ⟨_, t', bind_returned ended, ?_, driving'⟩
    split <;> exact later

theorem pollUntilDeadlock_loop (contained : env.Contained) (fuel : Nat) (core : Core) {s : Thread X A}
    (driving : Driving rt s) :
    ∃ core' t, Accounted rt core s core' t ∧
      (loop (pollUntilDeadlockTurn env rt) fuel (.top core) s = (.running, t) ∨
        loop (pollUntilDeadlockTurn env rt) fuel (.top core) s = (.returned core', t) ∧
          core'.tasks = [] ∧ (t.runtimes rt).queue = some []) := by
  obtain ⟨turn, t, reached, ended⟩ := loop_ends (pollUntilDeadlockTurn env rt) fuel (.top core) s
  have inv : Driving rt t ∧ Accounted rt core s turn.core t := by
    refine reached.invariant (fun turn t => Driving rt t ∧ Accounted rt core s turn.core t)
      ⟨driving, Accounted.refl rt core s⟩ ?_
    rintro turn t turn' t' ⟨driving, accounted⟩ turned
    rcases pollUntilDeadlockTurn_cases contained driving accounted with
      ⟨core', last, _⟩ | ⟨next, u, stepped, later, driving'⟩
    · simp [last] at turned
    · rw [stepped] at turned
      cases turned
      exact ⟨driving', later⟩
  obtain ⟨driving', accounted⟩ := inv
  rcases ended with fuelless | ⟨exit, left, ended⟩
  · exact ⟨turn.core, t, accounted, .inl fuelless⟩
  · rcases pollUntilDeadlockTurn_cases contained driving' accounted with
      ⟨core', last, later, empty, drained⟩ | ⟨next, u, stepped, _⟩
    · rw [last] at left ended
      cases left
      exact ⟨core', t, later, .inr ⟨ended, empty, drained⟩⟩
    · rw [stepped] at left
      cases left

end Loop

section Run

variable {env : Env X A} {core : Core} {s : Thread X A}

theorem beginRun_driving (core : Core) (alive : (s.runtimes rt).queue.isSome = true) :
    Driving rt ((BasicScheduler.guarded rt core s).beginRun rt) where
  entered := rfl
  slot := by simp [beginRun, BasicScheduler.guarded]
  alive := by simp [beginRun, BasicScheduler.guarded, alive]
  cell := by simp [beginRun]

/-- What a run has recorded when the guards are dropped and the core is back in its slot. -/
structure Finished (rt : RuntimeId) (core : Core) (s : Thread X A) (core' : Core) (t : Thread X A)
    (events : List (Event A)) : Prop where
  trace : t.trace = s.trace ++ events
  stored : (t.runtimes rt).core = some core'
  tasks : core.tasks ++ scheduledTo rt .core events = ranFrom rt .core events ++ core'.tasks
  queue : ∀ queue, (s.runtimes rt).queue = some queue → ∃ queue', (t.runtimes rt).queue = some queue' ∧
    queue ++ scheduledTo rt .shared events = ranFrom rt .shared events ++ queue'
  kept : scheduledTo rt .nowhere events = []
  reads : ReadsInForce s.context events
  driven : ∀ event ∈ events, event.Driven rt

theorem Accounted.finished {core' : Core} {t : Thread X A}
    (accounted : Accounted rt core ((BasicScheduler.guarded rt core s).beginRun rt) core' t) :
    ∃ events, Finished rt core s core' (storeCore rt core' ((BasicScheduler.guarded rt core s).endRun t))
      events := by
  obtain ⟨events, progress, driven⟩ := accounted
  refine ⟨events, ?_⟩
  exact
    { trace := progress.trace
      stored := by simp [storeCore]
      tasks := progress.tasks
      queue := by
        intro queue alive
        obtain ⟨queue', left, fifo⟩ := progress.queue queue (by
          simpa [beginRun, BasicScheduler.guarded] using alive)
        exact ⟨queue', by simpa [storeCore, endRun] using left, fifo⟩
      kept := progress.kept
      reads := progress.reads
      driven := driven }

theorem pollUntilDeadlock_ends (contained : env.Contained) (fuel : Nat)
    (stored : (s.runtimes rt).core = some core) (alive : (s.runtimes rt).queue.isSome = true)
    (free : s.entered.isEntered = false) :
    ∃ core' t events,
      (BasicScheduler.pollUntilDeadlock env fuel rt s = (.running, t) ∧ t.trace = s.trace ++ events ∧
        ReadsInForce s.context events ∧ ∀ event ∈ events, event.Driven rt) ∨
      (BasicScheduler.pollUntilDeadlock env fuel rt s = (.returned (), t) ∧
        Finished rt core s core' t events ∧ core'.tasks = [] ∧ (t.runtimes rt).queue = some []) := by
  let begun := (BasicScheduler.guarded rt core s).beginRun rt
  have held : ((BasicScheduler.guarded rt core s).runtimes rt).contextCore = some core := by
    simp [BasicScheduler.guarded]
  obtain ⟨core', t, accounted, ended | ⟨ended, empty, drained⟩⟩ :=
    pollUntilDeadlock_loop contained fuel core (beginRun_driving core alive)
  · obtain ⟨events, progress, driven⟩ := accounted
    refine ⟨core', t, events, .inl ⟨?_, progress.trace, progress.reads, driven⟩⟩
    refine (bind_returned (BasicScheduler.takeCore_some stored)).trans (CoreGuard.consume_running ?_)
    exact CoreGuard.enter_running held free (bind_running ended)
  · obtain ⟨events, finished⟩ := accounted.finished
    refine ⟨core', _, events, .inr ⟨?_, finished, empty, ?_⟩⟩
    · refine (bind_returned (BasicScheduler.takeCore_some stored)).trans ?_
      refine (CoreGuard.consume_returned (CoreGuard.enter_returned held free (bind_returned ended))).trans ?_
      simp [CoreGuard.drop, storeCore]
    · simpa [storeCore, endRun] using drained

end Run

section Exactness

def Event.scheduling (rt : RuntimeId) : Event A → Option (Place × Notified)
  | .scheduled rt' place task => if rt' = rt then some (place, task) else none
  | _ => none

def Event.running (rt : RuntimeId) : Event A → Option (Place × Notified)
  | .ran rt' place task _ => if rt' = rt then some (place, task) else none
  | _ => none

/-- Everything that was scheduled on `rt`, wherever it went. -/
def scheduled (rt : RuntimeId) (events : List (Event A)) : List Notified :=
  events.filterMap fun event => (event.scheduling rt).map Prod.snd

def ran (rt : RuntimeId) (events : List (Event A)) : List Notified :=
  events.filterMap fun event => (event.running rt).map Prod.snd

/-- Selecting by place and joining the places loses nothing. -/
theorem places_perm (pick : Event A → Option (Place × Notified)) (events : List (Event A)) :
    (events.filterMap fun event => (pick event).map Prod.snd).Perm
      ([Place.core, .shared, .nowhere].flatMap fun place =>
        events.filterMap fun event => ((pick event).filter (·.1 = place)).map Prod.snd) := by
  rw [List.perm_iff_count]
  intro task
  induction events with
  | nil => simp
  | cons event rest ih =>
    rcases picked : pick event with _ | ⟨place, chosen⟩
    · simpa [picked] using ih
    · cases place <;> simp [picked, List.count_cons, Option.filter] at ih ⊢ <;> omega

theorem scheduledTo_eq (rt : RuntimeId) (place : Place) (events : List (Event A)) :
    scheduledTo rt place events =
      events.filterMap fun event => ((event.scheduling rt).filter (·.1 = place)).map Prod.snd := by
  refine List.filterMap_congr fun event _ => ?_
  cases event with
  | scheduled rt' place' task => by_cases own : rt' = rt <;> simp [Event.scheduling, own, Option.filter]
  | _ => rfl

theorem ranFrom_eq (rt : RuntimeId) (place : Place) (events : List (Event A)) :
    ranFrom rt place events =
      events.filterMap fun event => ((event.running rt).filter (·.1 = place)).map Prod.snd := by
  refine List.filterMap_congr fun event _ => ?_
  cases event with
  | ran rt' place' task read => by_cases own : rt' = rt <;> simp [Event.running, own, Option.filter]
  | _ => rfl

theorem scheduled_perm (rt : RuntimeId) (events : List (Event A)) :
    (scheduled rt events).Perm (scheduledTo rt .core events ++ (scheduledTo rt .shared events ++
      scheduledTo rt .nowhere events)) := by
  have split := places_perm (Event.scheduling rt) events
  simpa [scheduledTo_eq, scheduled] using split

theorem ran_perm (rt : RuntimeId) (events : List (Event A)) :
    (ran rt events).Perm (ranFrom rt .core events ++ (ranFrom rt .shared events ++
      ranFrom rt .nowhere events)) := by
  have split := places_perm (Event.running rt) events
  simpa [ranFrom_eq, ran] using split

theorem ranFrom_nowhere {events : List (Event A)}
    (driven : ∀ event ∈ events, event.Driven rt) : ranFrom rt .nowhere events = [] := by
  refine List.filterMap_eq_nil_iff.mpr fun event member => ?_
  have legal := driven event member
  cases event with
  | ran rt' place task read => simp [legal.2]
  | _ => rfl

/-- Every notification that was queued or has been scheduled has been run or is still queued. -/
theorem Finished.perm {core core' : Core} {s t : Thread X A} {events : List (Event A)}
    {queue queue' : List Notified} (finished : Finished rt core s core' t events)
    (before : (s.runtimes rt).queue = some queue) (after : (t.runtimes rt).queue = some queue') :
    (core.tasks ++ queue ++ scheduled rt events).Perm (ran rt events ++ (core'.tasks ++ queue')) := by
  have own := finished.tasks
  obtain ⟨left, stored, remote⟩ := finished.queue queue before
  obtain rfl : left = queue' := Option.some.inj (stored.symm.trans after)
  have came := scheduled_perm rt events
  have went := ran_perm rt events
  rw [finished.kept, List.append_nil] at came
  rw [ranFrom_nowhere finished.driven, List.append_nil] at went
  rw [List.perm_iff_count] at came went ⊢
  intro task
  have inCore := congrArg (List.count task) own
  have inQueue := congrArg (List.count task) remote
  have cameTask := came task
  have wentTask := went task
  simp only [List.count_append] at inCore inQueue cameTask wentTask ⊢
  omega

end Exactness

/-- Every notification that was queued, or is scheduled during the call, is run exactly once. -/
theorem poll_until_deadlock_exact (program : Program X A) (depth fuel : Nat) (rt : RuntimeId)
    (s t : Thread X A) (core : Core) (queue : List Notified)
    (stored : (s.runtimes rt).core = some core) (alive : (s.runtimes rt).queue = some queue)
    (returned : BasicScheduler.pollUntilDeadlock (program.env depth) fuel rt s =
      (.returned (), t)) :
    ∃ events core', t.trace = s.trace ++ events ∧ (t.runtimes rt).core = some core' ∧
      core'.tasks = [] ∧ (t.runtimes rt).queue = some [] ∧
      (ran rt events).Perm (core.tasks ++ queue ++ scheduled rt events) := by
  have free : s.entered.isEntered = false := by
    by_contra entered
    rw [BasicScheduler.pollUntilDeadlock_refused stored (by simpa using entered)] at returned
    cases returned
  obtain ⟨core', u, events, ⟨ended, _⟩ | ⟨ended, finished, empty, drained⟩⟩ :=
    pollUntilDeadlock_ends (program.env_contained depth) fuel stored (by simp [alive]) free
  · rw [ended] at returned
    cases returned
  · rw [ended] at returned
    cases returned
    refine ⟨events, core', finished.trace, finished.stored, empty, drained, ?_⟩
    have balance := finished.perm alive drained
    simpa [empty] using balance.symm

/-- Every task that is run for the first time wakes the next one, and itself from outside. -/
def relay : Program Unit Unit :=
  { run := fun task _ =>
      if task.serial = 0 then
        ([.wake (.task 0 ⟨task.task, 1⟩), .wake (.task 1 ⟨task.task, 2⟩)], ())
      else ([], ())
    poll := fun _ _ => (([], .pending), ())
    wake := fun _ _ => (none, ()) }

def relayStart : Thread Unit Unit :=
  { world := ()
    now := .ofNanos 0
    context := none
    guards := fun _ => none
    entered := .notEntered
    current := none
    timeDriver := none
    borrowed := false
    drivers := fun _ => TimeDriver.new
    runtimes := fun rt =>
      { BasicScheduler.new rt with
        core := some ⟨[⟨1, 0⟩, ⟨2, 0⟩], 4, false, rfl⟩
        queue := some [⟨3, 0⟩] }
    trace := [] }

def relayRun : Exit Panic Unit × Thread Unit Unit :=
  BasicScheduler.pollUntilDeadlock (relay.env 0) 20 0 relayStart

theorem relayRun_returned : relayRun = (.returned (), relayRun.2) := by
  have returned : relayRun.1 = .returned () := by decide +kernel
  rw [← returned]

theorem poll_until_deadlock_exact_relay :
    ∃ events core', relayRun.2.trace = [] ++ events ∧ (relayRun.2.runtimes 0).core = some core' ∧
      core'.tasks = [] ∧ (relayRun.2.runtimes 0).queue = some [] ∧
      (ran 0 events).Perm ([⟨1, 0⟩, ⟨2, 0⟩] ++ [⟨3, 0⟩] ++ scheduled 0 events) :=
  poll_until_deadlock_exact relay 0 20 0 relayStart relayRun.2 _ _ rfl rfl relayRun_returned

end Osaka
