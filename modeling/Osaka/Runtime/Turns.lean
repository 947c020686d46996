import Osaka.Runtime.Halts

set_option autoImplicit false

namespace Osaka

open Unwind Unwind.Exec Time

variable {X A B : Type} {rt : RuntimeId}

/-- The thread between two polls that `rt` makes: the loop holds the core. -/
structure Driving (rt : RuntimeId) (s : Thread X A) : Prop where
  entered : s.entered.isEntered = true
  slot : (s.runtimes rt).core = none
  alive : (s.runtimes rt).queue.isSome = true
  cell : (s.runtimes rt).contextCore = none

def Core.ticked (core : Core) : Core := { core with tick := core.tick + 1 }

theorem nextEntry_cases (core : Core) {s : Thread X A} {queue : List Notified}
    (alive : (s.runtimes rt).queue = some queue) :
    (core.tasks = [] ∧ queue = [] ∧ nextEntry rt core s = (.returned (none, core.ticked), s)) ∨
    (∃ task rest, core.tasks = task :: rest ∧ nextEntry rt core s =
      (.returned (some (.core, task), { core.ticked with tasks := rest }), s)) ∨
    (∃ task rest, queue = task :: rest ∧ nextEntry rt core s =
      (.returned (some (.shared, task), core.ticked), s.update rt fun b => { b with queue := some rest })) := by
  by_cases turn : core.tick % 5 = 0
  · cases queue with
    | cons task rest =>
      refine .inr (.inr ⟨task, rest, rfl, ?_⟩)
      simp [nextEntry, turn, bind_apply, Spawner.pop, alive, Core.ticked]
    | nil =>
      cases tasks : core.tasks with
      | nil =>
        refine .inl ⟨rfl, rfl, ?_⟩
        simp [nextEntry, turn, bind_apply, Spawner.pop, alive, Core.popTask, tasks, Core.ticked]
      | cons task rest =>
        refine .inr (.inl ⟨task, rest, rfl, ?_⟩)
        simp [nextEntry, turn, bind_apply, Spawner.pop, alive, Core.popTask, tasks, Core.ticked]
  · cases tasks : core.tasks with
    | cons task rest =>
      refine .inr (.inl ⟨task, rest, rfl, ?_⟩)
      simp [nextEntry, turn, Core.popTask, tasks, Core.ticked]
    | nil =>
      cases queue with
      | nil =>
        refine .inl ⟨rfl, rfl, ?_⟩
        simp [nextEntry, turn, bind_apply, Spawner.pop, alive, Core.popTask, tasks, Core.ticked]
      | cons task rest =>
        refine .inr (.inr ⟨task, rest, rfl, ?_⟩)
        simp [nextEntry, turn, bind_apply, Spawner.pop, alive, Core.popTask, tasks, Core.ticked]

namespace Context

variable {core core' : Core} {f : Act X A B} {s t : Thread X A}

def holding (rt : RuntimeId) (core : Core) (s : Thread X A) : Thread X A :=
  s.update rt fun b => { b with contextCore := some core }

def released (rt : RuntimeId) (t : Thread X A) : Thread X A :=
  t.update rt fun b => { b with contextCore := none }

theorem enter_returned {ret : B} (ran : f (holding rt core s) = (.returned ret, t))
    (held : (t.runtimes rt).contextCore = some core') :
    enter rt core f s = (.returned (core', ret), released rt t) := by
  refine (bind_returned rfl).trans ((bind_returned ran).trans ?_)
  exact bind_returned (takeCore_some held)

theorem enter_unwound {payload : Panic} (ran : f (holding rt core s) = (.unwound payload, t)) :
    enter rt core f s = (.unwound payload, t) :=
  (bind_returned rfl).trans (bind_unwound ran)

end Context

theorem Driving.holding {core : Core} {s : Thread X A} (driving : Driving rt s) :
    Inside rt (Context.holding rt core s) where
  entered := driving.entered
  slot := by simp [Context.holding, driving.slot]
  alive := by simp [Context.holding, driving.alive]
  guarded := by simp [Context.holding]

theorem Inside.recorded {s : Thread X A} (inside : Inside rt s) (event : Event A) :
    Inside rt (s.record event) :=
  ⟨inside.entered, inside.slot, inside.alive, inside.guarded⟩

theorem Inside.released {t : Thread X A} (inside : Inside rt t) : Driving rt (Context.released rt t) where
  entered := inside.entered
  slot := by simp [Context.released, inside.slot]
  alive := by simp [Context.released, inside.alive]
  cell := by simp [Context.released]

section Progress

variable {core core' : Core} {s t : Thread X A} {events : List (Event A)}

theorem Progress.holding (rt : RuntimeId) (core : Core) (s : Thread X A) :
    Progress rt core s core (Context.holding rt core s) [] := by
  constructor <;> simp [Context.holding]

theorem Progress.released (progress : Progress rt core s core' t events) :
    Progress rt core s core' (Context.released rt t) events where
  trace := progress.trace
  tasks := progress.tasks
  queue := by simpa [Context.released] using progress.queue
  kept := progress.kept
  woken := by simpa [Context.released] using progress.woken
  slot := by simpa [Context.released] using progress.slot
  context := progress.context
  reads := progress.reads
  entered := progress.entered
  current := progress.current

theorem Progress.recorded (rt : RuntimeId) (core : Core) (s : Thread X A) (event : Event A)
    (unscheduled : ∀ place, scheduledTo rt place [event] = [])
    (unran : ∀ place, ranFrom rt place [event] = [])
    (unwoken : ∀ woken, wokenAfter rt woken [event] = woken) (unread : ∀ handle, event.Reads handle)
    (unset : ∀ handle, handleStep handle event = handle) :
    Progress rt core s core (s.record event) [event] := by
  constructor <;> simp [Thread.record, unscheduled, unran, unwoken, unset, unread]

theorem Progress.taken {task : Notified} {place : Place} {core₁ : Core} {s₁ : Thread X A}
    (alive : (s.runtimes rt).queue.isSome = true)
    (taken : nextEntry rt core s = (.returned (some (place, task), core₁), s₁)) :
    Progress rt core s core₁ (s₁.record (.ran rt place task s.context)) [.ran rt place task s.context] ∧
      (Driving rt s → Driving rt s₁) ∧ s₁.context = s.context := by
  obtain ⟨queue, stored⟩ := Option.isSome_iff_exists.mp alive
  rcases nextEntry_cases core stored with ⟨_, _, ended⟩ | ⟨next, rest, local', ended⟩ |
    ⟨next, rest, remote, ended⟩ <;> rw [ended] at taken <;> cases taken
  · refine ⟨?_, id, rfl⟩
    constructor <;> simp [Thread.record, scheduledTo, ranFrom, wokenAfter, wokenStep, local', handleStep,
      Event.Reads]
  · refine ⟨?_, fun driving => ?_, rfl⟩
    · constructor <;> simp [Thread.record, scheduledTo, ranFrom, wokenAfter, wokenStep, stored, remote,
        handleStep, Core.ticked, Event.Reads]
    · exact
        { entered := driving.entered
          slot := by simp [driving.slot]
          alive := by simp
          cell := by simp [driving.cell] }

end Progress

section Polled

variable {env : Env X A} {core : Core} {s : Thread X A}

theorem execPoll_returned (contained : env.Contained) (ops unwinds : List Op)
    (entered : s.entered.isEntered = true) :
    ∃ result t, execPoll env ops unwinds s = (.returned result, t) := by
  obtain ⟨halts, occupied⟩ := execAll_halts contained ops s entered
  obtain ⟨result, caught⟩ := catchUnwind_caught rfl halts
  cases result with
  | ok _ => exact ⟨.ok (), _, bind_returned caught⟩
  | error payload =>
    have returned := destroyAll_returns contained unwinds _ (occupied.entered ▸ entered)
    have dropped : destroyAll env unwinds (execAll env ops s).2 = (.returned (), _) := Prod.ext returned rfl
    exact ⟨.error payload, _, (bind_returned caught).trans (bind_returned dropped)⟩

theorem execPoll_inside (contained : env.Contained) (ops unwinds : List Op) (world : X)
    {begun : Thread X A} (inside : Inside rt begun) (held : (begun.runtimes rt).contextCore = some core) :
    ∃ result t core' events,
      execPoll env ops unwinds { begun with world := world } = (.returned result, t) ∧
      (t.runtimes rt).contextCore = some core' ∧ core'.tick = core.tick ∧
      Progress rt core begun core' t events ∧ Inside rt t ∧ ∀ event ∈ events, event.Passive := by
  have quiet : Stays rt begun { begun with world := world } := quiet_stays rfl rfl rfl rfl rfl
  have stays := trans_of (Stays rt) quiet (execPoll_stays contained ops unwinds _)
  obtain ⟨result, t, ran⟩ :=
    execPoll_returned contained ops unwinds (s := { begun with world := world }) inside.entered
  rw [ran] at stays
  obtain ⟨core', events, held', tick, progress, passive⟩ := stays inside core held
  exact ⟨result, t, core', events, ran, held', tick, progress, progress.inside inside held', passive⟩

theorem runTask_eq (place : Place) (task : Notified) (s : Thread X A) :
    runTask env rt place task s =
      (do let _ ← execPoll env (env.program.run task s.world).1 (env.program.runUnwinds task s.world) :
        Act X A Unit)
        { s.record (.ran rt place task s.context) with world := (env.program.run task s.world).2 } :=
  rfl

section Root

variable {root : RootId} {t : Thread X A}

def rootBegun (env : Env X A) (rt : RuntimeId) (root : RootId) (s : Thread X A) : Thread X A :=
  { s.record (.rootPolling rt) with world := (env.program.poll root s.world).2 }

theorem pollRoot_returned
    (ran : execPoll env (env.program.poll root s.world).1.1 (env.program.pollUnwinds root s.world)
      (rootBegun env rt root s) = (.returned (.ok ()), t)) :
    pollRoot env rt root s = (.returned (env.program.poll root s.world).1.2,
      t.record (.rootPolled rt (some (env.program.poll root s.world).1.2))) :=
  bind_returned ran

theorem pollRoot_unwound {payload : Panic}
    (ran : execPoll env (env.program.poll root s.world).1.1 (env.program.pollUnwinds root s.world)
      (rootBegun env rt root s) = (.returned (.error payload), t)) :
    pollRoot env rt root s = (.unwound payload, t.record (.rootPolled rt none)) :=
  bind_returned ran

end Root

theorem task_turn (contained : env.Contained) (driving : Driving rt s) {place : Place}
    {task : Notified} {core₁ : Core} {s₁ : Thread X A}
    (taken : nextEntry rt core s = (.returned (some (place, task), core₁), s₁)) :
    ∃ core₂ t events, Progress rt core s core₂ t (.ran rt place task s.context :: events) ∧
      (∀ event ∈ events, event.Passive) ∧ Driving rt t ∧ core₂.tick = core₁.tick ∧
      Context.enter rt core₁ (runTask env rt place task) s₁ = (.returned (core₂, ()), t) := by
  obtain ⟨ran, still, sameContext⟩ := Progress.taken driving.alive taken
  let event : Event A := .ran rt place task s.context
  let begun := (Context.holding rt core₁ s₁).record event
  have begins : Progress rt core s core₁ begun [event] :=
    ran.trans (Progress.holding rt core₁ (s₁.record event))
  have inside : Inside rt begun := (still driving).holding.recorded event
  have begunHeld : (begun.runtimes rt).contextCore = some core₁ := by
    simp [begun, Context.holding, Thread.record]
  obtain ⟨result, t, core₂, events, ended, held, tick, progress, still', passive⟩ :=
    execPoll_inside contained (env.program.run task s₁.world).1 (env.program.runUnwinds task s₁.world)
      (env.program.run task s₁.world).2 inside begunHeld
  have run_eq : runTask env rt place task (Context.holding rt core₁ s₁) =
      (do let _ ← execPoll env (env.program.run task s₁.world).1 (env.program.runUnwinds task s₁.world) :
        Act X A Unit) { begun with world := (env.program.run task s₁.world).2 } := by
    rw [runTask_eq]
    simp [begun, event, ← sameContext, Context.holding]
  refine ⟨core₂, Context.released rt t, events, (begins.trans progress).released, passive,
    still'.released, tick, ?_⟩
  exact Context.enter_returned (run_eq.trans (bind_returned ended)) held

def Spawner.slept (rt : RuntimeId) (s : Thread X A) : Thread X A :=
  s.update rt fun b => { b with woken := false }

theorem Driving.slept (driving : Driving rt s) : Driving rt (Spawner.slept rt s) where
  entered := driving.entered
  slot := by simp [Spawner.slept, driving.slot]
  alive := by simp [Spawner.slept, driving.alive]
  cell := by simp [Spawner.slept, driving.cell]

theorem root_turn (contained : env.Contained) (driving : Driving rt s) (root : RootId) (core : Core) :
    ∃ core₂ t events, (∀ event ∈ events, event.Passive) ∧
      ((∃ answer, Progress rt core s core₂ t
            (.rootPolling rt :: (events ++ [.rootPolled rt (some answer)])) ∧ Driving rt t ∧
          Context.enter rt core (pollRoot env rt root) (Spawner.slept rt s) =
            (.returned (core₂, answer), t)) ∨
        ∃ payload, Progress rt core s core₂ t (.rootPolling rt :: (events ++ [.rootPolled rt none])) ∧
          (t.runtimes rt).contextCore = some core₂ ∧
          Context.enter rt core (pollRoot env rt root) (Spawner.slept rt s) = (.unwound payload, t)) := by
  let polled := Context.holding rt core (Spawner.slept rt s)
  let answer := (env.program.poll root s.world).1.2
  have begins : Progress rt core s core (polled.record (.rootPolling rt)) [.rootPolling rt] := by
    constructor <;> simp [polled, Context.holding, Spawner.slept, Thread.record, scheduledTo, ranFrom,
      wokenAfter, wokenStep, handleStep, Event.Reads]
  have inside : Inside rt (polled.record (.rootPolling rt)) := driving.slept.holding.recorded _
  have holds : ((polled.record (.rootPolling rt)).runtimes rt).contextCore = some core := by
    simp [polled, Context.holding, Thread.record]
  obtain ⟨result, t, core₂, events, ended, held, _, progress, still, passive⟩ :=
    execPoll_inside contained (env.program.poll root s.world).1.1 (env.program.pollUnwinds root s.world)
      (env.program.poll root s.world).2 inside holds
  have total := begins.trans progress
  have recorded (answer : Option (Poll A)) :
      Progress rt core₂ t core₂ (t.record (.rootPolled rt answer)) [.rootPolled rt answer] :=
    Progress.recorded rt core₂ t _ (by simp [scheduledTo]) (by simp [ranFrom])
      (by simp [wokenAfter, wokenStep]) (fun _ => trivial) (fun _ => rfl)
  cases result with
  | ok _ =>
    refine ⟨core₂, Context.released rt (t.record (.rootPolled rt (some answer))), events, passive,
      .inl ⟨answer, ?_, (still.recorded _).released, ?_⟩⟩
    · simpa using (total.trans (recorded (some answer))).released
    · exact Context.enter_returned (pollRoot_returned ended) held
  | error payload =>
    refine ⟨core₂, t.record (.rootPolled rt none), events, passive, .inr ⟨payload, ?_, held, ?_⟩⟩
    · simpa using total.trans (recorded none)
    · exact Context.enter_unwound (pollRoot_unwound ended)

end Polled

end Osaka
