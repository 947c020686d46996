import Osaka.Runtime.Polls

set_option autoImplicit false

namespace Osaka

open Unwind Unwind.Exec Time

variable {X A B : Type} {closing : Option RuntimeId}

def Event.Unpolled : Event A → Prop
  | .ran _ _ _ _ => False
  | _ => True

/-- What holds on the way from `s` to `t` while some runtime runs on the thread: no task is polled,
and a core that is missing stays missing, unless its runtime is `closing`. -/
structure Occupied (closing : Option RuntimeId) (s t : Thread X A) : Prop where
  entered : t.entered = s.entered
  unpolled : ∃ events, t.trace = s.trace ++ events ∧ ∀ event ∈ events, event.Unpolled
  missing : ∀ rt, some rt ≠ closing → (s.runtimes rt).core = none → (t.runtimes rt).core = none

namespace Occupied

variable {s t u : Thread X A}

theorem of_same (entered : t.entered = s.entered) (trace : t.trace = s.trace)
    (core : ∀ rt, some rt ≠ closing → (s.runtimes rt).core = none → (t.runtimes rt).core = none) :
    Occupied closing s t where
  entered := entered
  unpolled := ⟨[], by simp [trace], by simp⟩
  missing := core

theorem of_local (entered : t.entered = s.entered) (trace : t.trace = s.trace)
    (runtimes : t.runtimes = s.runtimes) : Occupied closing s t :=
  of_same entered trace fun _ _ missing => by rw [runtimes, missing]

theorem refl (s : Thread X A) : Occupied closing s s := of_local rfl rfl rfl

theorem trans (first : Occupied closing s t) (second : Occupied closing t u) : Occupied closing s u where
  entered := second.entered.trans first.entered
  unpolled := by
    obtain ⟨events, before, quiet⟩ := first.unpolled
    obtain ⟨later, after, quiet'⟩ := second.unpolled
    refine ⟨events ++ later, by rw [after, before, List.append_assoc], ?_⟩
    intro event member
    rcases List.mem_append.mp member with member | member
    · exact quiet event member
    · exact quiet' event member
  missing rt other none := second.missing rt other (first.missing rt other none)

theorem recorded (s : Thread X A) {event : Event A} (quiet : event.Unpolled) :
    Occupied closing s (s.record event) where
  entered := rfl
  unpolled := ⟨[event], rfl, by simpa using quiet⟩
  missing _ _ missing := missing

theorem handled (s : Thread X A) (handle : Option RuntimeId) :
    Occupied closing s ({ s with context := handle }.record (.contextSet handle)) := by
  have recorded : Occupied closing s (s.record (.contextSet handle)) := .recorded s trivial
  exact recorded.trans (.of_local rfl rfl rfl)

theorem updated (s : Thread X A) (rt : RuntimeId) {change : BasicScheduler → BasicScheduler}
    (core : (s.runtimes rt).core = none → (change (s.runtimes rt)).core = none) :
    Occupied closing s (s.update rt change) where
  entered := rfl
  unpolled := ⟨[], by simp, by simp⟩
  missing other _ missing := by
    by_cases own : other = rt
    · subst own
      simpa using core missing
    · simpa [own] using missing

theorem weaken (occupied : Occupied none s t) : Occupied closing s t where
  entered := occupied.entered
  unpolled := occupied.unpolled
  missing rt _ missing := occupied.missing rt nofun missing

theorem closed (s : Thread X A) (rt : RuntimeId) (change : BasicScheduler → BasicScheduler) :
    Occupied (some rt) s (s.update rt change) := by
  refine of_same (t := s.update rt change) rfl rfl fun other different missing => ?_
  have away : other ≠ rt := by simpa using different
  simpa [away] using missing

theorem opened {rt : RuntimeId} (occupied : Occupied (some rt) s t)
    (stored : (s.runtimes rt).core.isSome = true) : Occupied none s t where
  entered := occupied.entered
  unpolled := occupied.unpolled
  missing other _ missing := by
    have away : other ≠ rt := by
      rintro rfl
      simp [missing] at stored
    exact occupied.missing other (by simpa using away) missing

end Occupied

/-- While some runtime runs on the thread, `m` comes to an end, and keeps the thread occupied. -/
def Halts (closing : Option RuntimeId) (m : Act X A B) : Prop :=
  ∀ s, s.entered.isEntered = true → (m s).1 ≠ .running ∧ Occupied closing s (m s).2

namespace Halts

theorem pure (value : B) : Halts closing (Pure.pure value : Act X A B) :=
  fun s _ => ⟨nofun, .refl s⟩

theorem throw (payload : Panic) : Halts closing (Exec.throw payload : Act X A B) :=
  fun s _ => ⟨nofun, .refl s⟩

theorem weaken {m : Act X A B} (halts : Halts none m) : Halts closing m :=
  fun s entered => ⟨(halts s entered).1, (halts s entered).2.weaken⟩

theorem get : Halts closing (Exec.get : Act X A (Thread X A)) := fun s _ => ⟨nofun, .refl s⟩

theorem modify {change : Thread X A → Thread X A} (occupied : ∀ s, Occupied closing s (change s)) :
    Halts closing (Exec.modify change : Act X A Unit) := fun s _ => ⟨nofun, occupied s⟩

theorem bind {C : Type} {m : Act X A B} {next : B → Act X A C} (first : Halts closing m)
    (second : ∀ value, Halts closing (next value)) : Halts closing (m >>= next) := by
  intro s entered
  obtain ⟨ends, before⟩ := first s entered
  rcases ended : m s with ⟨value | payload | _, t⟩ <;> rw [ended] at ends before
  · rw [bind_returned ended]
    obtain ⟨ends', after⟩ := second value t (before.entered ▸ entered)
    exact ⟨ends', before.trans after⟩
  · rw [bind_unwound ended]
    exact ⟨nofun, before⟩
  · exact absurd rfl ends

theorem guarded {enter : Thread X A → Thread X A} {leave : Thread X A → Thread X A → Thread X A}
    {m : Act X A B} (halts : Halts closing m) (begins : ∀ s, (enter s).entered = s.entered)
    (ends : ∀ s t, Occupied closing (enter s) t → Occupied closing s (leave s t)) :
    Halts closing (Exec.guarded enter leave m) := by
  intro s entered
  obtain ⟨stops, during⟩ := halts (enter s) (begins s ▸ entered)
  rcases ended : m (enter s) with ⟨value | payload | _, t⟩ <;> rw [ended] at stops during
  · rw [guarded_returned ended]
    exact ⟨nofun, ends s t during⟩
  · rw [guarded_unwound ended]
    exact ⟨nofun, ends s t during⟩
  · exact absurd rfl stops

theorem catchUnwind {m : Act X A B} (halts : Halts closing m) : Halts closing m.catchUnwind := by
  intro s entered
  obtain ⟨stops, occupied⟩ := halts s entered
  rcases ended : m s with ⟨value | payload | _, t⟩ <;> rw [ended] at stops occupied
  · simpa [Exec.catchUnwind, ended] using occupied
  · simpa [Exec.catchUnwind, ended] using occupied
  · exact absurd rfl stops

end Halts

theorem contextEnter_halts (rt : RuntimeId) {m : Act X A B} (halts : Halts closing m) :
    Halts closing (contextEnter rt m) := by
  refine halts.guarded ?_ fun s t during => ?_
  · exact fun _ => rfl
  · exact
      { entered := during.entered
        unpolled := during.unpolled
        missing := during.missing }

section Wakes

theorem record_halts {event : Event A} (quiet : event.Unpolled) :
    Halts closing (record event : Act X A Unit) := Halts.modify fun s => .recorded s quiet

theorem updateRuntime_halts (rt : RuntimeId) {change : BasicScheduler → BasicScheduler}
    (core : ∀ b, (change b).core = b.core) : Halts closing (updateRuntime rt change : Act X A Unit) := by
  apply Halts.modify
  intro s
  apply Occupied.updated
  exact (core _).trans

theorem schedule_halts (rt : RuntimeId) (task : Notified) :
    Halts closing (Shared.schedule rt task : Act X A Unit) := by
  apply Halts.modify
  intro s
  have event (place : Place) (s : Thread X A) : Occupied closing s (s.record (.scheduled rt place task)) :=
    .recorded s trivial
  split <;> split
  · exact (Occupied.updated s rt id).trans (event .core _)
  · exact event .nowhere s
  · exact (Occupied.updated s rt id).trans (event .shared _)
  · exact event .nowhere s

theorem wake_halts (wake : Wake) : Halts closing (wake.exec : Act X A Unit) := by
  cases wake with
  | task rt notified => exact schedule_halts rt notified
  | root rt =>
    exact Halts.bind (updateRuntime_halts rt fun _ => rfl) fun _ => record_halts trivial

theorem spawn_halts (rt : RuntimeId) (task : TaskId) (notified : Notified) :
    Halts closing (Spawner.spawn rt task notified : Act X A Unit) := by
  refine Halts.bind Halts.get fun s => Halts.bind (updateRuntime_halts rt fun _ => rfl) fun _ => ?_
  split
  next => exact Halts.pure ()
  next => exact schedule_halts rt notified

theorem spawnInner_halts (task : TaskId) (notified : Notified) :
    Halts closing (spawnInner task notified : Act X A Unit) := by
  refine Halts.bind Halts.get fun s => Halts.bind (record_halts trivial) fun _ => ?_
  split
  next rt _ => exact spawn_halts rt task notified
  next => exact Halts.throw _

end Wakes

section Entering

theorem enter_halts (guard : GuardId) (rt : RuntimeId) :
    Halts closing (Handle.enter guard rt : Act X A Unit) := by
  apply Halts.modify
  intro s
  exact (Occupied.handled s (some rt)).trans (.of_local rfl rfl rfl)

theorem guardDrop_halts (guard : GuardId) : Halts closing (EnterGuard.drop guard : Act X A Unit) := by
  apply Halts.modify
  intro s
  split
  next => exact .refl s
  next made _ =>
    exact (Occupied.handled s made.drop).trans (.of_local rfl rfl rfl)

end Entering

section Driver

theorem withCurrent_halts {f : DriverId → Act X A B} (halts : ∀ driver, Halts closing (f driver)) :
    Halts closing (TimeContext.withCurrent f) := by
  intro s entered
  unfold TimeContext.withCurrent
  split
  next => exact ⟨nofun, .refl s⟩
  next =>
    split
    next => exact ⟨nofun, .refl s⟩
    next driver _ =>
      refine Halts.guarded (halts driver) ?_ ?_ s entered
      · exact fun _ => rfl
      · intro s t during
        exact ⟨during.entered, during.unpolled, during.missing⟩

theorem readDriver_halts (driver : DriverId) (f : SimTime → TimeDriver Waker → B × TimeDriver Waker) :
    Halts closing (TimeContext.readDriver driver f : Act X A B) :=
  fun _ _ => ⟨nofun, .of_local rfl rfl rfl⟩

theorem swapContext_halts (driver : DriverId) :
    Halts closing (TimeContext.swapContext driver : Act X A (Option DriverId)) := by
  intro s _
  unfold TimeContext.swapContext
  split <;> exact ⟨nofun, .of_local rfl rfl rfl⟩

theorem unsetContext_halts : Halts closing (TimeContext.unsetContext : Act X A DriverId) := by
  intro s _
  unfold TimeContext.unsetContext
  split
  next => exact ⟨nofun, .refl s⟩
  next => split <;> exact ⟨nofun, .of_local rfl rfl rfl⟩

theorem isContextSet_halts : Halts closing (TimeContext.isContextSet : Act X A Bool) := by
  intro s _
  unfold TimeContext.isContextSet
  split <;> exact ⟨nofun, .refl s⟩

theorem withTime_halts (rt : RuntimeId) {f : Act X A B} (halts : Halts closing f) :
    Halts closing (BasicScheduler.withTime rt f) := by
  have takes : Halts closing (TimeContext.takeCell rt : Act X A (Option DriverId)) := by
    intro s _
    have taken : Occupied closing s (s.update rt fun b => { b with timeDriver := none }) :=
      .updated s rt id
    exact ⟨nofun, taken⟩
  have sets (driver : DriverId) : Halts closing (TimeContext.setCell rt driver : Act X A Unit) :=
    updateRuntime_halts rt fun _ => rfl
  refine Halts.bind takes fun outDriver => ?_
  cases outDriver with
  | none =>
    refine Halts.bind isContextSet_halts fun set => ?_
    split
    next => exact halts
    next => exact Halts.throw _
  | some outDriver =>
    refine Halts.bind (swapContext_halts outDriver) fun otherDriver => Halts.bind halts fun ret => ?_
    cases otherDriver with
    | none =>
      exact Halts.bind unsetContext_halts fun ourDriver =>
        Halts.bind (sets ourDriver) fun _ => Halts.pure ret
    | some otherDriver =>
      refine Halts.bind (swapContext_halts otherDriver) fun ourDriver => ?_
      cases ourDriver with
      | none => exact Halts.bind (Halts.throw _) fun _ => Halts.pure ret
      | some ourDriver => exact Halts.bind (sets ourDriver) fun _ => Halts.pure ret

end Driver

section Dropped

variable {rt : RuntimeId}

theorem closing_halts (change : BasicScheduler → BasicScheduler) :
    Halts (some rt) (updateRuntime rt change : Act X A Unit) := Halts.modify fun s => .closed s rt change

theorem takeCore_halts : Halts (some rt) (BasicScheduler.takeCore rt : Act X A Bool) := by
  intro s _
  unfold BasicScheduler.takeCore
  split
  next core _ =>
    exact ⟨nofun, .closed s rt fun b => { b with core := none, contextCore := some core }⟩
  next => exact ⟨nofun, .refl s⟩

theorem contextTakeCore_halts : Halts (some rt) (Context.takeCore rt : Act X A Core) := by
  intro s _
  unfold Context.takeCore
  split
  next => exact ⟨nofun, .closed s rt fun b => { b with contextCore := none }⟩
  next => exact ⟨nofun, .refl s⟩

theorem CoreGuard.drop_occupied (t : Thread X A) : Occupied (some rt) t (CoreGuard.drop rt t) := by
  unfold CoreGuard.drop
  split
  · exact .closed t rt _
  · exact .refl t

theorem schedulerDrop_halts {destructors : Act X A Unit} (halts : Halts none destructors) :
    Halts (some rt) (BasicScheduler.drop rt destructors) := by
  have closes (core : Core) : Halts (some rt) (do
      updateRuntime rt fun b => { b with owned := b.owned.closeAndShutdownAll }
      destructors
      updateRuntime rt fun b => { b with queue := none }
      return ({ core with tasks := [] }, ()) : Act X A (Core × Unit)) :=
    Halts.bind (closing_halts _) fun _ => Halts.bind halts.weaken fun _ =>
      Halts.bind (closing_halts _) fun _ => Halts.pure _
  refine Halts.bind takeCore_halts fun taken => ?_
  split
  next =>
    refine Halts.guarded ?_ (fun _ => rfl) fun s t during => during.trans (CoreGuard.drop_occupied t)
    refine Halts.bind contextTakeCore_halts fun core => Halts.bind ?_ fun _ =>
      Halts.bind (closing_halts _) fun _ => Halts.pure _
    refine (closes core).guarded ?_ fun s t during => ?_
    · exact fun _ => rfl
    · exact ⟨during.entered, during.unpolled, during.missing⟩
  next => exact Halts.throw _

theorem drop_halts (rt : RuntimeId) {destructors : Act X A Unit} (halts : Halts none destructors) :
    Halts none (Runtime.drop rt destructors) := by
  have dropping : Halts (some rt) (Runtime.drop rt destructors) := by
    refine (schedulerDrop_halts halts).guarded ?_ fun s t during => ?_
    · exact fun _ => rfl
    · exact ((Occupied.handled s (some rt)).trans during).trans (.handled t s.context)
  intro s entered
  cases stored : (s.runtimes rt).core with
  | none =>
    let begun : Thread X A := { s with context := some rt }.record (.contextSet (some rt))
    rw [Runtime.drop, guarded_unwound (schedulerDrop_missing (s := begun) stored)]
    exact ⟨by simp, (Occupied.handled s (some rt)).trans (.handled begun s.context)⟩
  | some core =>
    obtain ⟨ends, occupied⟩ := dropping s entered
    exact ⟨ends, occupied.opened (by simp [stored])⟩

end Dropped

section Futures

variable {env : Env X A}

theorem wakeWakers_halts (wakers : List Waker) : Halts closing (wakeWakers env wakers) := by
  induction wakers with
  | nil => exact Halts.pure ()
  | cons waker rest ih =>
    refine Halts.bind (Halts.bind Halts.get fun s => ?_) fun _ => ih
    refine Halts.bind (Halts.modify fun _ => .of_local rfl rfl rfl) fun _ => ?_
    split
    next wake _ => exact wake_halts wake
    next => exact Halts.pure ()

theorem refused_halts {rt : RuntimeId} {m : Act X A B} (refused : ∀ s : Thread X A,
    s.entered.isEntered = true → ∃ payload, m s = (.unwound payload, s) ∨
      (s.runtimes rt).core.isSome = true ∧ m s = (.unwound payload, s.loseCore rt)) :
    Halts closing m := by
  intro s entered
  obtain ⟨payload, ended | ⟨_, ended⟩⟩ := refused s entered <;> rw [ended]
  · exact ⟨nofun, .refl s⟩
  · have lost : Occupied closing s (s.loseCore rt) := .updated s rt fun _ => rfl
    exact ⟨nofun, lost⟩

theorem method_halts (method : Method) (fuel : Nat) (rt : RuntimeId) :
    Halts closing (method.exec env (fuel + 1) rt) := by
  have blocks (root : RootId) : Halts closing (BasicScheduler.blockOn env (fuel + 1) rt root) :=
    refused_halts fun _ entered => BasicScheduler.blockOn_entered entered
  cases method with
  | spawn task notified => exact withTime_halts rt (spawn_halts rt task notified)
  | takeTimestep =>
    exact withTime_halts rt (withCurrent_halts fun driver =>
      Halts.bind (readDriver_halts driver _) fun wakers => wakeWakers_halts wakers)
  | nextWakeup =>
    exact Halts.bind (withTime_halts rt (withCurrent_halts fun driver => readDriver_halts driver _))
      fun _ => Halts.pure ()
  | pollUntilDeadlock =>
    exact withTime_halts rt
      (refused_halts fun _ entered => BasicScheduler.pollUntilDeadlock_entered entered)
  | blockOn root =>
    refine Halts.bind (withTime_halts rt (contextEnter_halts rt (Halts.bind (blocks root) fun ret => ?_)))
      fun _ => Halts.pure ()
    cases ret with
    | ok value => exact Halts.pure value
    | error error => exact Halts.throw _
  | blockOnOrDeadlock root =>
    exact Halts.bind (withTime_halts rt (contextEnter_halts rt (blocks root))) fun _ => Halts.pure ()

/-- The calls of methods that a future makes end, and keep to what a poll may do. -/
structure Env.Contained (env : Env X A) : Prop where
  keeps : ∀ (rt rt' : RuntimeId) (method : Method), Keeps (Stays rt) (env.call rt' method)
  halts : ∀ (rt : RuntimeId) (method : Method), Halts none (env.call rt method)

theorem Program.env_contained (program : Program X A) (depth : Nat) : (program.env depth).Contained where
  keeps _ rt' method := method_stays (Env.nested program depth) method depth rt'
  halts rt method := method_halts method depth rt

mutual

theorem op_halts (contained : env.Contained) : (op : Op) → Halts none (op.exec env)
  | .wake issued => wake_halts issued
  | .spawn task notified => spawnInner_halts task notified
  | .release rt task => updateRuntime_halts rt fun _ => rfl
  | .pollSleep sleep waker => by
    refine Halts.bind Halts.get fun s => ?_
    split
    next =>
      refine withCurrent_halts fun driver => Halts.bind (readDriver_halts driver _) fun registered => ?_
      cases registered with
      | true => exact Halts.pure ()
      | false => exact Halts.throw _
    next => exact Halts.pure ()
  | .resetSleep id deadline => withCurrent_halts fun driver => readDriver_halts driver _
  | .setNow time => Halts.modify fun _ => .of_local rfl rfl rfl
  | .enter guard rt => enter_halts guard rt
  | .dropGuard guard => guardDrop_halts guard
  | .call rt method caught => by
    have halts := contained.halts rt method
    cases caught with
    | true => exact Halts.bind halts.catchUnwind fun _ => Halts.pure ()
    | false => exact halts
  | .dropRuntime rt destructors => drop_halts rt (destroyAll_halts contained destructors)
  | .unwind => Halts.throw _

theorem destroyAll_halts (contained : env.Contained) : (ops : List Op) → Halts none (destroyAll env ops)
  | [] => Halts.pure ()
  | op :: rest => Halts.bind (op_halts contained op).catchUnwind fun _ => destroyAll_halts contained rest

end

theorem destroyAll_returns (contained : env.Contained) (ops : List Op) (s : Thread X A)
    (entered : s.entered.isEntered = true) : (destroyAll env ops s).1 = .returned () := by
  induction ops generalizing s with
  | nil => rfl
  | cons op rest ih =>
    obtain ⟨ends, occupied⟩ := op_halts contained op s entered
    obtain ⟨result, caught⟩ := catchUnwind_caught rfl ends
    have later : destroyAll env (op :: rest) s = destroyAll env rest (op.exec env s).2 := bind_returned caught
    rw [later]
    exact ih _ (occupied.entered ▸ entered)

mutual

theorem op_stays {rt : RuntimeId} (contained : env.Contained) : (op : Op) → Keeps (Stays rt) (op.exec env)
  | .wake issued => wake_stays issued
  | .spawn task notified => spawnInner_stays task notified
  | .release rt' task =>
    updateRuntime_stays rt' _ (fun _ => rfl) (fun _ => rfl) (fun _ => rfl) (fun _ => rfl)
  | .pollSleep sleep waker => by
    refine Keeps.bind Keeps.get fun s => ?_
    split
    next =>
      refine withCurrent_stays fun driver => Keeps.bind (readDriver_stays driver _) fun registered => ?_
      cases registered with
      | true => exact Keeps.pure ()
      | false => exact Keeps.throw _
    next => exact Keeps.pure ()
  | .resetSleep id deadline => withCurrent_stays fun driver => readDriver_stays driver _
  | .setNow time => Keeps.modify fun s => quiet_stays rfl rfl rfl rfl rfl
  | .enter guard rt' => enter_stays guard rt'
  | .dropGuard guard => guardDrop_stays guard
  | .call rt' method caught => by
    have kept := contained.keeps rt rt' method
    cases caught with
    | true => exact Keeps.bind kept.catchUnwind fun _ => Keeps.pure ()
    | false => exact kept
  | .dropRuntime rt' destructors =>
    drop_stays rt' (destroyAll_stays contained destructors) (destroyAll_returns contained destructors)
  | .unwind => Keeps.throw _

theorem destroyAll_stays {rt : RuntimeId} (contained : env.Contained) :
    (ops : List Op) → Keeps (Stays rt) (destroyAll env ops)
  | [] => Keeps.pure ()
  | op :: rest => Keeps.bind (op_stays contained op).catchUnwind fun _ => destroyAll_stays contained rest

end

theorem execAll_stays {rt : RuntimeId} (contained : env.Contained) (ops : List Op) :
    Keeps (Stays rt) (execAll env ops) := by
  induction ops with
  | nil => exact Keeps.pure ()
  | cons op rest ih => exact Keeps.bind (op_stays contained op) fun _ => ih

theorem execAll_halts (contained : env.Contained) (ops : List Op) : Halts none (execAll env ops) := by
  induction ops with
  | nil => exact Halts.pure ()
  | cons op rest ih => exact Halts.bind (op_halts contained op) fun _ => ih

theorem execPoll_stays {rt : RuntimeId} (contained : env.Contained) (ops unwinds : List Op) :
    Keeps (Stays rt) (execPoll env ops unwinds) := by
  refine Keeps.bind (execAll_stays contained ops).catchUnwind fun result => ?_
  cases result with
  | ok _ => exact Keeps.pure _
  | error payload => exact Keeps.bind (destroyAll_stays contained unwinds) fun _ => Keeps.pure _

theorem execPoll_halts (contained : env.Contained) (ops unwinds : List Op) :
    Halts none (execPoll env ops unwinds) := by
  refine Halts.bind (execAll_halts contained ops).catchUnwind fun result => ?_
  cases result with
  | ok _ => exact Halts.pure _
  | error payload => exact Halts.bind (destroyAll_halts contained unwinds) fun _ => Halts.pure _

end Futures

end Osaka
