import Osaka.Runtime.Progress
import Osaka.Runtime.Session

set_option autoImplicit false

namespace Osaka

open Unwind Unwind.Exec Time

variable {X A B : Type} {rt : RuntimeId}

theorem updateRuntime_stays (rt' : RuntimeId) (change : BasicScheduler → BasicScheduler)
    (core : ∀ b, (change b).core = b.core) (contextCore : ∀ b, (change b).contextCore = b.contextCore)
    (queue : ∀ b, (change b).queue = b.queue) (woken : ∀ b, (change b).woken = b.woken) :
    Keeps (Stays rt) (updateRuntime rt' change : Act X A Unit) := by
  intro s
  have same : (s.update rt' change).runtimes rt = s.runtimes rt ∨
      (s.update rt' change).runtimes rt = change (s.runtimes rt) := by
    by_cases own : rt = rt'
    · subst own
      exact .inr (s.update_runtimes_self rt change)
    · exact .inl (s.update_runtimes_of_ne rt' change own)
  change Stays rt s (s.update rt' change)
  apply Stays.of_same <;> rcases same with same | same <;>
    simp [same, core, contextCore, queue, woken]

theorem quiet_stays {s t : Thread X A} (trace : t.trace = s.trace) (runtimes : t.runtimes = s.runtimes)
    (context : t.context = s.context) (entered : t.entered = s.entered)
    (current : t.current = s.current) : Stays rt s t := by
  apply Stays.of_same trace <;> simp [runtimes, context, entered, current]

section Scheduling

theorem schedule_stays (rt' : RuntimeId) (task : Notified) :
    Keeps (Stays rt) (Shared.schedule rt' task : Act X A Unit) := by
  intro s
  by_cases own : rt' = rt
  · subst own
    intro inside core held
    obtain ⟨queue, stored⟩ := Option.isSome_iff_exists.mp inside.alive
    by_cases here : s.current = some rt'
    · refine ⟨core.pushTask task, [.scheduled rt' .core task], ?_, rfl, ?_, by simp [Event.Passive]⟩
      · simp [Shared.schedule, here, held, Thread.record]
      · constructor <;> simp [Shared.schedule, here, held, Thread.record, Core.pushTask, scheduledTo,
          ranFrom, wokenAfter, wokenStep, handleStep, Event.Reads]
    · refine ⟨core, [.scheduled rt' .shared task], ?_, rfl, ?_, by simp [Event.Passive]⟩
      · simp [Shared.schedule, here, stored, held, Thread.record]
      · constructor <;> simp [Shared.schedule, here, stored, Thread.record, scheduledTo, ranFrom,
          wokenAfter, wokenStep, handleStep, Event.Reads]
  · have foreign : ∃ place, (Shared.schedule rt' task s).2.trace =
        s.trace ++ [.scheduled rt' place task] ∧
        (Shared.schedule rt' task s).2.runtimes rt = s.runtimes rt ∧
        (Shared.schedule rt' task s).2.context = s.context ∧
        (Shared.schedule rt' task s).2.entered = s.entered ∧
        (Shared.schedule rt' task s).2.current = s.current := by
      simp only [Shared.schedule, modify_apply]
      split <;> split <;> exact ⟨_, rfl, by simp [Thread.record, Ne.symm own], rfl, rfl, rfl⟩
    obtain ⟨place, trace, same, context, entered, current⟩ := foreign
    refine Stays.of_event (.scheduled rt' place task) trivial trivial ?_ ?_ ?_ trace same context entered
      current
    · simp [scheduledTo, own]
    · simp [ranFrom]
    · simp [wokenAfter, wokenStep]

theorem wakeByRef_stays (rt' : RuntimeId) : Keeps (Stays rt) (Shared.wakeByRef rt' : Act X A Unit) := by
  intro s
  by_cases own : rt' = rt
  · subst own
    intro _ core held
    refine ⟨core, [.wokeRoot rt'], ?_, rfl, ?_, by simp [Event.Passive]⟩
    · simp [Shared.wakeByRef, bind_apply, updateRuntime, record, Thread.record, held]
    · constructor <;> simp [Shared.wakeByRef, bind_apply, updateRuntime, record, Thread.record,
        scheduledTo, ranFrom, wokenAfter, wokenStep, handleStep, Event.Reads]
  · have same : (Shared.wakeByRef rt' s).2 =
        (s.update rt' fun b => { b with woken := true }).record (.wokeRoot rt') := rfl
    rw [same]
    refine Stays.of_event (.wokeRoot rt') trivial trivial ?_ ?_ ?_ rfl ?_ rfl rfl rfl
    · simp [scheduledTo]
    · simp [ranFrom]
    · simp [wokenAfter, wokenStep, own]
    · simp [Thread.record, Ne.symm own]

theorem wake_stays (wake : Wake) : Keeps (Stays rt) (wake.exec : Act X A Unit) := by
  cases wake with
  | task rt' notified => exact schedule_stays rt' notified
  | root rt' => exact wakeByRef_stays rt'

end Scheduling

theorem spawn_stays (rt' : RuntimeId) (task : TaskId) (notified : Notified) :
    Keeps (Stays rt) (Spawner.spawn rt' task notified : Act X A Unit) := by
  refine Keeps.bind Keeps.get fun s => Keeps.bind (updateRuntime_stays rt' _ ?_ ?_ ?_ ?_) fun _ => ?_
  · exact fun _ => rfl
  · exact fun _ => rfl
  · exact fun _ => rfl
  · exact fun _ => rfl
  · split
    next => exact Keeps.pure ()
    next => exact schedule_stays rt' notified

theorem spawnInner_stays (task : TaskId) (notified : Notified) :
    Keeps (Stays rt) (spawnInner task notified : Act X A Unit) := by
  intro s
  have read : Stays rt s (s.record (.spawned s.context)) :=
    Stays.of_event (.spawned s.context) trivial rfl (by simp [scheduledTo]) (by simp [ranFrom])
      (by simp [wokenAfter, wokenStep]) rfl rfl rfl rfl rfl
  cases handle : s.context with
  | none => simpa [spawnInner, bind_apply, record, handle] using read
  | some rt' =>
    rw [handle] at read
    have kept := trans_of (Stays rt) read (spawn_stays rt' task notified _)
    simpa [spawnInner, bind_apply, record, handle] using kept

section Entering

theorem context_stays (handle : Option RuntimeId) (s : Thread X A) :
    Stays rt s ({ s with context := handle }.record (.contextSet handle)) :=
  Stays.of_event (.contextSet handle) trivial trivial (by simp [scheduledTo]) (by simp [ranFrom])
    (by simp [wokenAfter, wokenStep]) rfl rfl rfl rfl rfl

theorem enter_stays (guard : GuardId) (rt' : RuntimeId) :
    Keeps (Stays rt) (Handle.enter guard rt' : Act X A Unit) := by
  intro s
  refine trans_of (Stays rt) (context_stays (some rt') s) ?_
  exact quiet_stays rfl rfl rfl rfl rfl

theorem guardDrop_stays (guard : GuardId) : Keeps (Stays rt) (EnterGuard.drop guard : Act X A Unit) := by
  intro s
  cases alive : s.guards guard with
  | none => simpa [EnterGuard.drop, alive] using refl_of (Stays rt) s
  | some made =>
    refine trans_of (Stays rt) (context_stays made.drop s) ?_
    apply quiet_stays <;> simp [EnterGuard.drop, alive, Thread.record]

end Entering

section Driver

theorem withCurrent_stays {f : DriverId → Act X A B} (kept : ∀ driver, Keeps (Stays rt) (f driver)) :
    Keeps (Stays rt) (TimeContext.withCurrent f) := by
  intro s
  unfold TimeContext.withCurrent
  split
  next => exact refl_of (Stays rt) s
  next =>
    split
    next => exact refl_of (Stays rt) s
    next driver _ =>
      have borrowed : Stays rt s { s with borrowed := true } := quiet_stays rfl rfl rfl rfl rfl
      have ran := trans_of (Stays rt) borrowed (kept driver { s with borrowed := true })
      have released (t : Thread X A) : Stays rt t { t with borrowed := false } :=
        quiet_stays rfl rfl rfl rfl rfl
      unfold guarded
      split <;> simp_all only
      · exact trans_of (Stays rt) ran (released _)
      · exact trans_of (Stays rt) ran (released _)

theorem readDriver_stays (driver : DriverId) (f : SimTime → TimeDriver Waker → B × TimeDriver Waker) :
    Keeps (Stays rt) (TimeContext.readDriver driver f : Act X A B) :=
  fun _ => quiet_stays rfl rfl rfl rfl rfl

theorem swapContext_stays (driver : DriverId) :
    Keeps (Stays rt) (TimeContext.swapContext driver : Act X A (Option DriverId)) := by
  intro s
  unfold TimeContext.swapContext
  split
  next => exact refl_of (Stays rt) s
  next => exact quiet_stays rfl rfl rfl rfl rfl

theorem unsetContext_stays : Keeps (Stays rt) (TimeContext.unsetContext : Act X A DriverId) := by
  intro s
  unfold TimeContext.unsetContext
  split
  next => exact refl_of (Stays rt) s
  next =>
    split
    next => exact refl_of (Stays rt) s
    next => exact quiet_stays rfl rfl rfl rfl rfl

theorem isContextSet_stays : Keeps (Stays rt) (TimeContext.isContextSet : Act X A Bool) := by
  intro s
  unfold TimeContext.isContextSet
  split <;> exact refl_of (Stays rt) s

theorem takeCell_stays (rt' : RuntimeId) :
    Keeps (Stays rt) (TimeContext.takeCell rt' : Act X A (Option DriverId)) := by
  intro s
  have kept : Keeps (Stays rt) (updateRuntime rt' fun b => { b with timeDriver := none } : Act X A Unit) :=
    updateRuntime_stays rt' _ (fun _ => rfl) (fun _ => rfl) (fun _ => rfl) (fun _ => rfl)
  exact kept s

theorem setCell_stays (rt' : RuntimeId) (driver : DriverId) :
    Keeps (Stays rt) (TimeContext.setCell rt' driver : Act X A Unit) :=
  updateRuntime_stays rt' _ (fun _ => rfl) (fun _ => rfl) (fun _ => rfl) (fun _ => rfl)

theorem withTime_stays (rt' : RuntimeId) {f : Act X A B} (kept : Keeps (Stays rt) f) :
    Keeps (Stays rt) (BasicScheduler.withTime rt' f) := by
  refine Keeps.bind (takeCell_stays rt') fun outDriver => ?_
  cases outDriver with
  | none =>
    refine Keeps.bind isContextSet_stays fun set => ?_
    split
    next => exact kept
    next => exact Keeps.throw _
  | some outDriver =>
    refine Keeps.bind (swapContext_stays outDriver) fun otherDriver => Keeps.bind kept fun ret => ?_
    cases otherDriver with
    | none =>
      exact Keeps.bind unsetContext_stays fun ourDriver =>
        Keeps.bind (setCell_stays rt' ourDriver) fun _ => Keeps.pure ret
    | some otherDriver =>
      refine Keeps.bind (swapContext_stays otherDriver) fun ourDriver => ?_
      cases ourDriver with
      | none => exact Keeps.bind (Keeps.throw _) fun _ => Keeps.pure ret
      | some ourDriver => exact Keeps.bind (setCell_stays rt' ourDriver) fun _ => Keeps.pure ret

end Driver

section Dropped

variable {rt' : RuntimeId} {destructors : Act X A Unit} {s : Thread X A}

theorem schedulerDrop_missing (missing : (s.runtimes rt').core = none) :
    BasicScheduler.drop rt' destructors s = (.unwound .neverPlacedBack, s) :=
  bind_returned (BasicScheduler.takeCore_none missing)

theorem drop_missing (missing : (s.runtimes rt').core = none) :
    (Runtime.drop rt' destructors s).1 = .unwound .neverPlacedBack := by
  rw [Runtime.drop, guarded_unwound (schedulerDrop_missing missing)]

theorem schedulerDrop_stays (other : rt ≠ rt') (kept : Keeps (Stays rt) destructors)
    (returns : ∀ t : Thread X A, t.entered.isEntered = true → (destructors t).1 = .returned ())
    {core : Core} (stored : (s.runtimes rt').core = some core) (entered : s.entered.isEntered = true) :
    ∃ t, BasicScheduler.drop rt' destructors s = (.returned (), t) ∧ Stays rt s t := by
  let shut : Thread X A :=
    { (BasicScheduler.guarded rt' core s).update rt' fun b => { b with contextCore := none } with
      current := some rt' }.update rt' fun b => { b with owned := b.owned.closeAndShutdownAll }
  have stays := kept shut
  have returned := returns shut entered
  have destroyed : destructors shut = (.returned (), (destructors shut).2) := by rw [← returned]
  generalize (destructors shut).2 = t at destroyed stays
  let empty : Core := { core with tasks := [] }
  let left : Thread X A :=
    { t.update rt' fun b => { b with queue := none } with current := s.current }.update rt' fun b =>
      { b with contextCore := some empty }
  refine ⟨left.storeCore rt' empty, ?_, stays.within ?_ rfl rfl rfl ?_ rfl rfl rfl rfl⟩
  · have held : (left.runtimes rt').contextCore = some empty := by simp [left]
    rw [← CoreGuard.drop_some held]
    refine (bind_returned (BasicScheduler.takeCore_some stored)).trans (CoreGuard.consume_returned ?_)
    refine (CoreGuard.enter_closure (t := t.update rt' fun b => { b with queue := none })
      (by simp [BasicScheduler.guarded]; rfl) ?_)
    exact (bind_returned rfl).trans (bind_returned destroyed)
  · simp [shut, BasicScheduler.guarded, other]
  · simp [left, Thread.storeCore, other]

theorem drop_stays (rt' : RuntimeId) (kept : Keeps (Stays rt) destructors)
    (returns : ∀ t : Thread X A, t.entered.isEntered = true → (destructors t).1 = .returned ()) :
    Keeps (Stays rt) (Runtime.drop rt' destructors) := by
  intro s inside
  let begun : Thread X A := { s with context := some rt' }.record (.contextSet (some rt'))
  have begins : Stays rt s begun := context_stays (some rt') s
  cases stored : (s.runtimes rt').core with
  | none =>
    rw [Runtime.drop, guarded_unwound (schedulerDrop_missing (s := begun) stored)]
    exact trans_of (Stays rt) begins (context_stays s.context begun) inside
  | some core =>
    have other : rt ≠ rt' := by
      rintro rfl
      simp [inside.slot] at stored
    obtain ⟨t, dropped, stays⟩ := schedulerDrop_stays (s := begun) other kept returns stored inside.entered
    rw [Runtime.drop, guarded_returned dropped]
    exact trans_of (Stays rt) (trans_of (Stays rt) begins stays) (context_stays s.context t) inside

end Dropped

section Nested

variable (env : Env X A)

theorem wakeWaker_stays (waker : Waker) : Keeps (Stays rt) (wakeWaker env waker) := by
  refine Keeps.bind Keeps.get fun s => ?_
  refine Keeps.bind (Keeps.modify fun t => quiet_stays rfl rfl rfl rfl rfl) fun _ => ?_
  split
  next wake _ => exact wake_stays wake
  next => exact Keeps.pure ()

theorem wakeWakers_stays (wakers : List Waker) : Keeps (Stays rt) (wakeWakers env wakers) := by
  induction wakers with
  | nil => exact Keeps.pure ()
  | cons waker rest ih => exact Keeps.bind (wakeWaker_stays env waker) fun _ => ih

theorem loseCore_stays {rt' : RuntimeId} {s : Thread X A}
    (stored : (s.runtimes rt').core.isSome = true) : Stays rt s (s.loseCore rt') := by
  intro inside
  have other : rt ≠ rt' := by
    rintro rfl
    simp [inside.slot] at stored
  apply Stays.of_same <;> first | exact inside | simp [Thread.loseCore, other]

theorem refused_stays {rt' : RuntimeId} {m : Act X A B} {s : Thread X A}
    (refused : ∃ payload, m s = (.unwound payload, s) ∨
      (s.runtimes rt').core.isSome = true ∧ m s = (.unwound payload, s.loseCore rt')) :
    Stays rt s (m s).2 := by
  obtain ⟨payload, ended | ⟨stored, ended⟩⟩ := refused <;> rw [ended]
  · exact refl_of (Stays rt) s
  · exact loseCore_stays stored

theorem refused_context {rt' : RuntimeId} {m : Act X A B} {s : Thread X A}
    (refused : ∃ payload, m { s with context := some rt' } =
      (.unwound payload, { s with context := some rt' }) ∨
      (s.runtimes rt').core.isSome = true ∧ m { s with context := some rt' } =
        (.unwound payload, Thread.loseCore rt' { s with context := some rt' })) :
    ∃ payload, contextEnter rt' m s = (.unwound payload, s) ∨
      (s.runtimes rt').core.isSome = true ∧
        contextEnter rt' m s = (.unwound payload, s.loseCore rt') := by
  obtain ⟨payload, ended | ⟨stored, ended⟩⟩ := refused <;> have left := contextEnter_unwound ended
  · exact ⟨payload, .inl left⟩
  · exact ⟨payload, .inr ⟨stored, left⟩⟩

theorem pollUntilDeadlock_stays (fuel : Nat) (rt' : RuntimeId) :
    Keeps (Stays rt) (BasicScheduler.pollUntilDeadlock env fuel rt') := fun _ inside =>
  refused_stays (BasicScheduler.pollUntilDeadlock_entered inside.entered) inside

theorem blockOnOrDeadlock_stays (fuel : Nat) (rt' : RuntimeId) (root : RootId) :
    Keeps (Stays rt) (contextEnter rt' (BasicScheduler.blockOn env (fuel + 1) rt' root)) :=
  fun s inside =>
    refused_stays (refused_context (s := s) (BasicScheduler.blockOn_entered inside.entered)) inside

theorem method_stays (method : Method) (fuel : Nat) (rt' : RuntimeId) :
    Keeps (Stays rt) (method.exec env (fuel + 1) rt') := by
  cases method with
  | spawn task notified => exact withTime_stays rt' (spawn_stays rt' task notified)
  | takeTimestep =>
    exact withTime_stays rt' (withCurrent_stays fun driver =>
      Keeps.bind (readDriver_stays driver _) fun wakers => wakeWakers_stays env wakers)
  | nextWakeup =>
    exact Keeps.bind (withTime_stays rt' (withCurrent_stays fun driver => readDriver_stays driver _))
      fun _ => Keeps.pure ()
  | pollUntilDeadlock => exact withTime_stays rt' (pollUntilDeadlock_stays env (fuel + 1) rt')
  | blockOn root =>
    refine Keeps.bind (withTime_stays rt' fun s inside => ?_) fun _ => Keeps.pure ()
    refine refused_stays (refused_context (s := s) ?_) inside
    obtain ⟨payload, ended⟩ := BasicScheduler.blockOn_entered (s := { s with context := some rt' })
      inside.entered
    exact ⟨payload, ended.imp bind_unwound fun lost => ⟨lost.1, bind_unwound lost.2⟩⟩
  | blockOnOrDeadlock root =>
    exact Keeps.bind (withTime_stays rt' (blockOnOrDeadlock_stays env fuel rt' root)) fun _ =>
      Keeps.pure ()

end Nested

end Osaka
