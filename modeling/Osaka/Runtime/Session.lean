import Osaka.Runtime.Scheduler

set_option autoImplicit false

namespace Osaka

open Unwind Time

variable {X A B : Type}

namespace Thread

/-- The thread once `CoreGuard::enter` and `runtime::enter` have returned in the closure. -/
def beginRun (rt : RuntimeId) (s : Thread X A) : Thread X A :=
  { s.update rt fun b => { b with contextCore := none } with
    current := some rt
    entered := .entered false }

/-- The thread once the guards made by `beginRun` are dropped. -/
def endRun (s t : Thread X A) : Thread X A :=
  { t with entered := .notEntered, current := s.current }

def storeCore (rt : RuntimeId) (core : Core) (t : Thread X A) : Thread X A :=
  t.update rt fun b => { b with core := some core, notify := true, contextCore := none }

def loseCore (rt : RuntimeId) (t : Thread X A) : Thread X A :=
  t.update rt fun b => { b with core := none, contextCore := none }

@[simp]
theorem update_update (t : Thread X A) (rt : RuntimeId) (f g : BasicScheduler → BasicScheduler) :
    (t.update rt f).update rt g = t.update rt (fun b => g (f b)) := by
  simp [update]

end Thread

open Thread

theorem contextEnter_returned {rt : RuntimeId} {m : Act X A B} {s t : Thread X A} {value : B}
    (ended : m { s with context := some rt } = (.returned value, t)) :
    contextEnter rt m s = (.returned value, { t with context := s.context }) :=
  Exec.guarded_returned ended

theorem contextEnter_unwound {rt : RuntimeId} {m : Act X A B} {s t : Thread X A} {payload : Panic}
    (ended : m { s with context := some rt } = (.unwound payload, t)) :
    contextEnter rt m s = (.unwound payload, { t with context := s.context }) :=
  Exec.guarded_unwound ended

namespace BasicScheduler

def guarded (rt : RuntimeId) (core : Core) (s : Thread X A) : Thread X A :=
  s.update rt fun b => { b with core := none, contextCore := some core }

theorem takeCore_some {rt : RuntimeId} {core : Core} {s : Thread X A}
    (stored : (s.runtimes rt).core = some core) : takeCore rt s = (.returned true, guarded rt core s) := by
  simp [takeCore, stored, guarded]

theorem takeCore_none {rt : RuntimeId} {s : Thread X A} (missing : (s.runtimes rt).core = none) :
    takeCore rt s = (.returned false, s) := by
  simp [takeCore, missing]

end BasicScheduler

namespace CoreGuard

theorem drop_some {rt : RuntimeId} {core : Core} {t : Thread X A}
    (held : (t.runtimes rt).contextCore = some core) : drop rt t = t.storeCore rt core := by
  simp [drop, held, storeCore]

theorem drop_none {rt : RuntimeId} {t : Thread X A} (held : (t.runtimes rt).contextCore = none) :
    drop rt t = t := by
  simp [drop, held]

end CoreGuard

namespace Context

theorem takeCore_some {rt : RuntimeId} {core : Core} {s : Thread X A}
    (held : (s.runtimes rt).contextCore = some core) :
    takeCore rt s = (.returned core, s.update rt fun b => { b with contextCore := none }) := by
  simp [takeCore, held]

end Context

namespace CoreGuard

section Enter

variable {rt : RuntimeId} {core : Core} {s t : Thread X A}
variable {body : Core → Act X A (Core × B)}

theorem consume_returned {m : Act X A B} {value : B} (ended : m s = (.returned value, t)) :
    consume rt m s = (.returned value, drop rt t) :=
  Exec.guarded_returned ended

theorem consume_unwound {m : Act X A B} {payload : Panic} (ended : m s = (.unwound payload, t)) :
    consume rt m s = (.unwound payload, drop rt t) :=
  Exec.guarded_unwound ended

theorem consume_running {m : Act X A B} (ended : m s = (.running, t)) :
    consume rt m s = (.running, t) :=
  Exec.guarded_running ended

theorem currentSet_returned {m : Act X A B} {value : B}
    (ended : m { s with current := some rt } = (.returned value, t)) :
    currentSet rt m s = (.returned value, { t with current := s.current }) :=
  Exec.guarded_returned ended

theorem enter_closure (held : (s.runtimes rt).contextCore = some core) {core' : Core} {ret : B}
    (ran : body core { s.update rt fun b => { b with contextCore := none } with current := some rt } =
      (.returned (core', ret), t)) :
    enter rt body s =
      (.returned ret, { t with current := s.current }.update rt fun b =>
        { b with contextCore := some core' }) := by
  refine (Exec.bind_returned (Context.takeCore_some held)).trans ?_
  exact Exec.bind_returned (currentSet_returned (s := s.update rt _) ran)

theorem within_refused {m : Act X A B} (entered : s.entered.isEntered = true) :
    currentSet rt (runtimeEnter false m) s = (.unwound .startWithinRuntime, s) := by
  simp [currentSet, Exec.guarded, runtimeEnter, entered]

section Within

variable {m : Act X A B} (free : s.entered.isEntered = false)
include free

theorem within_returned {value : B}
    (ran : m { s with current := some rt, entered := .entered false } = (.returned value, t)) :
    currentSet rt (runtimeEnter false m) s = (.returned value, s.endRun t) := by
  simp [currentSet, Exec.guarded, runtimeEnter, free, ran, endRun]

theorem within_unwound {payload : Panic}
    (ran : m { s with current := some rt, entered := .entered false } = (.unwound payload, t)) :
    currentSet rt (runtimeEnter false m) s = (.unwound payload, s.endRun t) := by
  simp [currentSet, Exec.guarded, runtimeEnter, free, ran, endRun]

theorem within_running
    (ran : m { s with current := some rt, entered := .entered false } = (.running, t)) :
    currentSet rt (runtimeEnter false m) s = (.running, t) := by
  simp [currentSet, Exec.guarded, runtimeEnter, free, ran]

end Within

theorem enter_refused (held : (s.runtimes rt).contextCore = some core)
    (entered : s.entered.isEntered = true) :
    enter rt (fun core => runtimeEnter false (body core)) s =
      (.unwound .startWithinRuntime, s.update rt fun b => { b with contextCore := none }) := by
  refine (Exec.bind_returned (Context.takeCore_some held)).trans ?_
  exact Exec.bind_unwound (within_refused entered)

variable (held : (s.runtimes rt).contextCore = some core) (free : s.entered.isEntered = false)
include held free

theorem enter_returned {core' : Core} {ret : B}
    (ran : body core (s.beginRun rt) = (.returned (core', ret), t)) :
    enter rt (fun core => runtimeEnter false (body core)) s =
      (.returned ret, (s.endRun t).update rt fun b => { b with contextCore := some core' }) := by
  refine (Exec.bind_returned (Context.takeCore_some held)).trans ?_
  exact Exec.bind_returned (within_returned (s := s.update rt _) free ran)

theorem enter_unwound {payload : Panic} (ran : body core (s.beginRun rt) = (.unwound payload, t)) :
    enter rt (fun core => runtimeEnter false (body core)) s = (.unwound payload, s.endRun t) := by
  refine (Exec.bind_returned (Context.takeCore_some held)).trans ?_
  exact Exec.bind_unwound (within_unwound (s := s.update rt _) free ran)

theorem enter_running (ran : body core (s.beginRun rt) = (.running, t)) :
    enter rt (fun core => runtimeEnter false (body core)) s = (.running, t) := by
  refine (Exec.bind_returned (Context.takeCore_some held)).trans ?_
  exact Exec.bind_running (within_running (s := s.update rt _) free ran)

end Enter

end CoreGuard

section Refused

variable {env : Env X A} {fuel : Nat} {rt : RuntimeId} {core : Core} {s : Thread X A}

theorem CoreGuard.pollUntilDeadlock_refused (held : (s.runtimes rt).contextCore = some core)
    (entered : s.entered.isEntered = true) :
    CoreGuard.pollUntilDeadlock env fuel rt s =
      (.unwound .startWithinRuntime, s.update rt fun b => { b with contextCore := none }) := by
  simp [CoreGuard.pollUntilDeadlock, CoreGuard.consume, Exec.guarded,
    CoreGuard.enter_refused held entered, CoreGuard.drop]

theorem CoreGuard.blockOn_refused {root : RootId} (held : (s.runtimes rt).contextCore = some core)
    (entered : s.entered.isEntered = true) :
    CoreGuard.blockOn env fuel rt root s =
      (.unwound .startWithinRuntime, s.update rt fun b => { b with contextCore := none }) := by
  simp [CoreGuard.blockOn, CoreGuard.consume, Exec.guarded, Exec.bind_apply,
    CoreGuard.enter_refused held entered, CoreGuard.drop]

theorem BasicScheduler.pollUntilDeadlock_refused (stored : (s.runtimes rt).core = some core)
    (entered : s.entered.isEntered = true) :
    BasicScheduler.pollUntilDeadlock env fuel rt s = (.unwound .startWithinRuntime, s.loseCore rt) := by
  rw [BasicScheduler.pollUntilDeadlock, Exec.bind_returned (BasicScheduler.takeCore_some stored)]
  have held : ((BasicScheduler.guarded rt core s).runtimes rt).contextCore = some core := by
    simp [BasicScheduler.guarded]
  exact (CoreGuard.pollUntilDeadlock_refused held entered).trans
    (by simp [BasicScheduler.guarded, loseCore])

theorem BasicScheduler.pollUntilDeadlock_missing (missing : (s.runtimes rt).core = none) :
    BasicScheduler.pollUntilDeadlock env fuel rt s = (.unwound .huh, s) := by
  rw [BasicScheduler.pollUntilDeadlock, Exec.bind_returned (BasicScheduler.takeCore_none missing)]
  rfl

theorem BasicScheduler.blockOn_refused {root : RootId} (stored : (s.runtimes rt).core = some core) (entered : s.entered.isEntered = true) :
    BasicScheduler.blockOn env (fuel + 1) rt root s = (.unwound .startWithinRuntime, s.loseCore rt) := by
  rw [BasicScheduler.blockOn, Exec.loop]
  apply Exec.bind_unwound
  rw [Exec.bind_returned (BasicScheduler.takeCore_some stored)]
  have held : ((BasicScheduler.guarded rt core s).runtimes rt).contextCore = some core := by
    simp [BasicScheduler.guarded]
  apply Exec.bind_unwound
  exact (CoreGuard.blockOn_refused held entered).trans (by simp [BasicScheduler.guarded, loseCore])

theorem BasicScheduler.blockOn_missing {root : RootId} (missing : (s.runtimes rt).core = none) (entered : s.entered.isEntered = true) :
    BasicScheduler.blockOn env (fuel + 1) rt root s = (.unwound .startWithinRuntime, s) := by
  rw [BasicScheduler.blockOn, Exec.loop]
  apply Exec.bind_unwound
  rw [Exec.bind_returned (BasicScheduler.takeCore_none missing)]
  apply Exec.bind_unwound
  simp [runtimeEnter, entered]

theorem BasicScheduler.pollUntilDeadlock_entered (entered : s.entered.isEntered = true) :
    ∃ payload, BasicScheduler.pollUntilDeadlock env fuel rt s = (.unwound payload, s) ∨
      (s.runtimes rt).core.isSome = true ∧
        BasicScheduler.pollUntilDeadlock env fuel rt s = (.unwound payload, s.loseCore rt) := by
  cases stored : (s.runtimes rt).core with
  | none => exact ⟨_, .inl (pollUntilDeadlock_missing stored)⟩
  | some core => exact ⟨_, .inr ⟨rfl, pollUntilDeadlock_refused stored entered⟩⟩

theorem BasicScheduler.blockOn_entered {root : RootId} (entered : s.entered.isEntered = true) :
    ∃ payload, BasicScheduler.blockOn env (fuel + 1) rt root s = (.unwound payload, s) ∨
      (s.runtimes rt).core.isSome = true ∧
        BasicScheduler.blockOn env (fuel + 1) rt root s = (.unwound payload, s.loseCore rt) := by
  cases stored : (s.runtimes rt).core with
  | none => exact ⟨_, .inl (blockOn_missing stored entered)⟩
  | some core => exact ⟨_, .inr ⟨rfl, blockOn_refused stored entered⟩⟩

end Refused

end Osaka
