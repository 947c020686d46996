import Osaka.Runtime.HandleContext

set_option autoImplicit false

namespace Osaka

open Unwind Unwind.Exec Thread

variable {X A B C : Type} {rt : RuntimeId} {s t : Thread X A} {f : Act X A B}

section Times

theorem withTime_stops (reached : BasicScheduler.Timed rt s)
    (stops : ∀ value, (f (BasicScheduler.timed rt s)).1 ≠ .returned value) :
    BasicScheduler.withTime rt f s = f (BasicScheduler.timed rt s) := by
  obtain ⟨free, drivers⟩ := reached
  cases home : (s.runtimes rt).timeDriver with
  | none =>
    have set : s.timeDriver.isSome = true := by simpa [home] using drivers
    obtain ⟨driver, set⟩ := Option.isSome_iff_exists.mp set
    rw [BasicScheduler.withTime_reused f home free set, BasicScheduler.timed, home]
  | some driver =>
    have start : BasicScheduler.timed rt s = s.swapIn rt driver := by simp [BasicScheduler.timed, home]
    rw [start] at stops ⊢
    rw [BasicScheduler.withTime_swapped f home free]
    rcases ended : f (s.swapIn rt driver) with ⟨value | payload | _, t⟩
    · exact absurd (by rw [ended]) (stops value)
    · exact bind_unwound ended
    · exact bind_running ended

theorem withTime_unreached (f : Act X A B) (unreached : ¬BasicScheduler.Timed rt s) :
    (BasicScheduler.withTime rt f s).1 ≠ .unwound .startWithinRuntime := by
  cases borrowed : s.borrowed with
  | true =>
    cases home : (s.runtimes rt).timeDriver with
    | none => simp [BasicScheduler.withTime_unavailable f home borrowed]
    | some driver => simp [BasicScheduler.withTime_lost f home borrowed]
  | false =>
    cases home : (s.runtimes rt).timeDriver with
    | none =>
      have unset : s.timeDriver = none := by
        by_contra set
        exact unreached ⟨borrowed, .inr (Option.isSome_iff_ne_none.mpr set)⟩
      simp [BasicScheduler.withTime_missing f home borrowed unset]
    | some driver => exact absurd ⟨borrowed, .inl (by simp [home])⟩ unreached

end Times

section Refusals

/-- While a runtime runs on the thread, `f` does not return, and if it unwinds then the core of `rt` is
in no slot any more. -/
def Refuses (rt : RuntimeId) (f : Act X A B) : Prop :=
  ∀ s, s.entered.isEntered = true → (f s).1 = .running ∨
    ∃ payload t, f s = (.unwound payload, t) ∧ (t.runtimes rt).core = none

theorem Refuses.bind (refuses : Refuses rt f) (next : B → Act X A C) : Refuses rt (f >>= next) := by
  intro s entered
  rcases ended : f s with ⟨value | payload | _, t⟩
  · rcases refuses s entered with running | ⟨payload, u, unwound, _⟩
    · simp [ended] at running
    · simp [ended] at unwound
  · rcases refuses s entered with running | ⟨payload', u, unwound, lost⟩
    · simp [ended] at running
    · exact .inr ⟨payload', u, bind_unwound unwound, lost⟩
  · exact .inl (by rw [bind_running ended])

theorem Refuses.contextEnter (refuses : Refuses rt f) : Refuses rt (contextEnter rt f) := by
  intro s entered
  rcases refuses { s with context := some rt } entered with running | ⟨payload, t, unwound, lost⟩
  · rcases ended : f { s with context := some rt } with ⟨exit, t⟩
    rw [ended] at running
    obtain rfl : exit = .running := running
    have stopped : Osaka.contextEnter rt f s = (.running, t) := guarded_running ended
    exact .inl (by rw [stopped])
  · exact .inr ⟨payload, _, contextEnter_unwound unwound, lost⟩

theorem Refuses.withTime (refuses : Refuses rt f) (entered : s.entered.isEntered = true)
    (refused : (BasicScheduler.withTime rt f s).1 = .unwound .startWithinRuntime) :
    ((BasicScheduler.withTime rt f s).2.runtimes rt).core = none := by
  by_cases reached : BasicScheduler.Timed rt s
  · have inside : (BasicScheduler.timed rt s).entered.isEntered = true := by simpa using entered
    have stops : ∀ value, (f (BasicScheduler.timed rt s)).1 ≠ .returned value := by
      intro value
      rcases refuses _ inside with running | ⟨payload, t, unwound, _⟩
      · simp [running]
      · simp [unwound]
    rw [withTime_stops reached stops] at refused ⊢
    rcases refuses _ inside with running | ⟨payload, t, unwound, lost⟩
    · simp [running] at refused
    · rw [unwound]
      exact lost
  · exact absurd refused (withTime_unreached f reached)

variable {env : Env X A} {fuel : Nat}

theorem pollUntilDeadlock_refuses : Refuses rt (BasicScheduler.pollUntilDeadlock env fuel rt) := by
  intro s entered
  right
  cases stored : (s.runtimes rt).core with
  | none => exact ⟨_, _, BasicScheduler.pollUntilDeadlock_missing stored, stored⟩
  | some core =>
    exact ⟨_, _, BasicScheduler.pollUntilDeadlock_refused stored entered, by simp [loseCore]⟩

theorem blockOn_refuses (root : RootId) : Refuses rt (BasicScheduler.blockOn env fuel rt root) := by
  intro s entered
  cases fuel with
  | zero => exact .inl rfl
  | succ fuel =>
    right
    cases stored : (s.runtimes rt).core with
    | none => exact ⟨_, _, BasicScheduler.blockOn_missing stored entered, stored⟩
    | some core => exact ⟨_, _, BasicScheduler.blockOn_refused stored entered, by simp [loseCore]⟩

theorem discarded_unwound {payload : Panic} (unwound : ((do
      let _ ← f
      pure () : Act X A Unit) s).1 = .unwound payload) :
    f s = (.unwound payload, (((do
      let _ ← f
      pure () : Act X A Unit) s)).2) := by
  rcases ended : f s with ⟨value | payload' | _, t⟩
  · rw [bind_returned ended] at unwound
    cases unwound
  · rw [bind_unwound ended] at unwound ⊢
    cases unwound
    rfl
  · rw [bind_running ended] at unwound
    cases unwound

theorem Method.refused_lost {method : Method} (runs : method.Runs) (polling : s.entered.isEntered = true)
    (refused : (method.exec env fuel rt s).1 = .unwound .startWithinRuntime) :
    ((method.exec env fuel rt s).2.runtimes rt).core = none := by
  cases method with
  | spawn task notified => exact runs.elim
  | takeTimestep => exact runs.elim
  | nextWakeup => exact runs.elim
  | pollUntilDeadlock => exact pollUntilDeadlock_refuses.withTime polling refused
  | blockOn root =>
    have called := discarded_unwound refused
    have lost := ((blockOn_refuses root).bind _).contextEnter.withTime polling
      (congrArg Prod.fst called)
    rwa [show BasicScheduler.withTime rt _ s = _ from called] at lost
  | blockOnOrDeadlock root =>
    have called := discarded_unwound refused
    have lost := (blockOn_refuses root).contextEnter.withTime polling (congrArg Prod.fst called)
    rwa [show BasicScheduler.withTime rt _ s = _ from called] at lost

end Refusals

section Ruin

variable {env : Env X A} {fuel : Nat}

@[simp]
theorem timed_owned : ((BasicScheduler.timed rt s).runtimes rt).owned = (s.runtimes rt).owned := by
  unfold BasicScheduler.timed
  split <;> simp [swapIn]

theorem withTime_lost_core {payload : Panic} (reached : BasicScheduler.Timed rt s)
    (ended : f (BasicScheduler.timed rt s) = (.unwound payload, (BasicScheduler.timed rt s).loseCore rt)) :
    BasicScheduler.withTime rt f s = (.unwound payload, (BasicScheduler.timed rt s).loseCore rt) :=
  (withTime_stops reached (by simp [ended])).trans ended

theorem Method.refused_run {method : Method} (runs : method.Runs) (polling : s.entered.isEntered = true)
    (reached : BasicScheduler.Timed rt s) {core : Core} (stored : (s.runtimes rt).core = some core) :
    method.exec env (fuel + 1) rt s =
      (.unwound .startWithinRuntime, (BasicScheduler.timed rt s).loseCore rt) := by
  have inside : (BasicScheduler.timed rt s).entered.isEntered = true := by simpa using polling
  have here : ((BasicScheduler.timed rt s).runtimes rt).core = some core := by simpa using stored
  have blocked (root : RootId) : BasicScheduler.blockOn env (fuel + 1) rt root
      { BasicScheduler.timed rt s with context := some rt } =
        (.unwound .startWithinRuntime, loseCore rt { BasicScheduler.timed rt s with context := some rt }) :=
    BasicScheduler.blockOn_refused here inside
  cases method with
  | spawn task notified => exact runs.elim
  | takeTimestep => exact runs.elim
  | nextWakeup => exact runs.elim
  | pollUntilDeadlock =>
    exact withTime_lost_core reached (BasicScheduler.pollUntilDeadlock_refused here inside)
  | blockOn root =>
    exact bind_unwound (withTime_lost_core reached (contextEnter_unwound (bind_unwound (blocked root))))
  | blockOnOrDeadlock root =>
    exact bind_unwound (withTime_lost_core reached (contextEnter_unwound (blocked root)))

/-- Inside a poll, the call of a method that runs `rt` is refused; the tasks in its local queue are lost
with the core, and from then on `rt` can neither be run nor be dropped. -/
theorem Method.refused_ruins {method : Method} (runs : method.Runs) (polling : s.entered.isEntered = true)
    (reached : BasicScheduler.Timed rt s) (stored : (s.runtimes rt).core.isSome = true) :
    ∃ t, method.exec env (fuel + 1) rt s = (.unwound .startWithinRuntime, t) ∧
      (t.runtimes rt).queue = (s.runtimes rt).queue ∧ (t.runtimes rt).owned = (s.runtimes rt).owned ∧
      (∀ fuel, (BasicScheduler.pollUntilDeadlock env fuel rt t).1 = .unwound .huh) ∧
      ∀ destructors, (Runtime.drop rt destructors t).1 = .unwound .neverPlacedBack := by
  obtain ⟨core, stored⟩ := Option.isSome_iff_exists.mp stored
  have lost : (((BasicScheduler.timed rt s).loseCore rt).runtimes rt).core = none := by simp [loseCore]
  refine ⟨_, Method.refused_run runs polling reached stored, by simp [loseCore], by simp [loseCore],
    fun fuel => ?_, fun destructors => ?_⟩
  · rw [BasicScheduler.pollUntilDeadlock_missing lost]
  · exact drop_missing lost

end Ruin

/-- The call was refused because some runtime runs on the thread, and has left the runtime as it was. -/
structure RefusedAtomically (rt : RuntimeId) (s : Thread X A) (r : Exit Panic B × Thread X A) : Prop where
  refused : r.1 = .unwound .startWithinRuntime
  core : ∃ core, (s.runtimes rt).core = some core ∧ (r.2.runtimes rt).core = some core
  queue : (r.2.runtimes rt).queue = (s.runtimes rt).queue
  owned : (r.2.runtimes rt).owned = (s.runtimes rt).owned

/-- Whatever method runs a runtime inside a poll: when the call is refused, the core is gone. -/
theorem nested_run_not_atomic (env : Env X A) (fuel : Nat) (rt : RuntimeId) (method : Method)
    (s : Thread X A) (runs : method.Runs) (polling : s.entered.isEntered = true) :
    ¬RefusedAtomically rt s (method.exec env fuel rt s) := by
  intro atomic
  obtain ⟨core, _, kept⟩ := atomic.core
  rw [Method.refused_lost runs polling atomic.refused] at kept
  cases kept

def visitor : Program Unit Unit :=
  { run := fun task _ => (if task.task = 1 then [.call 1 .pollUntilDeadlock true] else [], ())
    poll := fun _ _ => (([], .pending), ())
    wake := fun _ _ => (none, ()) }

def neighbours : Thread Unit Unit :=
  { relayStart with
    runtimes := fun rt =>
      { BasicScheduler.new rt with core := some ⟨[⟨rt + 1, 0⟩], 1, false, rfl⟩, queue := some [] } }

def visiting : Thread Unit Unit :=
  { (neighbours.update 0 fun b => { b with core := none, contextCore := some ⟨[], 2, false, rfl⟩, timeDriver := none }) with
    context := some 0
    entered := .entered false
    current := some 0
    timeDriver := some 0 }

theorem nested_run_not_atomic_visiting :
    ¬RefusedAtomically 1 visiting (Method.pollUntilDeadlock.exec (visitor.env 0) 1 1 visiting) :=
  nested_run_not_atomic (visitor.env 0) 1 1 .pollUntilDeadlock visiting trivial rfl

theorem visiting_lost :
    ((Method.pollUntilDeadlock.exec (visitor.env 0) 1 1 visiting).2.runtimes 1).core = none := by
  decide +kernel

theorem nested_run_loses_core :
    ¬∀ (env : Env Unit Unit) (fuel : Nat) (a b : RuntimeId) (method : Method) (s : Thread Unit Unit),
      method.Runs → a ≠ b → Inside a s → (s.runtimes b).core.isSome = true → BasicScheduler.Timed b s →
        RefusedAtomically b s (method.exec env (fuel + 1) b s) := by
  intro atomic
  have inside : Inside 0 visiting := ⟨rfl, rfl, rfl, rfl⟩
  have kept := atomic (visitor.env 0) 0 0 1 .pollUntilDeadlock visiting trivial (by decide) inside rfl
    ⟨rfl, .inl rfl⟩
  obtain ⟨core, _, kept⟩ := kept.core
  rw [visiting_lost] at kept
  cases kept

def visited : Thread Unit Unit := (Method.pollUntilDeadlock.exec (visitor.env 0) 5 0 neighbours).2

-- the panic of the nested call stays in the harness of the task, and shows when the other runtime is used
example : (visited.runtimes 0).core.isSome = true ∧ (visited.runtimes 1).core = none ∧
    (BasicScheduler.pollUntilDeadlock (visitor.env 0) 5 1 visited).1 = .unwound .huh ∧
    (Runtime.drop 1 (pure ()) visited).1 = .unwound .neverPlacedBack := by decide +kernel

end Osaka
