import Osaka.Runtime.Accounting

set_option autoImplicit false

namespace Osaka

open Unwind Unwind.Exec Thread Time

variable {X A : Type} {rt : RuntimeId}

/-- `Schedule::schedule`, on a thread on which the runtime does not run. -/
def Shared.scheduleRemote (rt : RuntimeId) (t : Thread X A) (task : Notified) : Thread X A :=
  match (t.runtimes rt).queue with
  | some queue =>
    (t.update rt fun s => { s with queue := some (queue ++ [task]) }).record (.scheduled rt .shared task)
  | none => t.record (.scheduled rt .nowhere task)

/-- Iterations of the loop in `poll_until_deadlock`, before each of which other threads schedule `others`; `none`
if the loop returns. -/
def iterate (env : Env X A) (rt : RuntimeId) (others : Nat → List Notified) :
    Nat → Turn → Thread X A → Option (Turn × Thread X A)
  | 0, turn, s => some (turn, s)
  | n + 1, turn, s =>
    match pollUntilDeadlockTurn env rt turn ((others 0).foldl (Shared.scheduleRemote rt) s) with
    | (.returned (.inl next), t) => iterate env rt (fun i => others (i + 1)) n next t
    | _ => none

def entries (rt : RuntimeId) (place : Place) (core : Core) (s : Thread X A) : List Notified :=
  match place with
  | .core => core.tasks
  | .shared => (s.runtimes rt).queue.getD []
  | .nowhere => []

def Core.first (core : Core) : Place := if core.tick % 5 = 0 then .shared else .core

section Iterations

variable {env : Env X A} {core core' : Core} {s t : Thread X A} {events : List (Event A)}

theorem Progress.entries_eq (progress : Progress rt core s core' t events)
    (alive : (s.runtimes rt).queue.isSome = true) {place : Place} (queued : place ≠ .nowhere) :
    entries rt place core s ++ scheduledTo rt place events = ranFrom rt place events ++ entries rt place core' t := by
  cases place with
  | core => exact progress.tasks
  | shared =>
    obtain ⟨queue, stored⟩ := Option.isSome_iff_exists.mp alive
    obtain ⟨queue', stored', fifo⟩ := progress.queue queue stored
    simpa [entries, stored, stored'] using fifo
  | nowhere => exact absurd rfl queued

theorem scheduleRemote_progress (core : Core) (others : List Notified) (driving : Driving rt s) :
    ∃ events, Progress rt core s core (others.foldl (Shared.scheduleRemote rt) s) events ∧
      (∀ place, ranFrom rt place events = []) ∧ Driving rt (others.foldl (Shared.scheduleRemote rt) s) := by
  induction others generalizing s with
  | nil => exact ⟨[], Progress.refl rt core s, fun _ => rfl, driving⟩
  | cons task rest ih =>
    obtain ⟨queue, stored⟩ := Option.isSome_iff_exists.mp driving.alive
    have first : Progress rt core s core (Shared.scheduleRemote rt s task) [.scheduled rt .shared task] := by
      constructor <;> simp [Shared.scheduleRemote, stored, Thread.record, scheduledTo, ranFrom, wokenAfter, wokenStep,
        handleStep, Event.Reads]
    have still : Driving rt (Shared.scheduleRemote rt s task) := by
      obtain ⟨entered, slot, alive, cell⟩ := driving
      constructor <;> simp [Shared.scheduleRemote, stored, Thread.record, entered, slot, cell]
    obtain ⟨events, later, unran, driving'⟩ := ih still
    refine ⟨_, first.trans later, ?_, driving'⟩
    intro place
    rw [ranFrom_append, unran]
    simp [ranFrom]

theorem nextEntry_first (driving : Driving rt s) (waiting : ∃ place, entries rt place core s ≠ []) :
    ∃ place task core₁ s₁, place ≠ .nowhere ∧
      nextEntry rt core s = (.returned (some (place, task), core₁), s₁) ∧ core₁.tick = core.tick + 1 ∧
      (place = core.first ∨ entries rt core.first core s = []) := by
  obtain ⟨queue, stored⟩ := Option.isSome_iff_exists.mp driving.alive
  unfold Core.first
  by_cases turn : core.tick % 5 = 0
  · rw [if_pos turn]
    cases queue with
    | cons task rest =>
      refine ⟨.shared, task, core.ticked, s.update rt fun b => { b with queue := some rest }, by simp, ?_, rfl, ?_⟩
      · simp [nextEntry, turn, bind_apply, Spawner.pop, stored, Core.ticked]
      · exact Or.inl rfl
    | nil =>
      cases tasks : core.tasks with
      | nil =>
        obtain ⟨place, waiting⟩ := waiting
        cases place <;> simp [entries, stored, tasks] at waiting
      | cons task rest =>
        refine ⟨.core, task, { core.ticked with tasks := rest }, s, by simp, ?_, rfl, Or.inr ?_⟩
        · simp [nextEntry, turn, bind_apply, Spawner.pop, stored, Core.popTask, tasks, Core.ticked]
        · simp [entries, stored]
  · rw [if_neg turn]
    cases tasks : core.tasks with
    | cons task rest =>
      refine ⟨.core, task, { core.ticked with tasks := rest }, s, by simp, ?_, rfl, Or.inl rfl⟩
      simp [nextEntry, turn, Core.popTask, tasks, Core.ticked]
    | nil =>
      cases queue with
      | nil =>
        obtain ⟨place, waiting⟩ := waiting
        cases place <;> simp [entries, stored, tasks] at waiting
      | cons task rest =>
        refine ⟨.shared, task, core.ticked, s.update rt fun b => { b with queue := some rest }, by simp, ?_, rfl,
          Or.inr ?_⟩
        · simp [nextEntry, turn, bind_apply, Spawner.pop, stored, Core.popTask, tasks, Core.ticked]
        · simp [entries, tasks]

theorem passive_unran (passive : ∀ event ∈ events, event.Passive) (place : Place) :
    ranFrom rt place events = [] := by
  unfold ranFrom
  rw [List.filterMap_eq_nil_iff]
  intro event member
  have legal := passive event member
  cases event with
  | ran => exact absurd legal id
  | _ => rfl

structure Served (rt : RuntimeId) (turn : Turn) (s : Thread X A) (next : Turn) (t : Thread X A)
    (events : List (Event A)) (place : Place) : Prop where
  driving : Driving rt t
  progress : Progress rt turn.core s next.core t events
  tick : next.core.tick = turn.core.tick + 1
  one : (ranFrom rt place events).length = 1
  other : ∀ unserved, unserved ≠ place → ranFrom rt unserved events = []

theorem pollUntilDeadlockTurn_serves (contained : env.Contained) {turn : Turn} (driving : Driving rt s)
    (waiting : ∃ place, entries rt place turn.core s ≠ []) :
    ∃ next t events place, pollUntilDeadlockTurn env rt turn s = (.returned (.inl next), t) ∧
      Served rt turn s next t events place ∧
      (place = turn.core.first ∨ entries rt turn.core.first turn.core s = []) := by
  obtain ⟨place, task, core₁, s₁, _, taken, tick, chosen⟩ := nextEntry_first driving waiting
  obtain ⟨core₂, t, events, progress, passive, driving', same, ended⟩ := task_turn contained driving taken
  refine ⟨if turn.i + 1 < 10 then ⟨core₂, turn.c + 1, turn.i + 1⟩ else .top core₂, t,
    .ran rt place task s.context :: events, place, ?_, ?_, chosen⟩
  · exact (pollUntilDeadlockTurn_task taken).trans (bind_returned ended)
  have ran (asked : Place) : ranFrom rt asked (.ran rt place task s.context :: events) =
      if place = asked then [task] else [] := by
    change ranFrom rt asked ([.ran rt place task s.context] ++ events) = _
    rw [ranFrom_append, passive_unran passive, List.append_nil]
    by_cases same : place = asked <;> simp [ranFrom, same]
  constructor
  · exact driving'
  · split
    next => exact progress
    next => exact progress
  · split
    next => exact same.trans tick
    next => exact same.trans tick
  · simp [ran]
  · intro unserved differs
    rw [ran, if_neg (Ne.symm differs)]

/-- `place` waits no longer than `wait` says before an entry is taken from it, and then for another `slot`. -/
structure Ranks (place : Place) (slot : Nat) (wait : UInt32 → Nat) : Prop where
  queued : place ≠ .nowhere
  positive : ∀ tick, 0 < wait tick
  served : ∀ tick, wait (tick + 1) + 1 ≤ slot + wait tick
  passed : ∀ core : Core, core.first ≠ place → wait (core.tick + 1) + 1 ≤ wait core.tick

theorem popped_within (contained : env.Contained) {place : Place} {slot : Nat} {wait : UInt32 → Nat}
    (ranks : Ranks place slot wait) (bound : Nat) {others : Nat → List Notified} {turn : Turn} {p : Nat}
    (driving : Driving rt s) (stored : p < (entries rt place turn.core s).length)
    (within : slot * p + wait turn.core.tick ≤ bound) :
    ∃ n ≤ bound, ∃ next t events, iterate env rt others n turn s = some (next, t) ∧
      Progress rt turn.core s next.core t events ∧
      ranFrom rt place events = (entries rt place turn.core s).take (p + 1) := by
  induction bound generalizing others turn s p with
  | zero =>
    have positive := ranks.positive turn.core.tick
    omega
  | succ bound ih =>
    obtain ⟨early, pushes, unran, driving₁⟩ := scheduleRemote_progress turn.core (others 0) driving
    have kept := pushes.entries_eq driving.alive ranks.queued
    rw [unran, List.nil_append] at kept
    have waiting : entries rt place turn.core ((others 0).foldl (Shared.scheduleRemote rt) s) ≠ [] := by
      intro empty
      rw [← kept, List.append_eq_nil_iff] at empty
      simp [empty.1] at stored
    obtain ⟨turn₁, t, late, served, turned, ⟨driving₂, progress, tick, one, other⟩, chosen⟩ :=
      pollUntilDeadlockTurn_serves contained driving₁ ⟨place, waiting⟩
    have total := pushes.trans progress
    have fifo := total.entries_eq driving.alive ranks.queued
    rw [ranFrom_append, unran, List.nil_append] at fifo
    have step (n : Nat) : iterate env rt others (n + 1) turn s =
        iterate env rt (fun i => others (i + 1)) n turn₁ t := by
      simp only [iterate, turned]
    by_cases same : served = place
    · subst same
      obtain ⟨task, ran⟩ := List.length_eq_one_iff.mp one
      rw [ran] at fifo
      cases listed : entries rt served turn.core s with
      | nil => simp [listed] at stored
      | cons first rest =>
        rw [listed] at fifo stored
        obtain rfl : first = task := (List.cons.inj fifo).1
        have left : rest ++ scheduledTo rt served (early ++ late) = entries rt served turn₁.core t :=
          (List.cons.inj fifo).2
        cases p with
        | zero =>
          refine ⟨1, Nat.succ_le_succ (Nat.zero_le _), turn₁, t, _, step 0, total, ?_⟩
          simp [unran, ran]
        | succ p =>
          have below : p < rest.length := Nat.lt_of_succ_lt_succ stored
          have later : p < (entries rt served turn₁.core t).length := by
            rw [← left, List.length_append]
            exact Nat.lt_add_right _ below
          have remaining : slot * p + wait turn₁.core.tick ≤ bound := by
            have next := ranks.served turn.core.tick
            rw [Nat.mul_succ] at within
            rw [tick]
            omega
          obtain ⟨n, few, next, u, events, iterated, progress', taken⟩ := ih driving₂ later remaining
          refine ⟨n + 1, Nat.succ_le_succ few, next, u, _, (step n).trans iterated, total.trans progress', ?_⟩
          rw [ranFrom_append, ranFrom_append, unran, ran, taken, ← left, List.take_append_of_le_length below]
          rfl
    · rw [other place (Ne.symm same), List.nil_append] at fifo
      have passed : turn.core.first ≠ place := by
        rintro rfl
        rcases chosen with chosen | empty
        · exact same chosen
        · exact waiting empty
      have later : p < (entries rt place turn₁.core t).length := by
        rw [← fifo, List.length_append]
        exact Nat.lt_add_right _ stored
      have remaining : slot * p + wait turn₁.core.tick ≤ bound := by
        have next := ranks.passed turn.core passed
        rw [tick]
        omega
      obtain ⟨n, few, next, u, events, iterated, progress', taken⟩ := ih driving₂ later remaining
      refine ⟨n + 1, Nat.succ_le_succ few, next, u, _, (step n).trans iterated, total.trans progress', ?_⟩
      rw [ranFrom_append, ranFrom_append, unran, other place (Ne.symm same), taken, ← fifo,
        List.take_append_of_le_length stored]
      rfl

theorem iterate_loop (n fuel : Nat) {turn next : Turn}
    (iterated : iterate env rt (fun _ => []) n turn s = some (next, t)) :
    loop (pollUntilDeadlockTurn env rt) (n + fuel) turn s = loop (pollUntilDeadlockTurn env rt) fuel next t := by
  induction n generalizing turn s with
  | zero =>
    obtain ⟨rfl, rfl⟩ := Prod.mk.inj (Option.some.inj iterated)
    rw [Nat.zero_add]
  | succ n ih =>
    rcases turned : pollUntilDeadlockTurn env rt turn s with ⟨(turn₁ | _) | _ | _, u⟩ <;>
      simp only [iterate, List.foldl_nil, turned, reduceCtorEq] at iterated
    rw [Nat.add_right_comm, loop_next turned]
    exact ih iterated

theorem iterate_progress (contained : env.Contained) (n : Nat) {others : Nat → List Notified} {turn next : Turn}
    (driving : Driving rt s) (iterated : iterate env rt others n turn s = some (next, t)) :
    ∃ events, Progress rt turn.core s next.core t events := by
  induction n generalizing others turn s with
  | zero =>
    obtain ⟨rfl, rfl⟩ := Prod.mk.inj (Option.some.inj iterated)
    exact ⟨[], Progress.refl rt turn.core s⟩
  | succ n ih =>
    obtain ⟨early, pushes, _, driving₁⟩ := scheduleRemote_progress turn.core (others 0) driving
    rcases pollUntilDeadlockTurn_cases contained driving₁ (Accounted.refl rt turn.core _) with
      ⟨core', last, _⟩ | ⟨turn₁, u, stepped, ⟨late, progress, _⟩, driving₂⟩
    · simp [iterate, last] at iterated
    · simp only [iterate, stepped] at iterated
      obtain ⟨events, later⟩ := ih driving₂ iterated
      exact ⟨_, (pushes.trans progress).trans later⟩

end Iterations

section Ticks

theorem first_shared {core : Core} : core.first = .shared ↔ core.tick.toNat % 5 = 0 := by
  have same : core.tick % 5 = 0 ↔ core.tick.toNat % 5 = 0 := by
    rw [← UInt32.toNat_inj, UInt32.toNat_mod]
    rfl
  unfold Core.first
  split
  next turn => simpa using same.mp turn
  next turn => simpa using fun zero => turn (same.mpr zero)

theorem toNat_next (tick : UInt32) :
    (tick.toNat = 4294967295 ∧ (tick + 1).toNat = 0) ∨
      (tick.toNat < 4294967295 ∧ (tick + 1).toNat = tick.toNat + 1) := by
  have small := tick.toNat_lt
  have sum : (tick + 1).toNat = (tick.toNat + 1) % 2 ^ 32 := by
    rw [UInt32.toNat_add]
    rfl
  rcases Nat.lt_or_ge tick.toNat 4294967295 with below | last
  · exact Or.inr ⟨below, by omega⟩
  · exact Or.inl ⟨by omega, by omega⟩

-- The iterations until the shared queue is asked first. 2 ^ 32 - 1 is a multiple of 5, and so is 0 after it.
def waitShared (tick : UInt32) : Nat := (5 - tick.toNat % 5) % 5 + 1

-- Two iterations in a row ask the shared queue first only where the tick wraps.
def waitCore (tick : UInt32) : Nat :=
  if tick.toNat = 4294967295 then 4
  else if tick.toNat = 4294967294 ∨ tick.toNat % 5 = 0 then 3
  else 2

theorem ranks_shared : Ranks .shared 5 waitShared where
  queued := by simp
  positive tick := Nat.succ_pos _
  served tick := by
    unfold waitShared
    omega
  passed core passed := by
    have zero : core.tick.toNat % 5 ≠ 0 := fun zero => passed (first_shared.mpr zero)
    unfold waitShared
    rcases toNat_next core.tick with ⟨last, _⟩ | ⟨_, next⟩
    · omega
    · rw [next]
      omega

theorem waitCore_bounds (tick : UInt32) : 2 ≤ waitCore tick ∧ waitCore tick ≤ 4 := by
  unfold waitCore
  split <;> [skip; split] <;> omega

theorem ranks_core : Ranks .core 2 waitCore where
  queued := by simp
  positive tick := by
    have bounds := waitCore_bounds tick
    omega
  served tick := by
    have bounds := waitCore_bounds tick
    have later := waitCore_bounds (tick + 1)
    by_cases wraps : (tick + 1).toNat = 4294967295
    · have before : tick.toNat = 4294967294 := by
        rcases toNat_next tick with ⟨_, next⟩ | ⟨_, next⟩ <;> omega
      have waits : waitCore tick = 3 := by simp [waitCore, before]
      omega
    · have waits : waitCore (tick + 1) ≤ 3 := by
        unfold waitCore
        rw [if_neg wraps]
        split <;> omega
      omega
  passed core passed := by
    have zero : core.tick.toNat % 5 = 0 := by
      rw [← first_shared]
      unfold Core.first at passed ⊢
      split
      next => rfl
      next turn => simp [turn] at passed
    rcases toNat_next core.tick with ⟨last, next⟩ | ⟨below, next⟩
    · simp [waitCore, last, next]
    · have now : waitCore core.tick = 3 := by
        simp [waitCore, below.ne, zero]
      have ahead : waitCore (core.tick + 1) = 2 := by
        unfold waitCore
        rw [next, if_neg (by omega), if_neg (by omega)]
      omega

end Ticks

/-- From any state of the loop, with any tick and with tasks and other threads that schedule what they like, the
entries of either queue are popped in order, each within a number of iterations that its position gives. -/
theorem popped_in_turn (program : Program X A) (depth : Nat) (turn : Turn) {s : Thread X A} {queue : List Notified}
    (driving : Driving rt s) (stored : (s.runtimes rt).queue = some queue) (others : Nat → List Notified) :
    (∀ p < queue.length, ∃ n ≤ 5 * (p + 1), ∃ next t events,
      iterate (program.env depth) rt others n turn s = some (next, t) ∧ t.trace = s.trace ++ events ∧
        ranFrom rt .shared events = queue.take (p + 1)) ∧
    (∀ p < turn.core.tasks.length, ∃ n ≤ 2 * (p + 2), ∃ next t events,
      iterate (program.env depth) rt others n turn s = some (next, t) ∧ t.trace = s.trace ++ events ∧
        ranFrom rt .core events = turn.core.tasks.take (p + 1)) ∧
    ∀ n next t, iterate (program.env depth) rt others n turn s = some (next, t) →
      ∃ events queue', t.trace = s.trace ++ events ∧ (t.runtimes rt).queue = some queue' ∧
        queue ++ scheduledTo rt .shared events = ranFrom rt .shared events ++ queue' ∧
        turn.core.tasks ++ scheduledTo rt .core events = ranFrom rt .core events ++ next.core.tasks := by
  have contained := program.env_contained depth
  have shared : entries rt .shared turn.core s = queue := by simp [entries, stored]
  refine ⟨?_, ?_, ?_⟩
  · intro p below
    have within : 5 * p + waitShared turn.core.tick ≤ 5 * (p + 1) := by
      unfold waitShared
      omega
    obtain ⟨n, few, next, t, events, iterated, progress, taken⟩ :=
      popped_within contained ranks_shared _ driving (shared ▸ below) within
    exact ⟨n, few, next, t, events, iterated, progress.trace, shared ▸ taken⟩
  · intro p below
    have within : 2 * p + waitCore turn.core.tick ≤ 2 * (p + 2) := by
      have bounds := waitCore_bounds turn.core.tick
      omega
    obtain ⟨n, few, next, t, events, iterated, progress, taken⟩ :=
      popped_within contained ranks_core _ driving below within
    exact ⟨n, few, next, t, events, iterated, progress.trace, taken⟩
  · intro n next t iterated
    obtain ⟨events, progress⟩ := iterate_progress contained n driving iterated
    obtain ⟨queue', left, fifo⟩ := progress.queue queue stored
    exact ⟨events, queue', progress.trace, left, fifo, progress.tasks⟩

/-- The loop of the first runtime, as its tick is about to wrap. -/
theorem popped_in_turn_wrap :
    ∃ n ≤ 5, ∃ next t events, iterate (relay.env 0) 0 (fun _ => [⟨4, 0⟩]) n
        (.top ⟨[⟨1, 0⟩, ⟨2, 0⟩], 4294967292, false, rfl⟩)
        (beginRun 0 (BasicScheduler.guarded 0 ⟨[], 0, false, rfl⟩ relayStart)) = some (next, t) ∧
      t.trace = [] ++ events ∧ ranFrom 0 .shared events = [⟨3, 0⟩] := by
  have driving : Driving 0 (beginRun 0 (BasicScheduler.guarded 0 ⟨[], 0, false, rfl⟩ relayStart)) :=
    beginRun_driving _ rfl
  have stored : ((beginRun 0 (BasicScheduler.guarded 0 ⟨[], 0, false, rfl⟩ relayStart)).runtimes 0).queue =
    some [⟨3, 0⟩] := rfl
  exact (popped_in_turn relay 0 (.top ⟨[⟨1, 0⟩, ⟨2, 0⟩], 4294967292, false, rfl⟩) driving stored _).1 0 (by decide)

end Osaka
