import Mathlib.Data.List.Induction
import Osaka.Runtime.BlockOn
import Osaka.Runtime.WithTime

set_option autoImplicit false

namespace Osaka

open Unwind Unwind.Exec Thread

variable {X A B C : Type} {rt : RuntimeId} {s t u : Thread X A}

section Traces

theorem contextEnter_trace (m : Act X A B) (s : Thread X A) :
    (contextEnter rt m s).2.trace = (m { s with context := some rt }).2.trace := by
  rcases ended : m { s with context := some rt } with ⟨value | payload | _, t⟩ <;>
    simp [contextEnter, Exec.guarded, ended]

theorem bind_trace {m : Act X A B} {next : B → Act X A C} (same : ∀ value t, (next value t).2.trace = t.trace)
    (s : Thread X A) : ((m >>= next) s).2.trace = (m s).2.trace := by
  rcases ended : m s with ⟨value | payload | _, t⟩
  · rw [bind_returned ended, same]
  · rw [bind_unwound ended]
  · rw [bind_running ended]

end Traces

section Handles

def Event.starts : Event A → Bool
  | .ran _ _ _ _ => true
  | .rootPolling _ => true
  | _ => false

/-- The handle is read for a task of `rt`, after `earlier`: its poll begins, or `osaka::spawn` is called in it. -/
inductive TaskReads (events : List (Event A)) : RuntimeId → List (Event A) → Option RuntimeId → Prop where
  | polled {rt : RuntimeId} {place : Place} {task : Notified} {read : Option RuntimeId}
    {earlier later : List (Event A)} (split : events = earlier ++ .ran rt place task read :: later) :
    TaskReads events rt earlier read
  | spawned {rt : RuntimeId} {place : Place} {task : Notified} {handle read : Option RuntimeId}
    {earlier inside later : List (Event A)}
    (split : events = (earlier ++ .ran rt place task handle :: inside) ++ .spawned read :: later)
    (during : ∀ event ∈ inside, event.starts = false) :
    TaskReads events rt (earlier ++ .ran rt place task handle :: inside) read

/-- Whatever reads the handle during the poll of a task reads the runtime that polls the task. -/
def InOwnContext (events : List (Event A)) : Prop :=
  ∀ rt earlier read, TaskReads events rt earlier read → read = some rt

def Event.sets : Event A → Option (Option RuntimeId)
  | .contextSet handle => some handle
  | _ => none

/-- What futures have left as the handle, by entering runtimes and by dropping guards and runtimes. -/
def lastSet (events : List (Event A)) : Option (Option RuntimeId) := (events.filterMap Event.sets).getLast?

/-- Where the handle is read for a task, what futures have left is the runtime that polls the task, if they
have changed it before. -/
def GuardsOwn (events : List (Event A)) : Prop :=
  ∀ rt earlier read set, TaskReads events rt earlier read → lastSet earlier = some set → set = some rt

theorem handleAfter_eq (handle : Option RuntimeId) (events : List (Event A)) :
    handleAfter handle events = (lastSet events).getD handle := by
  induction events using List.reverseRecOn with
  | nil => rfl
  | append_singleton earlier event ih =>
    rw [handleAfter_append, ih]
    cases event with
    | contextSet new => simp [handleStep, lastSet, Event.sets]
    | _ => simp [handleStep, lastSet, Event.sets]

theorem TaskReads.in_force {events earlier : List (Event A)} {handle read : Option RuntimeId}
    (reads : TaskReads events rt earlier read) (inForce : ReadsInForce handle events) :
    read = (lastSet earlier).getD handle := by
  rw [← handleAfter_eq]
  cases reads with
  | polled split =>
    rw [split, readsInForce_append] at inForce
    exact inForce.2.1
  | spawned split =>
    rw [split, readsInForce_append] at inForce
    exact inForce.2.1

theorem TaskReads.polls {events earlier : List (Event A)} {read : Option RuntimeId}
    (reads : TaskReads events rt earlier read) : ∃ place task handle, .ran rt place task handle ∈ events := by
  cases reads with
  | polled split => exact ⟨_, _, _, split ▸ List.mem_append_right _ List.mem_cons_self⟩
  | spawned split =>
    exact ⟨_, _, _, split ▸ List.mem_append_left _ (List.mem_append_right _ List.mem_cons_self)⟩

/-- What a method of `rt` records, with `handle` in force when it starts to poll: nothing but polls of its own
tasks, or no poll of a task at all. -/
def Polls (rt : RuntimeId) (handle : Option RuntimeId) (events : List (Event A)) : Prop :=
  (∀ event ∈ events, event.Unpolled) ∨ ReadsInForce handle events ∧ ∀ event ∈ events, event.Driven rt

theorem Polls.read {events earlier : List (Event A)} {rt' : RuntimeId} {handle read : Option RuntimeId}
    (polls : Polls rt handle events) (reads : TaskReads events rt' earlier read) :
    rt' = rt ∧ read = (lastSet earlier).getD handle := by
  obtain ⟨place, task, handle', polled⟩ := reads.polls
  rcases polls with unpolled | ⟨inForce, driven⟩
  · exact (unpolled _ polled).elim
  · exact ⟨(driven _ polled).1, reads.in_force inForce⟩

theorem Polls.own_iff {events : List (Event A)} (polls : Polls rt (some rt) events) :
    InOwnContext events ↔ GuardsOwn events := by
  constructor
  · intro own rt' earlier read set reads left
    have saw := (polls.read reads).2
    rw [left, Option.getD_some] at saw
    exact saw.symm.trans (own rt' earlier read reads)
  · intro guards rt' earlier read reads
    obtain ⟨rfl, saw⟩ := polls.read reads
    cases left : lastSet earlier with
    | none => rw [saw, left, Option.getD_none]
    | some set => rw [saw, left, Option.getD_some, guards _ _ _ _ reads left]

theorem records_own_iff {grown before : List (Event A)}
    (records : ∃ events, grown = before ++ events ∧ Polls rt (some rt) events) :
    (∃ events, grown = before ++ events ∧ InOwnContext events) ↔
      ∃ events, grown = before ++ events ∧ GuardsOwn events := by
  obtain ⟨events, rfl, polls⟩ := records
  constructor
  · rintro ⟨same, trace, own⟩
    obtain rfl := List.append_cancel_left trace
    exact ⟨events, rfl, polls.own_iff.mp own⟩
  · rintro ⟨same, trace, guards⟩
    obtain rfl := List.append_cancel_left trace
    exact ⟨events, rfl, polls.own_iff.mpr guards⟩

def Records (allowed : Event A → Prop) (s t : Thread X A) : Prop :=
  ∃ events, t.trace = s.trace ++ events ∧ ∀ event ∈ events, allowed event

theorem Records.of_same {allowed : Event A → Prop} (same : t.trace = s.trace) : Records allowed s t :=
  ⟨[], by simp [same], by simp⟩

theorem Records.trans {allowed : Event A → Prop} (first : Records allowed s t)
    (second : Records allowed t u) : Records allowed s u := by
  obtain ⟨events, before, legal⟩ := first
  obtain ⟨later, after, legal'⟩ := second
  refine ⟨events ++ later, by rw [after, before, List.append_assoc], ?_⟩
  intro event member
  rcases List.mem_append.mp member with member | member
  · exact legal event member
  · exact legal' event member

end Handles

theorem spawnInner_lands (task : TaskId) (notified : Notified) (own : s.context = some rt)
    (opened : (s.runtimes rt).owned.closed = false) :
    ∃ t, spawnInner task notified s = (.returned (), t) ∧ task ∈ (t.runtimes rt).owned.list := by
  let bound : Thread X A := (s.record (.spawned (some rt))).update rt fun b =>
    { b with owned := b.owned.bind task }
  have spawned : spawnInner task notified s = Shared.schedule rt notified bound := by
    simp [spawnInner, bind_apply, own, record, Spawner.spawn, updateRuntime, Thread.record, opened, bound]
  have listed : task ∈ (bound.runtimes rt).owned.list := by
    simp [bound, Thread.record, OwnedTasks.bind, opened]
  refine ⟨(Shared.schedule rt notified bound).2, spawned.trans rfl, ?_⟩
  simp only [Shared.schedule, modify_apply]
  split <;> split <;> simpa [Thread.record] using listed

theorem spawnInner_fails (task : TaskId) (notified : Notified) (foreign : s.context = none) :
    (spawnInner task notified s).1 = .unwound .contextMissing := by
  simp [spawnInner, bind_apply, foreign, record]

section Parked

variable {env : Env X A}

instance : Std.Refl (fun s t : Thread X A => s.entered.isEntered = true → Occupied none s t) :=
  ⟨fun s _ => .refl s⟩

instance : IsTrans (Thread X A) fun s t => s.entered.isEntered = true → Occupied none s t where
  trans _ _ _ first second entered := (first entered).trans (second ((first entered).entered ▸ entered))

theorem pollRoot_occupied (contained : env.Contained) (rt : RuntimeId) (root : RootId) :
    Halts none (pollRoot env rt root) := by
  refine Halts.bind Halts.get fun s => Halts.bind (record_halts trivial) fun _ =>
    Halts.bind (Halts.modify fun _ => .of_local rfl rfl rfl) fun _ =>
    Halts.bind (execPoll_halts contained _ _) fun result => ?_
  cases result with
  | ok _ => exact Halts.bind (record_halts trivial) fun _ => Halts.pure _
  | error payload => exact Halts.bind (record_halts trivial) fun _ => Halts.throw payload

theorem notifiedOrPoll_occupied (contained : env.Contained) (rt : RuntimeId) (root : RootId) :
    Halts none (BasicScheduler.notifiedOrPoll env rt root) := by
  refine Halts.bind Halts.get fun s => ?_
  split
  next => exact Halts.bind (updateRuntime_halts rt fun _ => rfl) fun _ => Halts.pure _
  next =>
    refine Halts.bind (pollRoot_occupied contained rt root) fun answer => ?_
    cases answer with
    | ready value => exact Halts.pure _
    | pending => exact Halts.pure _

/-- Between two attempts to take a core that is missing, the thread polls the root future alone. -/
theorem parked_occupied (contained : env.Contained) (fuel : Nat) (rt : RuntimeId) (root : RootId)
    (entered : s.entered.isEntered = true) :
    Occupied none s (parkedBlockOn fuel (BasicScheduler.notifiedOrPoll env rt root) s).2 := by
  let R (s t : Thread X A) : Prop := s.entered.isEntered = true → Occupied none s t
  have poll : Keeps R (BasicScheduler.notifiedOrPoll env rt root) := fun s entered =>
    (notifiedOrPoll_occupied contained rt root s entered).2
  have looped : Keeps R (parkedBlockOn fuel (BasicScheduler.notifiedOrPoll env rt root)) := by
    refine Keeps.loop (fun _ => Keeps.bind poll fun answer => ?_) fuel ()
    cases answer with
    | ready value => exact Keeps.pure _
    | pending => exact Keeps.pure _
  exact looped s entered

/-- What `BasicScheduler::block_on` does again and again. -/
def blockOnAttempt (env : Env X A) (fuel : Nat) (rt : RuntimeId) (root : RootId) :
    Act X A (Unit ⊕ Except BlockOnError A) := do
  if ← BasicScheduler.takeCore rt then
    let ret ← CoreGuard.blockOn env fuel rt root
    return .inr ret
  else
    match ← runtimeEnter false (parkedBlockOn fuel (BasicScheduler.notifiedOrPoll env rt root)) with
    | some out => return .inr (.ok out)
    | none => return .inl ()

theorem blockOn_attempts (fuel : Nat) (root : RootId) : BasicScheduler.blockOn env fuel rt root s =
    loop (fun _ => blockOnAttempt env fuel rt root) fuel () s := rfl

theorem blockOnAttempt_parks (fuel : Nat) (root : RootId) (missing : (s.runtimes rt).core = none) :
    blockOnAttempt env fuel rt root s = (do
      match ← runtimeEnter false (parkedBlockOn fuel (BasicScheduler.notifiedOrPoll env rt root)) with
      | some out => return .inr (.ok out)
      | none => return .inl () : Act X A (Unit ⊕ Except BlockOnError A)) s :=
  bind_returned (BasicScheduler.takeCore_none missing)

/-- Without the core nothing but the root future is polled. -/
theorem blockOnAttempt_missing (contained : env.Contained) (fuel : Nat) (root : RootId)
    (missing : (s.runtimes rt).core = none)
    (free : s.entered.isEntered = false) :
    Records Event.Unpolled s (blockOnAttempt env fuel rt root s).2 ∧
      ∀ next, (blockOnAttempt env fuel rt root s).1 = .returned next →
        ((blockOnAttempt env fuel rt root s).2.runtimes rt).core = none ∧
          (blockOnAttempt env fuel rt root s).2.entered.isEntered = false := by
  let poll : Act X A (Option A) := parkedBlockOn fuel (BasicScheduler.notifiedOrPoll env rt root)
  have attempt := @blockOnAttempt_parks _ _ _ _ env fuel root missing
  have occupied := parked_occupied contained fuel rt root
    (s := { s with entered := .entered false }) rfl
  have lost := occupied.missing rt (by simp) missing
  rcases ended : poll { s with entered := .entered false } with ⟨out | payload | _, t⟩
  · have entering : runtimeEnter false poll s = (.returned out, { t with entered := .notEntered }) := by
      simp [runtimeEnter, free, Exec.guarded, ended]
    change poll _ = _ at ended
    rw [show parkedBlockOn fuel (BasicScheduler.notifiedOrPoll env rt root)
      { s with entered := .entered false } = _ from ended] at occupied lost
    rw [attempt, bind_returned entering]
    cases out with
    | some value => exact ⟨occupied.unpolled, fun _ _ => ⟨lost, rfl⟩⟩
    | none => exact ⟨occupied.unpolled, fun _ _ => ⟨lost, rfl⟩⟩
  · have entering : runtimeEnter false poll s = (.unwound payload, { t with entered := .notEntered }) := by
      simp [runtimeEnter, free, Exec.guarded, ended]
    rw [show parkedBlockOn fuel (BasicScheduler.notifiedOrPoll env rt root)
      { s with entered := .entered false } = _ from ended] at occupied
    rw [attempt, bind_unwound entering]
    exact ⟨occupied.unpolled, by simp⟩
  · have entering : runtimeEnter false poll s = (.running, t) := by
      simp [runtimeEnter, free, Exec.guarded, ended]
    rw [show parkedBlockOn fuel (BasicScheduler.notifiedOrPoll env rt root)
      { s with entered := .entered false } = _ from ended] at occupied
    rw [attempt, bind_running entering]
    exact ⟨occupied.unpolled, by simp⟩

theorem blockOn_missing_unpolled (contained : env.Contained) (fuel : Nat) (root : RootId)
    (missing : (s.runtimes rt).core = none)
    (free : s.entered.isEntered = false) :
    Records Event.Unpolled s (BasicScheduler.blockOn env fuel rt root s).2 := by
  rw [blockOn_attempts]
  obtain ⟨_, t, reached, ended⟩ := loop_ends (fun _ => blockOnAttempt env fuel rt root) fuel () s
  have inv : Records Event.Unpolled s t ∧ (t.runtimes rt).core = none ∧ t.entered.isEntered = false := by
    refine reached.invariant (fun _ t => Records Event.Unpolled s t ∧ (t.runtimes rt).core = none ∧
      t.entered.isEntered = false) ⟨.of_same rfl, missing, free⟩ ?_
    rintro _ t _ t' ⟨records, lost, open'⟩ turned
    obtain ⟨later, kept⟩ := blockOnAttempt_missing contained fuel root lost open'
    rw [turned] at later kept
    exact ⟨records.trans later, kept _ rfl⟩
  obtain ⟨records, lost, open'⟩ := inv
  rcases ended with ended | ⟨exit, _, ended⟩
  · rw [ended]
    exact records
  · rw [ended]
    exact records.trans (blockOnAttempt_missing contained fuel root lost open').1

end Parked

section Driven

variable {env : Env X A} {root : RootId} {fuel : Nat} {core : Core}

def Recorded (rt : RuntimeId) (s t : Thread X A) : Prop :=
  ∃ events, t.trace = s.trace ++ events ∧ ReadsInForce s.context events ∧ ∀ event ∈ events, event.Driven rt

theorem Recorded.of_progress {core core' : Core} {events : List (Event A)}
    (progress : Progress rt core (blockingStart rt core s) core' t events)
    (driven : ∀ event ∈ events, event.Driven rt) : Recorded rt s t :=
  ⟨events, progress.trace, progress.reads, driven⟩

theorem Comes.records {turn : Turn} {events : List (Event A)} {exit : Exit Panic (Turn ⊕ Core × Option A)}
    (comes : Comes rt core (blockingStart rt core s) turn t events exit u) : Recorded rt s u := by
  have polled {later : List (Event A)} {answer : Option (Poll A)} (driven : ∀ event ∈ later, event.Driven rt) :
      ∀ event ∈ later ++ [.rootPolled rt answer], event.Driven rt := by
    intro event member
    rcases List.mem_append.mp member with member | member
    · exact driven event member
    · obtain rfl := List.mem_singleton.mp member
      rfl
  cases comes with
  | ready progress driven => exact .of_progress progress (polled driven)
  | deadlock progress empty drained asleep pends driven => exact .of_progress progress driven
  | next blocking => exact .of_progress blocking.progress blocking.driven
  | parked last busy lost accounted =>
    obtain ⟨events, progress, driven⟩ := accounted
    exact .of_progress progress driven
  | unwound progress driven held => exact .of_progress progress (polled driven)

@[simp]
theorem storeCore_trace (core : Core) (t : Thread X A) : (storeCore rt core t).trace = t.trace := rfl

@[simp]
theorem endRun_trace (s t : Thread X A) : (s.endRun t).trace = t.trace := rfl

@[simp]
theorem CoreGuard.drop_trace (t : Thread X A) : (CoreGuard.drop rt t).trace = t.trace := by
  unfold CoreGuard.drop
  split <;> rfl

theorem Recorded.congr (records : Recorded rt s t) (same : u.trace = t.trace) : Recorded rt s u := by
  obtain ⟨events, trace, inForce, driven⟩ := records
  exact ⟨events, same.trans trace, inForce, driven⟩

theorem blockOn_driven (contained : env.Contained) (fuel : Nat) (root : RootId) (core : Core)
    (alive : (s.runtimes rt).queue.isSome = true) (free : s.entered.isEntered = false) :
    Recorded rt s
      (CoreGuard.blockOn env fuel rt root (BasicScheduler.guarded rt core s)).2 := by
  obtain ⟨turn, t, reached, ended⟩ :=
    loop_ends (blockOnTurn env rt root) fuel (.top core) (blockingStart rt core s)
  obtain ⟨events, blocking⟩ := Blocking.reached contained alive reached
  rcases ended with looped | ⟨exit, left, looped⟩
  · rw [blockOn_running free looped]
    exact .of_progress blocking.progress blocking.driven
  · have records := (blockOnTurn_comes contained blocking root).records
    cases exit with
    | returned result =>
      rw [blockOn_returned free looped]
      exact records.congr rfl
    | unwound payload =>
      rw [blockOn_unwound free looped]
      exact records.congr (CoreGuard.drop_trace _)
    | running =>
      rw [blockOn_running free looped]
      exact records

theorem blockOn_stored (fuel : Nat) (root : RootId) (stored : (s.runtimes rt).core = some core) :
    (BasicScheduler.blockOn env (fuel + 1) rt root s).2 =
      (CoreGuard.blockOn env (fuel + 1) rt root (BasicScheduler.guarded rt core s)).2 := by
  have attempt : blockOnAttempt env (fuel + 1) rt root s = (do
      let ret ← CoreGuard.blockOn env (fuel + 1) rt root
      return .inr ret : Act X A (Unit ⊕ Except BlockOnError A)) (BasicScheduler.guarded rt core s) :=
    bind_returned (BasicScheduler.takeCore_some stored)
  rw [blockOn_attempts]
  rcases ended : CoreGuard.blockOn env (fuel + 1) rt root (BasicScheduler.guarded rt core s) with
    ⟨value | payload | _, t⟩
  · rw [loop, bind_returned (attempt.trans (bind_returned ended))]
    rfl
  · rw [loop, bind_unwound (attempt.trans (bind_unwound ended))]
  · rw [loop, bind_running (attempt.trans (bind_running ended))]

theorem blockOn_polls (contained : env.Contained) (fuel : Nat) (root : RootId)
    (alive : (s.runtimes rt).queue.isSome = true) :
    ∃ events, (BasicScheduler.blockOn env fuel rt root s).2.trace = s.trace ++ events ∧
      Polls rt s.context events := by
  cases fuel with
  | zero => exact ⟨[], by simp [blockOn_attempts, loop, outOfFuel], .inl (by simp)⟩
  | succ fuel =>
    cases entered : s.entered.isEntered with
    | true =>
      have refused : ∃ payload, BasicScheduler.blockOn env (fuel + 1) rt root s = (.unwound payload, s) ∨
          (s.runtimes rt).core.isSome = true ∧
            BasicScheduler.blockOn env (fuel + 1) rt root s = (.unwound payload, s.loseCore rt) :=
        BasicScheduler.blockOn_entered entered
      obtain ⟨payload, ended | ⟨_, ended⟩⟩ := refused
      · exact ⟨[], by simp [ended], .inl (by simp)⟩
      · exact ⟨[], by simp [ended, loseCore], .inl (by simp)⟩
    | false =>
      cases stored : (s.runtimes rt).core with
      | none =>
        obtain ⟨events, trace, unpolled⟩ :=
          blockOn_missing_unpolled contained (fuel + 1) root stored entered
        exact ⟨events, trace, .inl unpolled⟩
      | some core =>
        obtain ⟨events, trace, driven⟩ := blockOn_driven contained (fuel + 1) root core alive entered
        rw [blockOn_stored fuel root stored]
        exact ⟨events, trace, .inr driven⟩

end Driven

section Entries

variable {env : Env X A} {fuel : Nat} {core : Core}

@[simp]
theorem timed_context : (BasicScheduler.timed rt s).context = s.context := by
  unfold BasicScheduler.timed
  split <;> rfl

@[simp]
theorem timed_entered : (BasicScheduler.timed rt s).entered = s.entered := by
  unfold BasicScheduler.timed
  split <;> rfl

@[simp]
theorem timed_trace : (BasicScheduler.timed rt s).trace = s.trace := by
  unfold BasicScheduler.timed
  split <;> rfl

@[simp]
theorem timed_core : ((BasicScheduler.timed rt s).runtimes rt).core = (s.runtimes rt).core := by
  unfold BasicScheduler.timed
  split <;> simp [swapIn]

@[simp]
theorem timed_queue : ((BasicScheduler.timed rt s).runtimes rt).queue = (s.runtimes rt).queue := by
  unfold BasicScheduler.timed
  split <;> simp [swapIn]

def HasReady (rt : RuntimeId) (s : Thread X A) : Prop :=
  s.entered.isEntered = false ∧ ∃ core, (s.runtimes rt).core = some core ∧
    ¬(core.tasks = [] ∧ (s.runtimes rt).queue = some [])

theorem pollUntilDeadlock_trace (fuel : Nat) (stored : (s.runtimes rt).core = some core)
    (free : s.entered.isEntered = false) :
    (BasicScheduler.pollUntilDeadlock env fuel rt s).2.trace =
      (loop (pollUntilDeadlockTurn env rt) fuel (.top core)
        ((BasicScheduler.guarded rt core s).beginRun rt)).2.trace := by
  have held : ((BasicScheduler.guarded rt core s).runtimes rt).contextCore = some core := by
    simp [BasicScheduler.guarded]
  have started : BasicScheduler.pollUntilDeadlock env fuel rt s =
      CoreGuard.pollUntilDeadlock env fuel rt (BasicScheduler.guarded rt core s) :=
    bind_returned (BasicScheduler.takeCore_some stored)
  rw [started]
  let body : Core → Act X A (Core × Unit) := fun core => do
    let core ← loop (pollUntilDeadlockTurn env rt) fuel (.top core)
    return (core, ())
  let begun := (BasicScheduler.guarded rt core s).beginRun rt
  rcases ended : loop (pollUntilDeadlockTurn env rt) fuel (.top core) begun with
    ⟨core' | payload | _, t⟩
  · have ran : body core begun = (.returned (core', ()), t) := bind_returned ended
    rw [CoreGuard.pollUntilDeadlock, CoreGuard.consume_returned (CoreGuard.enter_returned held free ran)]
    simp
  · have ran : body core begun = (.unwound payload, t) := bind_unwound ended
    rw [CoreGuard.pollUntilDeadlock, CoreGuard.consume_unwound (CoreGuard.enter_unwound held free ran)]
    simp
  · have ran : body core begun = (.running, t) := bind_running ended
    rw [CoreGuard.pollUntilDeadlock, CoreGuard.consume_running (CoreGuard.enter_running held free ran)]

theorem pollUntilDeadlock_idle (fuel : Nat) (idle : ¬HasReady rt s) :
    (BasicScheduler.pollUntilDeadlock env fuel rt s).2.trace = s.trace := by
  cases entered : s.entered.isEntered with
  | true =>
    cases stored : (s.runtimes rt).core with
    | none => rw [BasicScheduler.pollUntilDeadlock_missing stored]
    | some core => simp [BasicScheduler.pollUntilDeadlock_refused stored entered, loseCore]
  | false =>
    cases stored : (s.runtimes rt).core with
    | none => rw [BasicScheduler.pollUntilDeadlock_missing stored]
    | some core =>
      have empty : core.tasks = [] ∧ (s.runtimes rt).queue = some [] := by
        by_contra busy
        exact idle ⟨entered, core, stored, busy⟩
      let begun := (BasicScheduler.guarded rt core s).beginRun rt
      have drained : (begun.runtimes rt).queue = some [] := by
        simpa [begun, beginRun, BasicScheduler.guarded] using empty.2
      have none : nextEntry rt core begun = (.returned (none, core.ticked), begun) := by
        rcases nextEntry_cases core drained with ⟨_, _, ended⟩ | ⟨_, _, tasks, _⟩ | ⟨_, _, queue, _⟩
        · exact ended
        · simp [empty.1] at tasks
        · cases queue
      rw [pollUntilDeadlock_trace fuel stored entered]
      cases fuel with
      | zero => rfl
      | succ fuel =>
        have last : pollUntilDeadlockTurn env rt (.top core) begun =
            (.returned (.inr core.ticked), begun) := pollUntilDeadlockTurn_empty none
        have left : Exit.leaves (pollUntilDeadlockTurn env rt (.top core) begun).1 =
            some (.returned core.ticked) := by
          rw [last]
          rfl
        rw [loop_leaves left, last]
        rfl

theorem pollUntilDeadlock_polls (contained : env.Contained) (ready : HasReady rt s)
    (alive : (s.runtimes rt).queue.isSome = true) :
    ∃ place task later, (BasicScheduler.pollUntilDeadlock env 1 rt s).2.trace =
      s.trace ++ .ran rt place task s.context :: later := by
  obtain ⟨free, core, stored, busy⟩ := ready
  let begun := (BasicScheduler.guarded rt core s).beginRun rt
  have driving : Driving rt begun := beginRun_driving core alive
  rw [pollUntilDeadlock_trace 1 stored free]
  rcases turn_cases core driving with ⟨drained, empty, _⟩ | ⟨place, task, core₁, s₁, _, taken⟩
  · exact absurd ⟨empty, by simpa [begun, beginRun, BasicScheduler.guarded] using drained⟩ busy
  · obtain ⟨core₂, t, events, progress, _, _, _, polled⟩ := task_turn contained driving taken
    have first : pollUntilDeadlockTurn env rt (.top core) begun = _ := pollUntilDeadlockTurn_task taken
    have turned := first.trans (bind_returned polled)
    refine ⟨place, task, events, ?_⟩
    rw [loop_next turned]
    exact progress.trace

end Entries

def Method.Runs : Method → Prop
  | .pollUntilDeadlock => True
  | .blockOn _ => True
  | .blockOnOrDeadlock _ => True
  | _ => False

section Methods

variable {env : Env X A}

theorem entering_polls {f : Act X A B} (alive : (s.runtimes rt).queue.isSome = true)
    (polls : ∀ t : Thread X A, (t.runtimes rt).queue.isSome = true →
      ∃ events, (f t).2.trace = t.trace ++ events ∧ Polls rt t.context events) :
    ∃ events, (BasicScheduler.withTime rt (contextEnter rt f) s).2.trace = s.trace ++ events ∧
      Polls rt (some rt) events := by
  by_cases reached : BasicScheduler.Timed rt s
  · rw [BasicScheduler.withTime_trace _ reached, contextEnter_trace]
    simpa using polls { BasicScheduler.timed rt s with context := some rt } (by simpa using alive)
  · exact ⟨[], by simp [BasicScheduler.withTime_untimed _ reached], .inl (by simp)⟩

theorem pollUntilDeadlock_records (contained : env.Contained) (fuel : Nat)
    (alive : (s.runtimes rt).queue.isSome = true) :
    ∃ events, (BasicScheduler.pollUntilDeadlock env fuel rt s).2.trace = s.trace ++ events ∧
      Polls rt s.context events := by
  by_cases ready : HasReady rt s
  · obtain ⟨free, core, stored, _⟩ := ready
    obtain ⟨core', t, events, ⟨ended, trace, driven⟩ | ⟨ended, finished, _⟩⟩ :=
      pollUntilDeadlock_ends contained fuel stored alive free
    · exact ⟨events, by rw [ended, trace], .inr driven⟩
    · exact ⟨events, by rw [ended, finished.trace], .inr ⟨finished.reads, finished.driven⟩⟩
  · exact ⟨[], by simp [pollUntilDeadlock_idle fuel ready], .inl (by simp)⟩

theorem entering_records (contained : env.Contained) (fuel : Nat) {method : Method} (runs : method.Runs)
    (enters : method ≠ .pollUntilDeadlock) (alive : (s.runtimes rt).queue.isSome = true) :
    ∃ events, (method.exec env fuel rt s).2.trace = s.trace ++ events ∧ Polls rt (some rt) events := by
  cases method with
  | spawn | takeTimestep | nextWakeup => exact runs.elim
  | pollUntilDeadlock => exact absurd rfl enters
  | blockOn root =>
    have polls : ∃ events, (Runtime.blockOn env fuel rt root s).2.trace = s.trace ++ events ∧
        Polls rt (some rt) events := by
      refine entering_polls alive fun t living => ?_
      obtain ⟨events, trace, polls⟩ := blockOn_polls contained fuel root living
      refine ⟨events, (bind_trace ?_ t).trans trace, polls⟩
      rintro (⟨⟨⟩⟩ | value) t <;> rfl
    obtain ⟨events, trace, polls⟩ := polls
    exact ⟨events, (bind_trace (fun _ _ => rfl) s).trans trace, polls⟩
  | blockOnOrDeadlock root =>
    have polls : ∃ events, (Runtime.blockOnOrDeadlock env fuel rt root s).2.trace = s.trace ++ events ∧
        Polls rt (some rt) events :=
      entering_polls alive fun t living => blockOn_polls contained fuel root living
    obtain ⟨events, trace, polls⟩ := polls
    exact ⟨events, (bind_trace (fun _ _ => rfl) s).trans trace, polls⟩

theorem unentered_records (contained : env.Contained) (fuel : Nat)
    (alive : (s.runtimes rt).queue.isSome = true)
    (condition : s.context = some rt ∨ ¬(BasicScheduler.Timed rt s ∧ HasReady rt s)) :
    ∃ events, (Method.pollUntilDeadlock.exec env fuel rt s).2.trace = s.trace ++ events ∧
      Polls rt (some rt) events := by
  simp only [Method.exec, Runtime.pollUntilDeadlock]
  by_cases reached : BasicScheduler.Timed rt s
  · rw [BasicScheduler.withTime_trace _ reached]
    rcases condition with own | quiet
    · have living : ((BasicScheduler.timed rt s).runtimes rt).queue.isSome = true := by
        simpa using alive
      simpa [own] using pollUntilDeadlock_records contained fuel living
    · have idle : ¬HasReady rt (BasicScheduler.timed rt s) := by
        simpa [HasReady] using fun ready => quiet ⟨reached, ready⟩
      exact ⟨[], by simp [pollUntilDeadlock_idle fuel idle], .inl (by simp)⟩
  · exact ⟨[], by simp [BasicScheduler.withTime_untimed _ reached], .inl (by simp)⟩

/-- The first task is polled before any future can enter a runtime. -/
theorem first_poll_foreign (contained : env.Contained) (alive : (s.runtimes rt).queue.isSome = true)
    (reached : BasicScheduler.Timed rt s) (ready : HasReady rt s)
    (own : ∃ events, (Method.pollUntilDeadlock.exec env 1 rt s).2.trace = s.trace ++ events ∧
      InOwnContext events) : s.context = some rt := by
  obtain ⟨events, trace, inOwn⟩ := own
  have ready' : HasReady rt (BasicScheduler.timed rt s) := by simpa [HasReady] using ready
  obtain ⟨place, task, later, polled⟩ := pollUntilDeadlock_polls contained ready' (by simpa using alive)
  simp only [Method.exec, Runtime.pollUntilDeadlock] at trace
  rw [BasicScheduler.withTime_trace _ reached, polled] at trace
  simp only [timed_trace, timed_context, List.append_cancel_left_eq] at trace
  exact inOwn rt [] s.context (.polled trace.symm)

end Methods

/-- Each task spawns another one. -/
def nester : Program Unit Unit :=
  { run := fun task _ => ([.spawn (task.task + 1) ⟨task.task + 1, 0⟩], ())
    poll := fun _ _ => (([], .pending), ())
    wake := fun _ _ => (none, ()) }

/-- A host that has entered no runtime, or has entered `host`. -/
def hosted (host : Option RuntimeId) : Thread Unit Unit :=
  { relayStart with
    context := host
    runtimes := fun rt => { BasicScheduler.new rt with queue := if rt = 0 then some [⟨1, 0⟩] else some [] } }

theorem nester_fails : (Method.pollUntilDeadlock.exec (nester.env 0) 3 0 (hosted none)).2.trace =
    [.ran 0 .shared ⟨1, 0⟩ none, .spawned none] := by decide +kernel

example : (Method.pollUntilDeadlock.exec (nester.env 0) 3 0 (hosted (some 1))).2.trace =
    [.ran 0 .shared ⟨1, 0⟩ (some 1), .spawned (some 1), .scheduled 1 .shared ⟨2, 0⟩] := by decide +kernel

/-- The root future enters another runtime, and keeps the guard. -/
def straying : Program Unit Unit := { nester with poll := fun _ _ => (([.enter 0 1], .pending), ()) }

example : ((Method.blockOnOrDeadlock 0).exec (straying.env 0) 3 0 (hosted none)).2.trace =
    [.rootPolling 0, .contextSet (some 1), .rootPolled 0 (some .pending), .ran 0 .shared ⟨1, 0⟩ (some 1),
      .spawned (some 1), .scheduled 1 .shared ⟨2, 0⟩] := by decide +kernel

-- a task drops another runtime, and with it a task whose destructor spawns
example : ((Method.blockOnOrDeadlock 0).exec
    ({ nester with run := fun _ _ => ([.dropRuntime 1 [.spawn 2 ⟨2, 0⟩]], ()) }.env 0) 3 0 (hosted none)).2.trace =
    [.rootPolling 0, .rootPolled 0 (some .pending), .ran 0 .shared ⟨1, 0⟩ (some 0), .contextSet (some 1),
      .spawned (some 1), .contextSet (some 0)] := by decide +kernel

end Osaka
