import Osaka.Runtime.Accounting

set_option autoImplicit false

namespace Osaka

open Unwind Unwind.Exec Thread Time

variable {X A B : Type} {rt : RuntimeId} {env : Env X A}

section Turns

variable {root : RootId} {turn turn' : Turn} {s t t₁ u : Thread X A} {res : Option (Poll A)}

theorem blockOnTurn_ready {value : A}
    (polled : pollWoken env rt root turn t = (.returned (turn', some (.ready value)), u)) :
    blockOnTurn env rt root turn t = (.returned (.inr (turn'.core, some value)), u) :=
  bind_returned polled

theorem blockOnTurn_unwound {payload : Panic}
    (polled : pollWoken env rt root turn t = (.unwound payload, u)) :
    blockOnTurn env rt root turn t = (.unwound payload, u) :=
  bind_unwound polled

theorem blockOnTurn_empty (polled : pollWoken env rt root turn t = (.returned (turn', res), t₁))
    (unready : res = none ∨ res = some .pending)
    (empty : nextEntry rt turn'.core t₁ = (.returned (none, turn'.core.ticked), t₁)) :
    blockOnTurn env rt root turn t = (.returned
      (if turn'.c = 0 then .inr (turn'.core.ticked, none) else .inl (.top turn'.core.ticked)), t₁) := by
  refine (bind_returned polled).trans ?_
  by_cases idle : turn'.c = 0 <;> rcases unready with rfl | rfl <;>
    simp only [turn'.core.handled, idle] <;> exact (bind_returned empty).trans (by simp)

theorem blockOnTurn_task {place : Place} {task : Notified} {core₁ core₂ : Core}
    (polled : pollWoken env rt root turn t = (.returned (turn', res), t₁))
    (unready : res = none ∨ res = some .pending)
    (taken : nextEntry rt turn'.core t₁ = (.returned (some (place, task), core₁), s))
    (run : Context.enter rt core₁ (runTask env rt place task) s = (.returned (core₂, ()), u)) :
    blockOnTurn env rt root turn t =
      if turn'.i + 1 < 10 then (.returned (.inl ⟨core₂, turn'.c + 1, turn'.i + 1⟩), u)
      else (.unwound .notImplemented, u) := by
  refine (bind_returned polled).trans ?_
  have ended : (if turn'.i + 1 < 10 then return .inl ⟨core₂, turn'.c + 1, turn'.i + 1⟩ else do
        let core ← Context.parkYield core₂
        return .inl (.top core) : Act X A (Turn ⊕ Core × Option A)) u =
      if turn'.i + 1 < 10 then (.returned (.inl ⟨core₂, turn'.c + 1, turn'.i + 1⟩), u)
      else (.unwound .notImplemented, u) := by
    split
    next => rfl
    next => exact bind_unwound rfl
  rcases unready with rfl | rfl <;> simp only [turn'.core.handled] <;>
    exact (bind_returned taken).trans ((bind_returned run).trans ended)

theorem pollWoken_cases (contained : env.Contained) (driving : Driving rt t) (root : RootId)
    (turn : Turn) :
    (∃ u, pollWoken env rt root turn t = (.returned (turn, none), u) ∧
        (turn.i = 0 → (u.runtimes rt).woken = false) ∧ Driving rt u ∧
        Progress rt turn.core t turn.core u [] ∧ (u.runtimes rt).queue = (t.runtimes rt).queue) ∨
    (turn.i = 0 ∧ ∃ core₂ u answer events, (∀ event ∈ events, event.Passive) ∧
        pollWoken env rt root turn t =
          (.returned ({ turn with core := core₂, c := turn.c + 1 }, some answer), u) ∧ Driving rt u ∧
        Progress rt turn.core t core₂ u
          (.rootPolling rt :: (events ++ [.rootPolled rt (some answer)]))) ∨
    (turn.i = 0 ∧ ∃ core₂ u payload events, (∀ event ∈ events, event.Passive) ∧
        pollWoken env rt root turn t = (.unwound payload, u) ∧ (u.runtimes rt).contextCore = some core₂ ∧
        Progress rt turn.core t core₂ u (.rootPolling rt :: (events ++ [.rootPolled rt none]))) := by
  by_cases top : turn.i = 0
  · cases woken : (t.runtimes rt).woken with
    | false =>
      have reset : Spawner.resetWoken rt t = (.returned false, Spawner.slept rt t) := by
        simp [Spawner.resetWoken, woken, Spawner.slept]
      refine .inl ⟨Spawner.slept rt t, ?_, ?_, driving.slept, ?_, ?_⟩
      · simp only [pollWoken, top]
        exact (bind_returned reset).trans rfl
      · simp [Spawner.slept]
      · constructor <;> simp [Spawner.slept, woken]
      · simp [Spawner.slept]
    | true =>
      have reset : Spawner.resetWoken rt t = (.returned true, Spawner.slept rt t) := by
        simp [Spawner.resetWoken, woken, Spawner.slept]
      obtain ⟨core₂, u, events, passive, ⟨answer, progress, driving', ended⟩ |
        ⟨payload, progress, held, ended⟩⟩ := root_turn contained driving root turn.core
      · refine .inr (.inl ⟨top, core₂, u, answer, events, passive, ?_, driving', progress⟩)
        simp only [pollWoken, top]
        exact (bind_returned reset).trans (bind_returned ended)
      · refine .inr (.inr ⟨top, core₂, u, payload, events, passive, ?_, held, progress⟩)
        simp only [pollWoken, top]
        exact (bind_returned reset).trans (bind_unwound ended)
  · refine .inl ⟨t, ?_, fun zero => absurd zero top, driving, Progress.refl rt turn.core t, rfl⟩
    simp only [pollWoken, top, if_false]
    rfl

end Turns

section RootEvents

variable {events later : List (Event A)}

def Event.OfRoot : Event A → Prop
  | .rootPolling _ => True
  | .rootPolled _ _ => True
  | _ => False

theorem Event.Passive.not_ofRoot {event : Event A} (passive : event.Passive) : ¬event.OfRoot := by
  cases event <;> first | exact id | exact passive.elim

/-- The last poll of the root future has answered pending, and `quiet` holds of what came since it
began. -/
def Pends (rt : RuntimeId) (quiet : Event A → Prop) (events : List (Event A)) : Prop :=
  ∃ earlier inside after, events =
    earlier ++ .rootPolling rt :: (inside ++ .rootPolled rt (some .pending) :: after) ∧
      (∀ event ∈ inside, ¬event.OfRoot ∧ quiet event) ∧ ∀ event ∈ after, ¬event.OfRoot ∧ quiet event

theorem Pends.append (pends : Pends rt (fun _ => True) events)
    (unrooted : ∀ event ∈ later, ¬event.OfRoot) : Pends rt (fun _ => True) (events ++ later) := by
  obtain ⟨earlier, inside, after, rfl, during, since⟩ := pends
  refine ⟨earlier, inside, after ++ later, by simp, during, ?_⟩
  intro event member
  rcases List.mem_append.mp member with member | member
  · exact since event member
  · exact ⟨unrooted event member, trivial⟩

theorem Pends.polled {inside : List (Event A)}
    (passive : ∀ event ∈ inside, event.Passive) :
    Pends rt (fun _ => True) (events ++ .rootPolling rt :: (inside ++ [.rootPolled rt (some .pending)])) :=
  ⟨events, inside, [], rfl, fun event member => ⟨(passive event member).not_ofRoot, trivial⟩, by simp⟩

theorem wokenAfter_asleep (events : List (Event A)) {woken : Bool} (unrooted : ∀ event ∈ events, ¬event.OfRoot)
    (asleep : wokenAfter rt woken events = false) :
    woken = false ∧ ∀ event ∈ events, event ≠ .wokeRoot rt := by
  induction events generalizing woken with
  | nil => exact ⟨asleep, by simp⟩
  | cons event rest ih =>
    have quiet := unrooted event List.mem_cons_self
    obtain ⟨step, others⟩ := ih (fun e member => unrooted e (List.mem_cons_of_mem _ member)) asleep
    cases event with
    | wokeRoot rt' =>
      simp only [wokenStep, Bool.or_eq_false_iff, beq_eq_false_iff_ne] at step
      exact ⟨step.1, by simpa [step.2] using others⟩
    | rootPolling rt' => exact absurd trivial quiet
    | rootPolled rt' answer => exact absurd trivial quiet
    | scheduled rt' place task => exact ⟨step, by simpa using others⟩
    | ran rt' place task handle => exact ⟨step, by simpa using others⟩
    | spawned handle => exact ⟨step, by simpa using others⟩
    | contextSet handle => exact ⟨step, by simpa using others⟩

theorem Pends.asleep {woken : Bool} (pends : Pends rt (fun _ => True) events)
    (asleep : wokenAfter rt woken events = false) : Pends rt (fun event => event ≠ .wokeRoot rt) events := by
  obtain ⟨earlier, inside, after, rfl, during, since⟩ := pends
  rw [wokenAfter_append, ← List.cons_append, wokenAfter_append] at asleep
  obtain ⟨before, unwoken⟩ := wokenAfter_asleep after (fun e member => (since e member).1)
    asleep
  obtain ⟨_, unwoken'⟩ := wokenAfter_asleep inside (fun e member => (during e member).1)
    before
  exact ⟨earlier, inside, after, by simp, fun e member => ⟨(during e member).1, unwoken' e member⟩,
    fun e member => ⟨(since e member).1, unwoken e member⟩⟩

end RootEvents

section Verdict

variable {root : RootId} {core : Core} {turn : Turn} {s t : Thread X A} {events : List (Event A)}

/-- What holds before each turn of `block_on`, when it has started in `s` with `core`. -/
structure Blocking (rt : RuntimeId) (core : Core) (s : Thread X A) (turn : Turn) (t : Thread X A)
    (events : List (Event A)) : Prop where
  driving : Driving rt t
  progress : Progress rt core s turn.core t events
  driven : ∀ event ∈ events, event.Driven rt
  top : turn.c = 0 → turn.i = 0
  bound : turn.i < 10
  polled : turn.i = 0 ∧ (t.runtimes rt).woken = true ∨ Pends rt (fun _ => True) events

def Drained (rt : RuntimeId) (turn : Turn) (t : Thread X A) : Prop :=
  turn.core.tasks = [] ∧ (t.runtimes rt).queue = some []

theorem root_driven {inside : List (Event A)}
    (driven : ∀ event ∈ events, event.Driven rt)
    (passive : ∀ event ∈ inside, event.Passive) :
    ∀ event ∈ events ++ .rootPolling rt :: inside, event.Driven rt := by
  intro event member
  simp only [List.mem_append, List.mem_cons] at member
  rcases member with member | rfl | member
  · exact driven event member
  · rfl
  · exact (passive event member).driven

theorem Blocking.task (contained : env.Contained) {turn₁ : Turn} {t₁ : Thread X A} {res : Option (Poll A)}
    (polled : pollWoken env rt root turn t = (.returned (turn₁, res), t₁))
    (unready : res = none ∨ res = some .pending) (driving : Driving rt t₁)
    (accounted : Progress rt core s turn₁.core t₁ events)
    (driven : ∀ event ∈ events, event.Driven rt) (bound : turn₁.i < 10)
    (pends : Pends rt (fun _ => True) events) (busy : ¬Drained rt turn₁ t₁) :
    ∃ core' u, Driving rt u ∧ Accounted rt core s core' u ∧
      (turn₁.i = 9 ∧ blockOnTurn env rt root turn t = (.unwound .notImplemented, u) ∨
        turn₁.i < 9 ∧ ∃ turn' events', blockOnTurn env rt root turn t = (.returned (.inl turn'), u) ∧
          Blocking rt core s turn' u events') := by
  rcases turn_cases turn₁.core driving with ⟨drained, empty, _⟩ |
    ⟨place, task, core₁, s₁, placed, taken⟩
  · exact absurd ⟨empty, drained⟩ busy
  · obtain ⟨core₂, u, later, progress, passive, driving', _, run⟩ := task_turn contained driving taken
    have ended := blockOnTurn_task polled unready taken run
    have total := accounted.trans progress
    have drivenLater : ∀ event ∈ events ++ .ran rt place task t₁.context :: later,
        event.Driven rt := by
      intro event member
      rcases List.mem_append.mp member with member | member
      · exact driven event member
      · exact task_driven placed passive event member
    refine ⟨core₂, u, driving', ⟨_, total, drivenLater⟩, ?_⟩
    by_cases last : turn₁.i = 9
    · exact .inl ⟨last, by simpa [last] using ended⟩
    · have early : turn₁.i + 1 < 10 := by omega
      rw [if_pos early] at ended
      refine .inr ⟨by omega, _, events ++ .ran rt place task t₁.context :: later, ended, ?_⟩
      exact
        { driving := driving'
          progress := total
          driven := drivenLater
          top := by simp
          bound := early
          polled := .inr (pends.append fun event member => by
            rcases List.mem_cons.mp member with rfl | member
            · exact id
            · exact (passive event member).not_ofRoot) }

inductive Comes (rt : RuntimeId) (core : Core) (s : Thread X A) (turn : Turn) (t : Thread X A)
    (events : List (Event A)) : Exit Panic (Turn ⊕ Core × Option A) → Thread X A → Prop where
  | ready {core' : Core} {u : Thread X A} {value : A} {later : List (Event A)}
    (progress : Progress rt core s core' u (later ++ [.rootPolled rt (some (.ready value))]))
    (driven : ∀ event ∈ later, event.Driven rt) :
    Comes rt core s turn t events (.returned (.inr (core', some value))) u
  | deadlock {core' : Core} {u : Thread X A} (progress : Progress rt core s core' u events)
    (empty : core'.tasks = []) (drained : (u.runtimes rt).queue = some [])
    (asleep : (u.runtimes rt).woken = false) (pends : Pends rt (fun _ => True) events)
    (driven : ∀ event ∈ events, event.Driven rt) :
    Comes rt core s turn t events (.returned (.inr (core', none))) u
  | next {turn' : Turn} {u : Thread X A} {later : List (Event A)}
    (blocking : Blocking rt core s turn' u later) : Comes rt core s turn t events (.returned (.inl turn')) u
  | parked {core' : Core} {u : Thread X A} (last : turn.i = 9) (busy : ¬Drained rt turn t)
    (lost : Driving rt u) (accounted : Accounted rt core s core' u) :
    Comes rt core s turn t events (.unwound .notImplemented) u
  | unwound {core' : Core} {u : Thread X A} {payload : Panic} {later : List (Event A)}
    (progress : Progress rt core s core' u (later ++ [.rootPolled rt none]))
    (driven : ∀ event ∈ later, event.Driven rt)
    (held : (u.runtimes rt).contextCore = some core') :
    Comes rt core s turn t events (.unwound payload) u

/-- The rest of a turn, once the root future has answered pending or is not polled. -/
theorem comes_of_pending (contained : env.Contained) {turn₁ : Turn} {t₁ : Thread X A}
    {res : Option (Poll A)} {later : List (Event A)}
    (polled : pollWoken env rt root turn t = (.returned (turn₁, res), t₁))
    (unready : res = none ∨ res = some .pending) (driving : Driving rt t₁)
    (progress : Progress rt core s turn₁.core t₁ later) (driven : ∀ event ∈ later, event.Driven rt)
    (bound : turn₁.i < 10) (pends : Pends rt (fun _ => True) later)
    (stuck : turn₁.c = 0 → (t₁.runtimes rt).woken = false ∧ later = events)
    (tenth : turn₁.i = 9 → turn.i = 9 ∧ (Drained rt turn t → Drained rt turn₁ t₁)) :
    Comes rt core s turn t events (blockOnTurn env rt root turn t).1 (blockOnTurn env rt root turn t).2 := by
  by_cases drained : Drained rt turn₁ t₁
  · rcases turn_cases turn₁.core driving with ⟨_, _, empty⟩ | ⟨place, task, core₂, s₁, _, taken⟩
    · rw [blockOnTurn_empty polled unready empty]
      have ticked := progress.trans (Progress.ticked rt turn₁.core t₁)
      rw [List.append_nil] at ticked
      by_cases idle : turn₁.c = 0
      · obtain ⟨asleep, rfl⟩ := stuck idle
        rw [if_pos idle]
        exact .deadlock ticked drained.1 drained.2 asleep pends driven
      · rw [if_neg idle]
        exact .next ⟨driving, ticked, driven, fun _ => rfl, Nat.zero_lt_succ 9, .inr pends⟩
    · rcases nextEntry_cases turn₁.core drained.2 with ⟨_, _, ended⟩ | ⟨_, _, tasks, _⟩ | ⟨_, _, queue, _⟩
      · rw [ended] at taken
        cases taken
      · simp [drained.1] at tasks
      · cases queue
  · obtain ⟨core', u, lost, accounted, ⟨last, ended⟩ | ⟨_, turn', events', ended, blocking'⟩⟩ :=
      Blocking.task contained polled unready driving progress driven bound pends drained
    · rw [ended]
      obtain ⟨same, also⟩ := tenth last
      exact .parked same (fun empty => drained (also empty)) lost accounted
    · rw [ended]
      exact .next blocking'

theorem blockOnTurn_comes (contained : env.Contained) (blocking : Blocking rt core s turn t events)
    (root : RootId) :
    Comes rt core s turn t events (blockOnTurn env rt root turn t).1 (blockOnTurn env rt root turn t).2 := by
  rcases pollWoken_cases contained blocking.driving root turn with
    ⟨t₁, polled, asleep, driving, still, queue⟩ |
    ⟨top, core₁, t₁, answer, inside, passive, polled, driving, progress⟩ |
    ⟨top, core₁, t₁, payload, inside, passive, polled, held, progress⟩
  · -- the root future is not polled: it has not been woken, or the round has begun
    have total := blocking.progress.trans still
    rw [List.append_nil] at total
    have pends : Pends rt (fun _ => True) events := by
      rcases blocking.polled with ⟨top, woken⟩ | pends
      · have kept := still.woken
        simp [asleep top, wokenAfter, woken] at kept
      · exact pends
    exact comes_of_pending contained polled (.inl rfl) driving total blocking.driven blocking.bound pends
      (fun idle => ⟨asleep (blocking.top idle), rfl⟩)
      (fun last => ⟨last, fun drained => ⟨drained.1, queue.trans drained.2⟩⟩)
  · have total : Progress rt core s core₁ t₁
        ((events ++ .rootPolling rt :: inside) ++ [.rootPolled rt (some answer)]) := by
      simpa using blocking.progress.trans progress
    have driven := root_driven blocking.driven passive
    cases answer with
    | ready value =>
      rw [blockOnTurn_ready polled]
      exact .ready total driven
    | pending =>
      refine comes_of_pending contained polled (.inr rfl) driving total ?_ (by simp [top]) ?_ (by simp)
        (by simp [top])
      · intro event member
        rcases List.mem_append.mp member with member | member
        · exact driven event member
        · rw [List.mem_singleton.mp member]
          rfl
      · simpa using Pends.polled passive
  · have total : Progress rt core s core₁ t₁
        ((events ++ .rootPolling rt :: inside) ++ [.rootPolled rt none]) := by
      simpa using blocking.progress.trans progress
    rw [blockOnTurn_unwound polled]
    exact .unwound total (root_driven blocking.driven passive) held

end Verdict

section Call

variable {root : RootId} {core : Core} {turn : Turn} {s t u : Thread X A} {fuel : Nat}

def blockingStart (rt : RuntimeId) (core : Core) (s : Thread X A) : Thread X A :=
  ((BasicScheduler.guarded rt core s).beginRun rt).update rt fun b => { b with woken := true }

theorem Blocking.start (core : Core) (alive : (s.runtimes rt).queue.isSome = true) :
    Blocking rt core (blockingStart rt core s) (.top core) (blockingStart rt core s) [] where
  driving :=
    { entered := rfl
      slot := by simp [blockingStart, beginRun, BasicScheduler.guarded]
      alive := by simp [blockingStart, beginRun, BasicScheduler.guarded, alive]
      cell := by simp [blockingStart, beginRun] }
  progress := Progress.refl rt core _
  driven := by simp
  top _ := rfl
  bound := Nat.zero_lt_succ 9
  polled := .inl ⟨rfl, by simp [blockingStart]⟩

theorem Blocking.reached (contained : env.Contained) (alive : (s.runtimes rt).queue.isSome = true)
    (reached : Reaches (blockOnTurn env rt root) (.top core) (blockingStart rt core s) turn t) :
    ∃ events, Blocking rt core (blockingStart rt core s) turn t events := by
  refine reached.invariant
    (fun turn t => ∃ events, Blocking rt core (blockingStart rt core s) turn t events)
    ⟨[], Blocking.start core alive⟩ ?_
  rintro turn t turn' t' ⟨events, blocking⟩ turned
  have comes := blockOnTurn_comes contained blocking root
  rw [turned] at comes
  cases comes with
  | next blocking' => exact ⟨_, blocking'⟩

theorem blockOnTurn_parks (contained : env.Contained) {events : List (Event A)}
    (blocking : Blocking rt core s turn t events) (root : RootId) (last : turn.i = 9)
    (busy : ¬Drained rt turn t) :
    ∃ u, Driving rt u ∧ blockOnTurn env rt root turn t = (.unwound .notImplemented, u) := by
  have pends : Pends rt (fun _ => True) events := by
    rcases blocking.polled with ⟨top, _⟩ | pends
    · omega
    · exact pends
  have unpolled : pollWoken env rt root turn t = (.returned (turn, none), t) := by
    simp [pollWoken, last]
  obtain ⟨_, u, lost, _, ⟨_, ended⟩ | ⟨early, _⟩⟩ := Blocking.task contained unpolled (.inl rfl)
    blocking.driving blocking.progress blocking.driven blocking.bound pends busy
  · exact ⟨u, lost, ended⟩
  · omega

def verdict : Option A → Except BlockOnError A
  | some value => .ok value
  | none => .error .deadlock

section Ends

variable (free : s.entered.isEntered = false)
include free

theorem blockOn_returned {core' : Core} {res : Option A}
    (looped : loop (blockOnTurn env rt root) fuel (.top core) (blockingStart rt core s) =
      (.returned (core', res), u)) :
    CoreGuard.blockOn env fuel rt root (BasicScheduler.guarded rt core s) =
      (.returned (verdict res), storeCore rt core' ((BasicScheduler.guarded rt core s).endRun u)) := by
  let body : Core → Act X A (Core × Option A) := fun core => do
    Spawner.wakerRef rt
    loop (blockOnTurn env rt root) fuel (.top core)
  have held : ((BasicScheduler.guarded rt core s).runtimes rt).contextCore = some core := by
    simp [BasicScheduler.guarded]
  have ran : body core ((BasicScheduler.guarded rt core s).beginRun rt) = (.returned (core', res), u) :=
    (bind_returned rfl).trans looped
  have closed : storeCore rt core' ((BasicScheduler.guarded rt core s).endRun u) = CoreGuard.drop rt
      (((BasicScheduler.guarded rt core s).endRun u).update rt fun b =>
        { b with contextCore := some core' }) := by
    simp [CoreGuard.drop, storeCore]
  rw [closed]
  apply CoreGuard.consume_returned
  exact (bind_returned (CoreGuard.enter_returned held free ran)).trans (by cases res <;> rfl)

theorem blockOn_unwound {payload : Panic}
    (looped : loop (blockOnTurn env rt root) fuel (.top core) (blockingStart rt core s) =
      (.unwound payload, u)) :
    CoreGuard.blockOn env fuel rt root (BasicScheduler.guarded rt core s) =
      (.unwound payload, CoreGuard.drop rt ((BasicScheduler.guarded rt core s).endRun u)) := by
  let body : Core → Act X A (Core × Option A) := fun core => do
    Spawner.wakerRef rt
    loop (blockOnTurn env rt root) fuel (.top core)
  have held : ((BasicScheduler.guarded rt core s).runtimes rt).contextCore = some core := by
    simp [BasicScheduler.guarded]
  have ran : body core ((BasicScheduler.guarded rt core s).beginRun rt) = (.unwound payload, u) :=
    (bind_returned rfl).trans looped
  apply CoreGuard.consume_unwound
  exact bind_unwound (CoreGuard.enter_unwound held free ran)

theorem blockOn_running
    (looped : loop (blockOnTurn env rt root) fuel (.top core) (blockingStart rt core s) = (.running, u)) :
    CoreGuard.blockOn env fuel rt root (BasicScheduler.guarded rt core s) = (.running, u) := by
  let body : Core → Act X A (Core × Option A) := fun core => do
    Spawner.wakerRef rt
    loop (blockOnTurn env rt root) fuel (.top core)
  have held : ((BasicScheduler.guarded rt core s).runtimes rt).contextCore = some core := by
    simp [BasicScheduler.guarded]
  have ran : body core ((BasicScheduler.guarded rt core s).beginRun rt) = (.running, u) :=
    (bind_returned rfl).trans looped
  apply CoreGuard.consume_running
  exact bind_running (CoreGuard.enter_running held free ran)

end Ends

/-- A call of `block_on` keeps to its result type, and leaves the core in its slot. -/
def WithinResult (rt : RuntimeId) : Exit Panic (Except BlockOnError A) × Thread X A → Prop
  | (.returned (.ok value), t) =>
    (t.runtimes rt).core.isSome = true ∧ t.trace.getLast? = some (.rootPolled rt (some (.ready value)))
  | (.returned (.error .deadlock), t) => (t.runtimes rt).core.isSome = true
  | (.unwound _, t) =>
    -- it was the root future that unwound
    (t.runtimes rt).core.isSome = true ∧ t.trace.getLast? = some (.rootPolled rt none)
  | (.running, _) => True

end Call

/-- `block_on` never panics by itself and always gives the core back if and only if no round of its
inner loop has a tenth task to poll. -/
theorem block_on_within_result_iff (program : Program X A) (depth : Nat) (rt : RuntimeId)
    (root : RootId) (core : Core) (s : Thread X A) (alive : (s.runtimes rt).queue.isSome = true)
    (free : s.entered.isEntered = false) :
    (∀ fuel, WithinResult rt (CoreGuard.blockOn (program.env depth) fuel rt root
        (BasicScheduler.guarded rt core s))) ↔
      ∀ turn t, Reaches (blockOnTurn (program.env depth) rt root) (.top core) (blockingStart rt core s)
        turn t → turn.i = 9 → Drained rt turn t := by
  have contained := program.env_contained depth
  constructor
  · intro within turn t reached last
    by_contra busy
    obtain ⟨events, blocking⟩ := Blocking.reached contained alive reached
    obtain ⟨u, lost, ended⟩ := blockOnTurn_parks contained blocking root last busy
    have left : Exit.leaves (blockOnTurn (program.env depth) rt root turn t).1 =
        some (.unwound .notImplemented) := by
      rw [ended]
      rfl
    obtain ⟨fuel, looped⟩ := reached.leaves left
    rw [ended] at looped
    have bad := within fuel
    rw [blockOn_unwound free looped, CoreGuard.drop_none (by simp [endRun, lost.cell])] at bad
    have back := bad.1
    simp [endRun, lost.slot] at back
  · intro short fuel
    obtain ⟨turn, t, reached, looped | ⟨exit, left, looped⟩⟩ :=
      loop_ends (blockOnTurn (program.env depth) rt root) fuel (.top core) (blockingStart rt core s)
    · rw [blockOn_running free looped]
      trivial
    · obtain ⟨events, blocking⟩ := Blocking.reached contained alive reached
      have comes := blockOnTurn_comes contained blocking root
      rcases ended : blockOnTurn (program.env depth) rt root turn t with ⟨last, u⟩
      rw [ended] at left looped comes
      change loop _ fuel _ _ = (exit, u) at looped
      change Comes rt core _ turn t events last u at comes
      cases comes with
      | ready progress driven =>
        cases left
        rw [blockOn_returned free looped]
        exact ⟨by simp [storeCore], by simp [storeCore, endRun, progress.trace]⟩
      | deadlock progress empty drained asleep pends driven =>
        cases left
        rw [blockOn_returned free looped]
        simp [WithinResult, verdict, storeCore]
      | next blocking' => cases left
      | parked last busy lost accounted => exact absurd (short turn t reached last) busy
      | unwound progress driven held =>
        cases left
        rw [blockOn_unwound free looped, CoreGuard.drop_some (by simpa [endRun] using held)]
        exact ⟨by simp [storeCore], by simp [storeCore, endRun, progress.trace]⟩

/-- Ten tasks in the local queue, and a root future that never resolves. -/
def crowd : Core := { tasks := (List.range 10).map (⟨·, 0⟩), tick := 0, unhandledPanic := false, handled := rfl }

theorem block_on_within_result_iff_crowd :
    (∀ fuel, WithinResult 0 (CoreGuard.blockOn (relay.env 0) fuel 0 0
        (BasicScheduler.guarded 0 crowd relayStart))) ↔
      ∀ turn t, Reaches (blockOnTurn (relay.env 0) 0 0) (.top crowd) (blockingStart 0 crowd relayStart)
        turn t → turn.i = 9 → Drained 0 turn t :=
  block_on_within_result_iff relay 0 0 0 crowd relayStart rfl rfl

def crowdRun (fuel : Nat) : Exit Panic (Except BlockOnError Unit) × Thread Unit Unit :=
  CoreGuard.blockOn (relay.env 0) fuel 0 0 (BasicScheduler.guarded 0 crowd relayStart)

theorem crowdRun_unwound : (crowdRun 20).1 = .unwound .notImplemented := by decide +kernel

theorem crowdRun_lost : ((crowdRun 20).2.runtimes 0).core = none := by decide +kernel

theorem WithinResult.stored {X A : Type} {rt : RuntimeId} {fuel : Nat} {payload : Panic}
    {m : Nat → Exit Panic (Except BlockOnError A) × Thread X A} (within : ∀ fuel, WithinResult rt (m fuel))
    (unwound : (m fuel).1 = .unwound payload) : ((m fuel).2.runtimes rt).core.isSome = true := by
  have here := within fuel
  generalize m fuel = r at here unwound
  obtain ⟨exit, t⟩ := r
  obtain rfl : exit = .unwound payload := unwound
  exact here.1

theorem park_yield_reached :
    ¬∀ (program : Program Unit Unit) (depth : Nat) (rt : RuntimeId) (root : RootId) (core : Core)
      (s : Thread Unit Unit), (s.runtimes rt).queue.isSome = true → s.entered.isEntered = false →
        ∀ fuel, WithinResult rt (CoreGuard.blockOn (program.env depth) fuel rt root
          (BasicScheduler.guarded rt core s)) := by
  intro within
  have crowded : ∀ fuel, WithinResult 0 (crowdRun fuel) := within relay 0 0 0 crowd relayStart rfl rfl
  have stored := WithinResult.stored crowded crowdRun_unwound
  rw [crowdRun_lost] at stored
  cases stored

/-- No task is queued and the root future sleeps. -/
def Stuck (rt : RuntimeId) (core : Core) (t : Thread X A) : Prop :=
  nextEntry rt core t = (.returned (none, core.ticked), t) ∧
    (Spawner.resetWoken rt t).1 = .returned false

theorem Stuck.of_drained {core : Core} {t : Thread X A} (empty : core.tasks = [])
    (drained : (t.runtimes rt).queue = some []) (asleep : (t.runtimes rt).woken = false) :
    Stuck rt core t := by
  refine ⟨?_, by simp [Spawner.resetWoken, asleep]⟩
  rcases nextEntry_cases core drained with ⟨_, _, ended⟩ | ⟨_, _, tasks, _⟩ | ⟨_, _, queue, _⟩
  · exact ended
  · simp [empty] at tasks
  · cases queue

/-- `Err(Deadlock)` means that nothing can happen without an outside event; with `Ok` what is queued
stays queued, in order. -/
theorem block_on_verdict_sound (program : Program X A) (depth fuel : Nat) (rt : RuntimeId)
    (root : RootId) (core : Core) (queue : List Notified) (s t : Thread X A)
    (res : Except BlockOnError A) (alive : (s.runtimes rt).queue = some queue)
    (returned : CoreGuard.blockOn (program.env depth) fuel rt root (BasicScheduler.guarded rt core s) =
      (.returned res, t)) :
    ∃ events core' queue', t.trace = s.trace ++ events ∧ (t.runtimes rt).core = some core' ∧
      (t.runtimes rt).queue = some queue' ∧
      (res = .error .deadlock → Pends rt (fun event => event ≠ .wokeRoot rt) events ∧
        core'.tasks = [] ∧ queue' = [] ∧ Stuck rt core' t) ∧
      ∀ value, res = .ok value →
        events.getLast? = some (.rootPolled rt (some (.ready value))) ∧
        core.tasks ++ scheduledTo rt .core events = ranFrom rt .core events ++ core'.tasks ∧
        queue ++ scheduledTo rt .shared events = ranFrom rt .shared events ++ queue' ∧
        scheduledTo rt .nowhere events = [] := by
  have contained := program.env_contained depth
  have free : s.entered.isEntered = false := by
    by_contra entered
    have held : ((BasicScheduler.guarded rt core s).runtimes rt).contextCore = some core := by
      simp [BasicScheduler.guarded]
    have running : s.entered.isEntered = true := by simpa using entered
    rw [CoreGuard.blockOn_refused held running] at returned
    cases returned
  have living : (s.runtimes rt).queue.isSome = true := by simp [alive]
  have startQueue : ((blockingStart rt core s).runtimes rt).queue = some queue := by
    simp [blockingStart, beginRun, BasicScheduler.guarded, alive]
  obtain ⟨turn, v, reached, looped | ⟨exit, left, looped⟩⟩ :=
    loop_ends (blockOnTurn (program.env depth) rt root) fuel (.top core) (blockingStart rt core s)
  · rw [blockOn_running free looped] at returned
    cases returned
  · obtain ⟨events, blocking⟩ := Blocking.reached contained living reached
    have comes := blockOnTurn_comes contained blocking root
    rcases ended : blockOnTurn (program.env depth) rt root turn v with ⟨last, u⟩
    rw [ended] at left looped comes
    change loop _ fuel _ _ = (exit, u) at looped
    change Comes rt core _ turn v events last u at comes
    cases comes with
    | ready progress driven =>
      cases left
      rw [blockOn_returned free looped] at returned
      cases returned
      obtain ⟨queue', stored, fifo⟩ := progress.queue queue startQueue
      refine ⟨_, _, queue', progress.trace, by simp [storeCore]; rfl, ?_, by simp [verdict], ?_⟩
      · simpa [storeCore, endRun] using stored
      · intro value same
        cases same
        exact ⟨by simp, progress.tasks, fifo, progress.kept⟩
    | deadlock progress empty drained asleep pends driven =>
      cases left
      rw [blockOn_returned free looped] at returned
      cases returned
      refine ⟨_, _, [], progress.trace, by simp [storeCore]; rfl, ?_, fun _ => ?_, by simp [verdict]⟩
      · simpa [storeCore, endRun] using drained
      · have woken := progress.woken
        rw [asleep] at woken
        refine ⟨pends.asleep woken.symm, empty, rfl, Stuck.of_drained empty ?_ ?_⟩
        · simpa [storeCore, endRun] using drained
        · simpa [storeCore, endRun] using asleep
    | next blocking' => cases left
    | parked last busy lost accounted =>
      cases left
      rw [blockOn_unwound free looped] at returned
      cases returned
    | unwound progress driven held =>
      cases left
      rw [blockOn_unwound free looped] at returned
      cases returned

/-- The root future of this program resolves when it is polled for the second time. A task that is run
wakes it, and each of its polls notifies another task. -/
def waiter : Program Nat Nat :=
  { run := fun _ polls => ([.wake (.root 0)], polls)
    poll := fun _ polls => (([.wake (.task 0 ⟨9, polls⟩)], if polls = 0 then .pending else .ready polls), polls + 1)
    wake := fun _ polls => (none, polls) }

def waiterStart : Thread Nat Nat :=
  { world := 0
    now := .ofNanos 0
    context := none
    guards := fun _ => none
    entered := .notEntered
    current := none
    timeDriver := none
    borrowed := false
    drivers := fun _ => TimeDriver.new
    runtimes := BasicScheduler.new
    trace := [] }

def waiterRun : Exit Panic (Except BlockOnError Nat) × Thread Nat Nat :=
  CoreGuard.blockOn (waiter.env 0) 20 0 0
    (BasicScheduler.guarded 0 ⟨[⟨1, 0⟩], 4, false, rfl⟩ waiterStart)

theorem waiterRun_returned : waiterRun = (.returned (.ok 1), waiterRun.2) := by
  have returned : waiterRun.1 = .returned (.ok 1) := by decide +kernel
  rw [← returned]

theorem block_on_verdict_sound_waiter :
    ∃ events core' queue', waiterRun.2.trace = [] ++ events ∧
      (waiterRun.2.runtimes 0).core = some core' ∧ (waiterRun.2.runtimes 0).queue = some queue' ∧
      (Except.ok (ε := BlockOnError) 1 = .error .deadlock →
        Pends 0 (fun event => event ≠ .wokeRoot 0) events ∧
          core'.tasks = [] ∧ queue' = [] ∧ Stuck 0 core' waiterRun.2) ∧
      ∀ value, Except.ok (ε := BlockOnError) 1 = .ok value →
        events.getLast? = some (.rootPolled 0 (some (.ready value))) ∧
        [⟨1, 0⟩] ++ scheduledTo 0 .core events = ranFrom 0 .core events ++ core'.tasks ∧
        [] ++ scheduledTo 0 .shared events = ranFrom 0 .shared events ++ queue' ∧
        scheduledTo 0 .nowhere events = [] :=
  block_on_verdict_sound waiter 0 20 0 0 _ [] waiterStart waiterRun.2 _ rfl waiterRun_returned

end Osaka
