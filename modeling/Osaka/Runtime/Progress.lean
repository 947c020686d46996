import Osaka.Runtime.Scheduler

set_option autoImplicit false

namespace Osaka

open Unwind Time

variable {X A B : Type}

def scheduledTo (rt : RuntimeId) (place : Place) (events : List (Event A)) : List Notified :=
  events.filterMap fun event =>
    match event with
    | .scheduled rt' place' task => if rt' = rt ∧ place' = place then some task else none
    | _ => none

def ranFrom (rt : RuntimeId) (place : Place) (events : List (Event A)) : List Notified :=
  events.filterMap fun event =>
    match event with
    | .ran rt' place' task _ => if rt' = rt ∧ place' = place then some task else none
    | _ => none

def wokenStep (rt : RuntimeId) (woken : Bool) : Event A → Bool
  | .wokeRoot rt' => woken || rt' == rt
  | .rootPolling rt' => woken && rt' != rt
  | _ => woken

/-- Whether the root future of `rt` has been woken since its last poll began. -/
def wokenAfter (rt : RuntimeId) (woken : Bool) (events : List (Event A)) : Bool :=
  events.foldl (wokenStep rt) woken

def handleStep (handle : Option RuntimeId) : Event A → Option RuntimeId
  | .contextSet new => new
  | _ => handle

/-- The handle in force after `events`. -/
def handleAfter (handle : Option RuntimeId) (events : List (Event A)) : Option RuntimeId :=
  events.foldl handleStep handle

def Event.Reads (handle : Option RuntimeId) : Event A → Prop
  | .ran _ _ _ read => read = handle
  | .spawned read => read = handle
  | _ => True

def ReadsInForce : Option RuntimeId → List (Event A) → Prop
  | _, [] => True
  | handle, event :: rest => event.Reads handle ∧ ReadsInForce (handleStep handle event) rest

section Events

variable (rt : RuntimeId) (place : Place) (before after : List (Event A))

@[simp]
theorem scheduledTo_nil : scheduledTo rt place ([] : List (Event A)) = [] := rfl

@[simp]
theorem scheduledTo_append :
    scheduledTo rt place (before ++ after) = scheduledTo rt place before ++ scheduledTo rt place after :=
  List.filterMap_append

@[simp]
theorem ranFrom_nil : ranFrom rt place ([] : List (Event A)) = [] := rfl

@[simp]
theorem ranFrom_append :
    ranFrom rt place (before ++ after) = ranFrom rt place before ++ ranFrom rt place after :=
  List.filterMap_append

@[simp]
theorem wokenAfter_nil (woken : Bool) : wokenAfter rt woken ([] : List (Event A)) = woken := rfl

@[simp]
theorem wokenAfter_append (woken : Bool) :
    wokenAfter rt woken (before ++ after) = wokenAfter rt (wokenAfter rt woken before) after :=
  List.foldl_append

@[simp]
theorem handleAfter_nil (handle : Option RuntimeId) : handleAfter handle ([] : List (Event A)) = handle := rfl

@[simp]
theorem handleAfter_cons (handle : Option RuntimeId) (event : Event A) :
    handleAfter handle (event :: after) = handleAfter (handleStep handle event) after := rfl

@[simp]
theorem handleAfter_append (handle : Option RuntimeId) :
    handleAfter handle (before ++ after) = handleAfter (handleAfter handle before) after :=
  List.foldl_append

@[simp]
theorem readsInForce_nil (handle : Option RuntimeId) : ReadsInForce handle ([] : List (Event A)) := trivial

@[simp]
theorem readsInForce_cons (handle : Option RuntimeId) (event : Event A) :
    ReadsInForce handle (event :: after) ↔
      event.Reads handle ∧ ReadsInForce (handleStep handle event) after := Iff.rfl

@[simp]
theorem readsInForce_append (handle : Option RuntimeId) :
    ReadsInForce handle (before ++ after) ↔
      ReadsInForce handle before ∧ ReadsInForce (handleAfter handle before) after := by
  induction before generalizing handle with
  | nil => simp
  | cons event rest ih => simp [ih, and_assoc]

end Events

/-- From `s` with `core` to `t` with `core'`, the two queues of `rt` have only been popped at the
front by tasks that then ran, and pushed at the back by what was scheduled. -/
structure Progress (rt : RuntimeId) (core : Core) (s : Thread X A) (core' : Core) (t : Thread X A)
    (events : List (Event A)) : Prop where
  trace : t.trace = s.trace ++ events
  tasks : core.tasks ++ scheduledTo rt .core events = ranFrom rt .core events ++ core'.tasks
  queue : ∀ queue, (s.runtimes rt).queue = some queue → ∃ queue', (t.runtimes rt).queue = some queue' ∧
    queue ++ scheduledTo rt .shared events = ranFrom rt .shared events ++ queue'
  kept : scheduledTo rt .nowhere events = []
  woken : (t.runtimes rt).woken = wokenAfter rt (s.runtimes rt).woken events
  slot : (t.runtimes rt).core = (s.runtimes rt).core
  context : t.context = handleAfter s.context events
  reads : ReadsInForce s.context events
  entered : t.entered = s.entered
  current : t.current = s.current

namespace Progress

variable {rt : RuntimeId} {core core' core'' : Core} {s t u : Thread X A} {events later : List (Event A)}

theorem refl (rt : RuntimeId) (core : Core) (s : Thread X A) : Progress rt core s core s [] := by
  constructor <;> simp

theorem trans (first : Progress rt core s core' t events) (second : Progress rt core' t core'' u later) :
    Progress rt core s core'' u (events ++ later) where
  trace := by rw [second.trace, first.trace, List.append_assoc]
  tasks := by
    rw [scheduledTo_append, ranFrom_append, ← List.append_assoc, first.tasks, List.append_assoc,
      second.tasks, List.append_assoc]
  queue := by
    intro queue stored
    obtain ⟨queue', stored', fifo⟩ := first.queue queue stored
    obtain ⟨queue'', stored'', fifo'⟩ := second.queue queue' stored'
    refine ⟨queue'', stored'', ?_⟩
    rw [scheduledTo_append, ranFrom_append, ← List.append_assoc, fifo, List.append_assoc, fifo',
      List.append_assoc]
  kept := by simp [first.kept, second.kept]
  woken := by rw [second.woken, first.woken, wokenAfter_append]
  slot := second.slot.trans first.slot
  context := by rw [second.context, first.context, handleAfter_append]
  reads := by
    rw [readsInForce_append, ← first.context]
    exact ⟨first.reads, second.reads⟩
  entered := second.entered.trans first.entered
  current := second.current.trans first.current

end Progress

/-- What can happen inside a poll: no other poll. -/
def Event.Passive : Event A → Prop
  | .scheduled _ _ _ => True
  | .wokeRoot _ => True
  | .spawned _ => True
  | .contextSet _ => True
  | _ => False

structure Inside (rt : RuntimeId) (s : Thread X A) : Prop where
  entered : s.entered.isEntered = true
  slot : (s.runtimes rt).core = none
  alive : (s.runtimes rt).queue.isSome = true
  guarded : (s.runtimes rt).contextCore.isSome = true

/-- From `s`, inside a poll of `rt`, to `t` nothing is taken from the queues of `rt`, nothing that is
scheduled is lost, and the tick stands still. -/
def Stays (rt : RuntimeId) (s t : Thread X A) : Prop :=
  Inside rt s → ∀ core, (s.runtimes rt).contextCore = some core →
    ∃ core' events, (t.runtimes rt).contextCore = some core' ∧ core'.tick = core.tick ∧
      Progress rt core s core' t events ∧ ∀ event ∈ events, event.Passive

theorem Progress.inside {rt : RuntimeId} {core core' : Core} {s t : Thread X A}
    {events : List (Event A)} (progress : Progress rt core s core' t events) (inside : Inside rt s)
    (guarded : (t.runtimes rt).contextCore = some core') : Inside rt t where
  entered := by rw [progress.entered, inside.entered]
  slot := by rw [progress.slot, inside.slot]
  alive := by
    obtain ⟨queue, stored⟩ := Option.isSome_iff_exists.mp inside.alive
    obtain ⟨queue', stored', _⟩ := progress.queue queue stored
    simp [stored']
  guarded := by simp [guarded]

namespace Stays

variable {rt : RuntimeId} {s t u : Thread X A}

theorem refl (rt : RuntimeId) (s : Thread X A) : Stays rt s s :=
  fun _ core held => ⟨core, [], held, rfl, Progress.refl rt core s, by simp⟩

theorem trans (first : Stays rt s t) (second : Stays rt t u) :
    Stays rt s u := by
  intro inside core held
  obtain ⟨core', events, held', tick, progress, legal⟩ := first inside core held
  obtain ⟨core'', later, held'', tick', progress', legal'⟩ :=
    second (progress.inside inside held') core' held'
  refine ⟨core'', events ++ later, held'', tick'.trans tick, progress.trans progress', ?_⟩
  intro event member
  rcases List.mem_append.mp member with member | member
  · exact legal event member
  · exact legal' event member

instance : Std.Refl (Stays (X := X) (A := A) rt) := ⟨Stays.refl rt⟩

instance : IsTrans (Thread X A) (Stays rt) := ⟨fun _ _ _ => Stays.trans⟩

theorem of_same (trace : t.trace = s.trace)
    (core : (t.runtimes rt).core = (s.runtimes rt).core)
    (contextCore : (t.runtimes rt).contextCore = (s.runtimes rt).contextCore)
    (queue : (t.runtimes rt).queue = (s.runtimes rt).queue)
    (woken : (t.runtimes rt).woken = (s.runtimes rt).woken) (context : t.context = s.context)
    (entered : t.entered = s.entered) (current : t.current = s.current) :
    Stays rt s t := by
  intro _ held isHeld
  refine ⟨held, [], contextCore.trans isHeld, rfl, ?_, by simp⟩
  exact
    { trace := by simp [trace]
      tasks := by simp
      queue := fun q stored => ⟨q, queue.trans stored, by simp⟩
      kept := rfl
      woken := woken
      slot := core
      context := context
      reads := trivial
      entered := entered
      current := current }

theorem of_event (event : Event A) (legal : event.Passive) (reads : event.Reads s.context)
    (unscheduled : ∀ place, scheduledTo rt place [event] = [])
    (unran : ∀ place, ranFrom rt place [event] = [])
    (unwoken : ∀ woken, wokenAfter rt woken [event] = woken)
    (trace : t.trace = s.trace ++ [event]) (same : t.runtimes rt = s.runtimes rt)
    (context : t.context = handleStep s.context event) (entered : t.entered = s.entered)
    (current : t.current = s.current) : Stays rt s t := by
  intro _ core held
  refine ⟨core, [event], same ▸ held, rfl, ?_, by simpa using legal⟩
  exact
    { trace := trace
      tasks := by simp [unscheduled, unran]
      queue := fun queue stored => ⟨queue, same ▸ stored, by simp [unscheduled, unran]⟩
      kept := unscheduled .nowhere
      woken := by rw [same, unwoken]
      slot := by rw [same]
      context := context
      reads := ⟨reads, trivial⟩
      entered := entered
      current := current }

/-- `CURRENT` may be set meanwhile. -/
theorem within {s' t' : Thread X A} (stays : Stays rt s' t') (begin_runtimes : s'.runtimes rt = s.runtimes rt)
    (begin_trace : s'.trace = s.trace) (begin_context : s'.context = s.context)
    (begin_entered : s'.entered = s.entered) (end_runtimes : t.runtimes rt = t'.runtimes rt)
    (end_trace : t.trace = t'.trace) (end_context : t.context = t'.context)
    (end_entered : t.entered = t'.entered) (current : t.current = s.current) : Stays rt s t := by
  intro inside core held
  have inside' : Inside rt s' :=
    { entered := begin_entered ▸ inside.entered
      slot := begin_runtimes ▸ inside.slot
      alive := begin_runtimes ▸ inside.alive
      guarded := begin_runtimes ▸ inside.guarded }
  obtain ⟨core', events, held', tick, progress, legal⟩ := stays inside' core (begin_runtimes ▸ held)
  refine ⟨core', events, end_runtimes ▸ held', tick, ?_, legal⟩
  exact
    { trace := by rw [end_trace, progress.trace, begin_trace]
      tasks := progress.tasks
      queue := by rw [end_runtimes, ← begin_runtimes]; exact progress.queue
      kept := progress.kept
      woken := by rw [end_runtimes, ← begin_runtimes]; exact progress.woken
      slot := by rw [end_runtimes, ← begin_runtimes]; exact progress.slot
      context := by rw [end_context, progress.context, begin_context]
      reads := begin_context ▸ progress.reads
      entered := by rw [end_entered, progress.entered, begin_entered]
      current := current }

end Stays

end Osaka
