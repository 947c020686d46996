import Mathlib.Data.List.Infix
import Osaka.Runtime.WithTime

set_option autoImplicit false

namespace Osaka

open Unwind Unwind.Exec Thread

/-- Calls of the methods of runtimes, as they follow each other and nest. `borrows` tells the methods
whose closure runs under `TimeDriver::with_current`, and `caught` the calls whose panic is caught. -/
inductive Calls where
  | done
  | unwind
  | call (rt : RuntimeId) (borrows : Bool) (inner : Calls) (caught : Bool) (rest : Calls)
  deriving DecidableEq

structure Places where
  timeDriver : Option DriverId
  cells : RuntimeId → Option DriverId

inductive Observation where
  -- a method of `rt` is the innermost one
  | inside (rt : RuntimeId) (timeDriver : Option DriverId)
  -- a method is left
  | left (entry exit : Places)

/-- The driver of a runtime goes by the number of the runtime. -/
def Observation.Right : Observation → Prop
  | .inside rt timeDriver => timeDriver = some rt
  | .left entry exit => exit = entry

abbrev Watched := Thread (List Observation) Unit

namespace Thread

def places {X A : Type} (s : Thread X A) : Places := ⟨s.timeDriver, fun rt => (s.runtimes rt).timeDriver⟩

def note (observation : Observation) (s : Watched) : Watched := { s with world := s.world ++ [observation] }

end Thread

namespace Calls

def observe (rt : Option RuntimeId) : Act (List Observation) Unit Unit := Exec.modify fun s =>
  match rt with
  | some rt => s.note (.inside rt s.timeDriver)
  | none => s

def closure (rt : RuntimeId) (borrows : Bool) (inner : Act (List Observation) Unit Unit) :
    Act (List Observation) Unit Unit := do
  observe (some rt)
  if borrows then TimeContext.withCurrent fun _ => inner else inner

/-- The calls, made while a method of `within` is the innermost one. -/
def exec (within : Option RuntimeId) : Calls → Act (List Observation) Unit Unit
  | .done => pure ()
  | .unwind => Exec.throw .user
  | .call rt borrows inner caught rest => do
    let entry ← Exec.get
    let result ← (BasicScheduler.withTime rt (closure rt borrows (inner.exec (some rt)))).catchUnwind
    Exec.modify fun exit => exit.note (.left entry.places exit.places)
    match result with
    | .ok () =>
      observe within
      rest.exec within
    | .error payload =>
      if caught then
        observe within
        rest.exec within
      else Exec.throw payload

/-- Whether the calls unwind, when the methods of `holders` hold their drivers in `TIME_DRIVER`, one
over the other. -/
def unwinds (holders : List RuntimeId) (borrowed : Bool) : Calls → Bool
  | .done => false
  | .unwind => true
  | .call rt borrows inner caught rest =>
    (rt ∈ holders && (borrowed || inner.unwinds holders borrows) && !caught) || rest.unwinds holders borrowed

/-- A call of a method is safe if its runtime has its own driver at home, `TIME_DRIVER` is not borrowed
and the closure does not unwind, if its runtime is the innermost holder, or if it is refused for a
borrow of `TIME_DRIVER` while its driver is away. -/
def Safe (holders : List RuntimeId) (borrowed : Bool) : Calls → Prop
  | .done => True
  | .unwind => True
  | .call rt borrows inner caught rest =>
    (if rt ∈ holders then borrowed = true ∨ holders.head? = some rt ∧ inner.Safe holders borrows
      else borrowed = false ∧ inner.Safe (rt :: holders) borrows ∧
        inner.unwinds (rt :: holders) borrows = false) ∧
      ((rt ∈ holders && (borrowed || inner.unwinds holders borrows) && !caught) = true ∨
        rest.Safe holders borrowed)

end Calls

/-- The methods of `holders` hold their drivers in `TIME_DRIVER`, one over the other. -/
structure Placed (holders : List RuntimeId) (borrowed : Bool) (s : Watched) : Prop where
  timeDriver : s.timeDriver = holders.head?
  cells : ∀ rt, (s.runtimes rt).timeDriver = if rt ∈ holders then none else some rt
  borrowed : s.borrowed = borrowed

section Growth

def Grows (s t : Watched) : Prop := s.world <+: t.world

instance : Std.Refl Grows := ⟨fun s => List.prefix_refl s.world⟩

instance : IsTrans Watched Grows := ⟨fun _ _ _ => List.IsPrefix.trans⟩

theorem Grows.of_same {s t : Watched} (same : t.world = s.world) : Grows s t := by
  rw [Grows, same]

theorem Grows.noted (s : Watched) (observation : Observation) : Grows s (s.note observation) :=
  List.prefix_append _ _

variable {B : Type} {f : Act (List Observation) Unit B}

theorem withCurrent_grows (grows : Keeps Grows f) : Keeps Grows (TimeContext.withCurrent fun _ => f) := by
  intro s
  unfold TimeContext.withCurrent
  split
  next => exact refl_of Grows s
  next =>
    split
    next => exact refl_of Grows s
    next =>
      have during : Grows s (f { s with borrowed := true }).2 := grows { s with borrowed := true }
      rcases ended : f { s with borrowed := true } with ⟨value | payload | _, t⟩ <;>
        rw [ended] at during <;> simpa [Exec.guarded, ended, Grows] using during

theorem giveBack_grows (rt : RuntimeId) (otherDriver : Option DriverId) :
    Keeps Grows (BasicScheduler.giveBack rt otherDriver) := fun t =>
  .of_same (BasicScheduler.giveBack_same rt otherDriver t).2

theorem withTime_grows (rt : RuntimeId) (grows : Keeps Grows f) :
    Keeps Grows (BasicScheduler.withTime rt f) := by
  intro s
  cases borrowed : s.borrowed with
  | true =>
    cases home : (s.runtimes rt).timeDriver with
    | none =>
      rw [BasicScheduler.withTime_unavailable f home borrowed]
      exact refl_of Grows s
    | some driver =>
      rw [BasicScheduler.withTime_lost f home borrowed]
      exact .of_same rfl
  | false =>
    cases home : (s.runtimes rt).timeDriver with
    | none =>
      cases set : s.timeDriver with
      | none =>
        rw [BasicScheduler.withTime_missing f home borrowed set]
        exact refl_of Grows s
      | some driver =>
        rw [BasicScheduler.withTime_reused f home borrowed set]
        exact grows s
    | some driver =>
      rw [BasicScheduler.withTime_swapped f home borrowed]
      have swapped : Grows s (s.swapIn rt driver) := .of_same rfl
      refine trans_of Grows swapped (Keeps.bind grows (fun value => ?_) (s.swapIn rt driver))
      exact Keeps.bind (giveBack_grows rt s.timeDriver) fun _ => Keeps.pure value

theorem observe_grows (rt : Option RuntimeId) : Keeps Grows (Calls.observe rt) := by
  refine Keeps.modify fun s => ?_
  cases rt with
  | none => exact refl_of Grows s
  | some rt => exact .noted s _

theorem closure_grows (rt : RuntimeId) (borrows : Bool) {inner : Act (List Observation) Unit Unit}
    (grows : Keeps Grows inner) : Keeps Grows (Calls.closure rt borrows inner) := by
  refine Keeps.bind (observe_grows (some rt)) fun _ => ?_
  cases borrows with
  | true => exact withCurrent_grows grows
  | false => exact grows

theorem exec_grows (calls : Calls) (within : Option RuntimeId) : Keeps Grows (calls.exec within) := by
  induction calls generalizing within with
  | done => exact Keeps.pure ()
  | unwind => exact Keeps.throw _
  | call rt borrows inner caught rest innerGrows restGrows =>
    have resume : Keeps Grows (do
        Calls.observe within
        rest.exec within) := Keeps.bind (observe_grows within) fun _ => restGrows within
    refine Keeps.bind Keeps.get fun entry =>
      Keeps.bind (withTime_grows rt (closure_grows rt borrows (innerGrows (some rt)))).catchUnwind fun result =>
        Keeps.bind (Keeps.modify fun exit => .noted exit _) fun _ => ?_
    cases result with
    | ok _ => exact resume
    | error payload =>
      cases caught with
      | true => exact resume
      | false => exact Keeps.throw payload

end Growth

section Placing

variable {holders : List RuntimeId} {borrowed borrows : Bool} {rt : RuntimeId} {s t : Watched}
  {inner : Act (List Observation) Unit Unit}

theorem Placed.note (placed : Placed holders borrowed s) (observation : Observation) :
    Placed holders borrowed (s.note observation) :=
  ⟨placed.timeDriver, placed.cells, placed.borrowed⟩

theorem Placed.borrow (placed : Placed holders borrowed s) (borrowed' : Bool) :
    Placed holders borrowed' { s with borrowed := borrowed' } :=
  ⟨placed.timeDriver, placed.cells, rfl⟩

theorem Placed.places_eq (before : Placed holders borrowed s) (after : Placed holders borrowed t) :
    t.places = s.places := by
  simp only [places, before.timeDriver, after.timeDriver, before.cells, after.cells]

theorem Placed.swapIn (placed : Placed holders borrowed s) (rt : RuntimeId) :
    Placed (rt :: holders) borrowed (s.swapIn rt rt) where
  timeDriver := rfl
  cells other := by
    by_cases own : other = rt
    · subst own
      simp [Thread.swapIn]
    · simp [Thread.swapIn, own, placed.cells]
  borrowed := placed.borrowed

theorem Placed.giveBack (placed : Placed (rt :: holders) false t) (fresh : rt ∉ holders) :
    ∃ u, BasicScheduler.giveBack rt holders.head? t = (.returned (), u) ∧ Placed holders false u ∧
      u.world = t.world := by
  have back : ∃ u, BasicScheduler.giveBack rt holders.head? t = (.returned (), u) ∧
      u = { t.update rt fun b => { b with timeDriver := some rt } with timeDriver := holders.head? } := by
    have set : t.timeDriver = some rt := placed.timeDriver
    cases holders.head? <;>
      simp [BasicScheduler.giveBack, bind_apply, TimeContext.swapContext, TimeContext.unsetContext,
        placed.borrowed, set, TimeContext.setCell, updateRuntime, Thread.update]
  obtain ⟨u, given, rfl⟩ := back
  refine ⟨_, given, ⟨rfl, fun other => ?_, placed.borrowed⟩, rfl⟩
  by_cases own : other = rt
  · subst own
    simp [fresh]
  · simpa [own] using placed.cells other

theorem Placed.timed_fresh (placed : Placed holders false s) (fresh : rt ∉ holders) :
    BasicScheduler.timed rt s = s.swapIn rt rt := by
  simp [BasicScheduler.timed, placed.cells, fresh]

theorem Placed.reached (placed : Placed holders false s) (rt : RuntimeId) : BasicScheduler.Timed rt s := by
  refine ⟨placed.borrowed, ?_⟩
  by_cases held : rt ∈ holders
  · cases holders with
    | nil => simp at held
    | cons holder rest => exact .inr (by simp [placed.timeDriver])
  · exact .inl (by simp [placed.cells, held])

def begun (rt : RuntimeId) (borrows : Bool) (s : Watched) : Watched :=
  { s.note (.inside rt s.timeDriver) with borrowed := borrows }

theorem Placed.begun (placed : Placed holders false s) (rt : RuntimeId) (borrows : Bool) :
    Placed holders borrows (begun rt borrows s) :=
  (placed.note _).borrow borrows

theorem closure_eq (inner : Act (List Observation) Unit Unit) {driver : DriverId}
    (set : s.timeDriver = some driver) (free : s.borrowed = false) (borrows : Bool) :
    Calls.closure rt borrows inner s =
      if borrows then Exec.guarded id (fun _ t => { t with borrowed := false }) inner (begun rt true s)
      else inner (begun rt false s) := by
  cases borrows with
  | true =>
    simp [Calls.closure, Calls.observe, bind_apply, TimeContext.withCurrent, Thread.note, free, set,
      Osaka.begun, Exec.guarded]
  | false =>
    simp [Calls.closure, Calls.observe, bind_apply, Thread.note, Osaka.begun, free]

end Placing

section Specs

variable {holders : List RuntimeId} {borrowed borrows escapes : Bool} {rt : RuntimeId} {s t : Watched}
  {inner : Act (List Observation) Unit Unit} {r : Exit Panic Unit × Watched}

def Exits (escapes : Bool) (exit : Exit Panic Unit) : Prop :=
  if escapes then ∃ payload, exit = .unwound payload else exit = .returned ()

theorem Exits.not_running (exits : Exits escapes .running) : False := by
  cases escapes <;> simp [Exits] at exits

/-- All is as it should be, and the drivers are back where they were. -/
structure Fine (holders : List RuntimeId) (borrowed escapes : Bool) (s : Watched)
    (r : Exit Panic Unit × Watched) : Prop where
  exits : Exits escapes r.1
  placed : Placed holders borrowed r.2
  observed : ∃ log, r.2.world = s.world ++ log ∧ ∀ observation ∈ log, observation.Right

def Wrong (t : Watched) : Prop := ∃ observation ∈ t.world, ¬observation.Right

theorem Wrong.grows (wrong : Wrong s) (grows : Grows s t) : Wrong t := by
  obtain ⟨observation, member, wrong⟩ := wrong
  exact ⟨observation, grows.mem member, wrong⟩

theorem Wrong.of_world (wrong : Wrong s) (same : t.world = s.world) : Wrong t :=
  wrong.grows (.of_same same)

theorem Fine.after (fine : Fine holders borrowed escapes t r) {log : List Observation}
    (world : t.world = s.world ++ log) (right : ∀ observation ∈ log, observation.Right) :
    Fine holders borrowed escapes s r := by
  obtain ⟨later, grown, right'⟩ := fine.observed
  refine ⟨fine.exits, fine.placed, log ++ later, by rw [grown, world, List.append_assoc], ?_⟩
  intro observation member
  rcases List.mem_append.mp member with member | member
  · exact right observation member
  · exact right' observation member

theorem closure_fine (placed : Placed holders false s) (held : holders.head? = some rt)
    (fine : Fine holders borrows escapes (begun rt borrows s) (inner (begun rt borrows s))) :
    Fine holders false escapes s (Calls.closure rt borrows inner s) := by
  have set : s.timeDriver = some rt := placed.timeDriver.trans held
  have seen : (begun rt borrows s).world = s.world ++ [.inside rt s.timeDriver] := rfl
  have right : ∀ observation ∈ [Observation.inside rt s.timeDriver], observation.Right := by
    simp [Observation.Right, set]
  have whole := fine.after seen right
  rw [closure_eq inner set placed.borrowed borrows]
  cases borrows with
  | false => exact whole
  | true =>
    rcases ended : inner (begun rt true s) with ⟨value | payload | _, t⟩ <;> rw [ended] at whole
    · simp only [if_true, Exec.guarded, id, ended]
      exact ⟨whole.exits, whole.placed.borrow false, whole.observed⟩
    · simp only [if_true, Exec.guarded, id, ended]
      exact ⟨whole.exits, whole.placed.borrow false, whole.observed⟩
    · exact whole.exits.not_running.elim

theorem closure_wrong (placed : Placed holders false s) (held : holders.head? = some rt)
    (wrong : Wrong (inner (begun rt borrows s)).2) : Wrong (Calls.closure rt borrows inner s).2 := by
  have set : s.timeDriver = some rt := placed.timeDriver.trans held
  rw [closure_eq inner set placed.borrowed borrows]
  cases borrows with
  | false => exact wrong
  | true =>
    rcases ended : inner (begun rt true s) with ⟨value | payload | _, t⟩ <;> rw [ended] at wrong <;>
      simp only [if_true, Exec.guarded, id, ended] <;> exact wrong.of_world rfl

/-- The method of a runtime whose driver is not in `TIME_DRIVER` now sees the wrong one. -/
theorem closure_displaced (placed : Placed holders false s) (displaced : holders.head? ≠ some rt)
    (grows : Keeps Grows inner) : Wrong (Calls.closure rt borrows inner s).2 := by
  have noted : Wrong (s.note (.inside rt s.timeDriver)) := by
    refine ⟨.inside rt s.timeDriver, by simp [Thread.note], ?_⟩
    rw [placed.timeDriver]
    exact displaced
  refine noted.grows ?_
  have after : Keeps Grows (if borrows then TimeContext.withCurrent fun _ => inner else inner) := by
    cases borrows with
    | true => exact withCurrent_grows grows
    | false => exact grows
  exact after (s.note (.inside rt s.timeDriver))

def Misplaced (s : Watched) (r : Exit Panic Unit × Watched) : Prop :=
  ∃ payload, r.1 = .unwound payload ∧ r.2.places ≠ s.places

structure Judged (calls : Calls) (holders : List RuntimeId) (borrowed : Bool) : Prop where
  fine : ∀ s, Placed holders borrowed s → calls.Safe holders borrowed →
    Fine holders borrowed (calls.unwinds holders borrowed) s (calls.exec holders.head? s)
  wrong : ∀ s, Placed holders borrowed s → ¬calls.Safe holders borrowed →
    Wrong (calls.exec holders.head? s).2

def method (rt : RuntimeId) (borrows : Bool) (inner : Calls) : Act (List Observation) Unit Unit :=
  BasicScheduler.withTime rt (Calls.closure rt borrows (inner.exec (some rt)))

def SafeCall (holders : List RuntimeId) (borrowed : Bool) (rt : RuntimeId) (borrows : Bool) (inner : Calls) :
    Prop :=
  if rt ∈ holders then borrowed = true ∨ holders.head? = some rt ∧ inner.Safe holders borrows
  else borrowed = false ∧ inner.Safe (rt :: holders) borrows ∧
    inner.unwinds (rt :: holders) borrows = false

theorem method_fresh {calls : Calls} (judged : Judged calls (rt :: holders) borrows)
    (placed : Placed holders false s) (fresh : rt ∉ holders) (safe : calls.Safe (rt :: holders) borrows)
    (returns : calls.unwinds (rt :: holders) borrows = false) :
    Fine holders false false s (method rt borrows calls s) := by
  have home : (s.runtimes rt).timeDriver = some rt := by simp [placed.cells, fresh]
  have swapped := placed.swapIn rt
  have inside := closure_fine swapped rfl (judged.fine _ (swapped.begun rt borrows) safe)
  rw [method, BasicScheduler.withTime_swapped _ home placed.borrowed, placed.timeDriver]
  rw [returns] at inside
  rcases ended : Calls.closure rt borrows (calls.exec (some rt)) (s.swapIn rt rt) with ⟨exit, t⟩
  rw [List.head?_cons, ended] at inside
  have exits : exit = .returned () := by simpa [Exits] using inside.exits
  subst exits
  obtain ⟨u, given, back, world⟩ := inside.placed.giveBack fresh
  rw [bind_returned ended, bind_returned given]
  obtain ⟨log, grown, right⟩ := inside.observed
  exact ⟨rfl, back, log, world.trans grown, right⟩

theorem method_fresh_unwinds {calls : Calls} (judged : Judged calls (rt :: holders) borrows)
    (placed : Placed holders false s) (fresh : rt ∉ holders) (safe : calls.Safe (rt :: holders) borrows)
    (unwinds : calls.unwinds (rt :: holders) borrows = true) :
    Misplaced s (method rt borrows calls s) := by
  have home : (s.runtimes rt).timeDriver = some rt := by simp [placed.cells, fresh]
  have swapped := placed.swapIn rt
  have inside := closure_fine swapped rfl (judged.fine _ (swapped.begun rt borrows) safe)
  rw [method, BasicScheduler.withTime_swapped _ home placed.borrowed]
  rw [unwinds] at inside
  rcases ended : Calls.closure rt borrows (calls.exec (some rt)) (s.swapIn rt rt) with ⟨exit, t⟩
  rw [List.head?_cons, ended] at inside
  obtain ⟨payload, exits⟩ : ∃ payload, exit = .unwound payload := by simpa [Exits] using inside.exits
  subst exits
  rw [bind_unwound ended]
  refine ⟨payload, rfl, fun same => ?_⟩
  have cell := congrArg (fun p : Places => p.cells rt) same
  have away : (t.runtimes rt).timeDriver = none := by simpa using inside.placed.cells rt
  simp [places, home, away] at cell

theorem method_fresh_wrong {calls : Calls} (judged : Judged calls (rt :: holders) borrows)
    (placed : Placed holders false s) (fresh : rt ∉ holders) (bad : ¬calls.Safe (rt :: holders) borrows) :
    Wrong (method rt borrows calls s).2 := by
  have swapped := placed.swapIn rt
  have inside := closure_wrong swapped rfl (judged.wrong _ (swapped.begun rt borrows) bad)
  refine inside.of_world ?_
  rw [← placed.timed_fresh fresh]
  exact BasicScheduler.withTime_look (fun t => t.world) _ (placed.reached rt) fun otherDriver t =>
    (BasicScheduler.giveBack_same rt otherDriver t).2

theorem method_held_eq {calls : Calls} (placed : Placed holders false s) (held : rt ∈ holders) :
    method rt borrows calls s = Calls.closure rt borrows (calls.exec (some rt)) s := by
  have away : (s.runtimes rt).timeDriver = none := by simp [placed.cells, held]
  cases holders with
  | nil => simp at held
  | cons holder rest => exact BasicScheduler.withTime_reused _ away placed.borrowed placed.timeDriver

theorem method_fine {calls : Calls} (judged : ∀ holders borrowed, Judged calls holders borrowed)
    (placed : Placed holders borrowed s) (safe : SafeCall holders borrowed rt borrows calls) :
    Fine holders borrowed (rt ∈ holders && (borrowed || calls.unwinds holders borrows)) s
      (method rt borrows calls s) := by
  by_cases held : rt ∈ holders
  · simp only [SafeCall, if_pos held] at safe
    cases borrowed with
    | true =>
      have away : (s.runtimes rt).timeDriver = none := by simp [placed.cells, held]
      rw [method, BasicScheduler.withTime_unavailable _ away placed.borrowed]
      exact ⟨by simp [Exits, held], placed, [], by simp, by simp⟩
    | false =>
      obtain ⟨innermost, inner⟩ := safe.resolve_left nofun
      have fine := (judged holders borrows).fine _ (placed.begun rt borrows) inner
      rw [innermost] at fine
      rw [method_held_eq placed held]
      simpa [held] using closure_fine placed innermost fine
  · simp only [SafeCall, if_neg held] at safe
    obtain ⟨rfl, inner, returns⟩ := safe
    simpa [held] using method_fresh (judged (rt :: holders) borrows) placed held inner returns

theorem method_wrong {calls : Calls} (judged : ∀ holders borrowed, Judged calls holders borrowed)
    (placed : Placed holders borrowed s) (bad : ¬SafeCall holders borrowed rt borrows calls) :
    Wrong (method rt borrows calls s).2 ∨ Misplaced s (method rt borrows calls s) := by
  by_cases held : rt ∈ holders
  · simp only [SafeCall, if_pos held, not_or, Bool.not_eq_true] at bad
    obtain ⟨rfl, bad⟩ := bad
    left
    rw [method_held_eq placed held]
    by_cases innermost : holders.head? = some rt
    · have inner : ¬calls.Safe holders borrows := fun safe => bad ⟨innermost, safe⟩
      have wrong := (judged holders borrows).wrong _ (placed.begun rt borrows) inner
      rw [innermost] at wrong
      exact closure_wrong placed innermost wrong
    · exact closure_displaced placed innermost (exec_grows calls (some rt))
  · simp only [SafeCall, if_neg held] at bad
    cases borrowed with
    | true =>
      have home : (s.runtimes rt).timeDriver = some rt := by simp [placed.cells, held]
      right
      rw [method, BasicScheduler.withTime_lost _ home placed.borrowed]
      refine ⟨_, rfl, fun same => ?_⟩
      have cell := congrArg (fun p : Places => p.cells rt) same
      simp [places, home] at cell
    | false =>
      by_cases inner : calls.Safe (rt :: holders) borrows
      · have unwinds : calls.unwinds (rt :: holders) borrows = true := by
          by_contra returns
          exact bad ⟨rfl, inner, by simpa using returns⟩
        exact .inr (method_fresh_unwinds (judged (rt :: holders) borrows) placed held inner unwinds)
      · exact .inl (method_fresh_wrong (judged (rt :: holders) borrows) placed held inner)

end Specs

section Bracket

variable {holders : List RuntimeId} {borrowed borrows caught : Bool} {rt : RuntimeId} {s t : Watched}
  {within : Option RuntimeId} {inner rest : Calls}

def resume (within : Option RuntimeId) (rest : Calls) : Act (List Observation) Unit Unit := do
  Calls.observe within
  rest.exec within

def leaving (s t : Watched) : Watched := t.note (.left s.places t.places)

theorem call_returned (ended : method rt borrows inner s = (.returned (), t)) :
    (Calls.call rt borrows inner caught rest).exec within s = resume within rest (leaving s t) := by
  have caughtNothing : (method rt borrows inner).catchUnwind s = (.returned (.ok ()), t) := by
    simp [Exec.catchUnwind, ended]
  refine (bind_returned rfl).trans ((bind_returned caughtNothing).trans ((bind_returned rfl).trans ?_))
  rfl

theorem call_unwound {payload : Panic} (ended : method rt borrows inner s = (.unwound payload, t)) :
    (Calls.call rt borrows inner caught rest).exec within s =
      if caught then resume within rest (leaving s t) else (.unwound payload, leaving s t) := by
  have caughtPanic : (method rt borrows inner).catchUnwind s = (.returned (.error payload), t) := by
    simp [Exec.catchUnwind, ended]
  refine (bind_returned rfl).trans ((bind_returned caughtPanic).trans ((bind_returned rfl).trans ?_))
  cases caught <;> rfl

theorem resume_grows (within : Option RuntimeId) (rest : Calls) : Keeps Grows (resume within rest) :=
  Keeps.bind (observe_grows within) fun _ => exec_grows rest within

theorem call_keeps (s : Watched) :
    Grows (method rt borrows inner s).2 ((Calls.call rt borrows inner caught rest).exec within s).2 := by
  rcases ended : method rt borrows inner s with ⟨value | payload | _, t⟩
  · rw [call_returned ended]
    exact trans_of Grows (Grows.noted t _) (resume_grows within rest _)
  · rw [call_unwound ended]
    cases caught with
    | true => exact trans_of Grows (Grows.noted t _) (resume_grows within rest _)
    | false => exact Grows.noted t _
  · have stopped : (method rt borrows inner).catchUnwind s = (.running, t) := by
      simp [Exec.catchUnwind, ended]
    have whole : (Calls.call rt borrows inner caught rest).exec within s = (.running, t) :=
      (bind_returned rfl).trans (bind_running stopped)
    rw [whole]
    exact refl_of Grows t

theorem call_misplaced (misplaced : Misplaced s (method rt borrows inner s)) :
    Wrong ((Calls.call rt borrows inner caught rest).exec within s).2 := by
  obtain ⟨payload, unwound, moved⟩ := misplaced
  rcases ended : method rt borrows inner s with ⟨exit, t⟩
  rw [ended] at unwound moved
  obtain rfl : exit = .unwound payload := unwound
  have seen : Wrong (leaving s t) := ⟨.left s.places t.places, by simp [leaving, Thread.note], moved⟩
  rw [call_unwound ended]
  cases caught with
  | true => exact seen.grows (resume_grows within rest _)
  | false => exact seen

theorem leaving_fine {log : List Observation} (before : Placed holders borrowed s)
    (after : Placed holders borrowed t) (grown : t.world = s.world ++ log)
    (right : ∀ observation ∈ log, observation.Right) :
    Placed holders borrowed (leaving s t) ∧ ∃ log, (leaving s t).world = s.world ++ log ∧
      ∀ observation ∈ log, observation.Right := by
  refine ⟨after.note _, log ++ [.left s.places t.places], by simp [leaving, Thread.note, grown], ?_⟩
  intro observation member
  rcases List.mem_append.mp member with member | member
  · exact right observation member
  · obtain rfl := List.mem_singleton.mp member
    exact before.places_eq after

theorem resume_fine (judged : Judged rest holders borrowed) (placed : Placed holders borrowed s)
    (safe : rest.Safe holders borrowed) :
    Fine holders borrowed (rest.unwinds holders borrowed) s (resume holders.head? rest s) := by
  cases innermost : holders.head? with
  | none =>
    have fine := judged.fine s placed safe
    rw [innermost] at fine
    exact fine
  | some rt =>
    have fine := judged.fine _ (placed.note (.inside rt s.timeDriver)) safe
    rw [innermost] at fine
    have seen : (s.note (.inside rt s.timeDriver)).world = s.world ++ [.inside rt s.timeDriver] := rfl
    refine fine.after seen ?_
    simp [Observation.Right, placed.timeDriver, innermost]

theorem resume_wrong (judged : Judged rest holders borrowed) (placed : Placed holders borrowed s)
    (bad : ¬rest.Safe holders borrowed) : Wrong (resume holders.head? rest s).2 := by
  cases innermost : holders.head? with
  | none =>
    have wrong := judged.wrong s placed bad
    rwa [innermost] at wrong
  | some rt =>
    have wrong := judged.wrong _ (placed.note (.inside rt s.timeDriver)) bad
    rwa [innermost] at wrong

theorem call_cases {escapes : Bool} (within : Option RuntimeId) (caught : Bool) (rest : Calls)
    (before : Placed holders borrowed s) (fine : Fine holders borrowed escapes s (method rt borrows inner s)) :
    ∃ u, Placed holders borrowed u ∧ (∃ log, u.world = s.world ++ log ∧
        ∀ observation ∈ log, observation.Right) ∧
      ((escapes && !caught) = true ∧ (∃ payload,
          (Calls.call rt borrows inner caught rest).exec within s = (.unwound payload, u)) ∨
        (escapes && !caught) = false ∧
          (Calls.call rt borrows inner caught rest).exec within s = resume within rest u) := by
  obtain ⟨log, grown, right⟩ := fine.observed
  rcases ended : method rt borrows inner s with ⟨exit, t⟩
  rw [ended] at fine grown
  obtain ⟨back, observed⟩ := leaving_fine before fine.placed grown right
  refine ⟨leaving s t, back, observed, ?_⟩
  cases escapes with
  | false =>
    obtain rfl : exit = .returned () := fine.exits
    exact .inr ⟨rfl, call_returned ended⟩
  | true =>
    obtain ⟨payload, rfl⟩ : ∃ payload, exit = .unwound payload := fine.exits
    have continues : (Calls.call rt borrows inner caught rest).exec within s = _ := call_unwound ended
    cases caught with
    | true => exact .inr ⟨rfl, continues⟩
    | false => exact .inl ⟨rfl, payload, continues⟩

theorem judged (calls : Calls) (holders : List RuntimeId) (borrowed : Bool) :
    Judged calls holders borrowed := by
  induction calls generalizing holders borrowed with
  | done =>
    exact ⟨fun s placed _ => ⟨rfl, placed, [], by simp [Calls.exec], by simp⟩,
      fun _ _ bad => absurd trivial bad⟩
  | unwind =>
    exact ⟨fun s placed _ => ⟨⟨_, rfl⟩, placed, [], by simp [Calls.exec], by simp⟩,
      fun _ _ bad => absurd trivial bad⟩
  | call rt borrows inner caught rest innerJudged restJudged =>
    constructor
    · rintro s placed ⟨safe, remaining⟩
      obtain ⟨u, back, ⟨log, grown, right⟩, ⟨escapes, payload, ended⟩ | ⟨stays, ended⟩⟩ :=
        call_cases holders.head? caught rest placed (method_fine innerJudged placed safe)
      · rw [ended, Calls.unwinds, escapes]
        exact ⟨⟨payload, rfl⟩, back, log, grown, right⟩
      · rw [stays] at remaining
        rw [ended, Calls.unwinds, stays]
        have later := remaining.resolve_left nofun
        exact (resume_fine (restJudged holders borrowed) back later).after grown right
    · intro s placed bad
      by_cases safe : SafeCall holders borrowed rt borrows inner
      · have remaining := fun later => bad ⟨safe, later⟩
        obtain ⟨u, back, _, ⟨escapes, payload, ended⟩ | ⟨stays, ended⟩⟩ :=
          call_cases holders.head? caught rest placed (method_fine innerJudged placed safe)
        · exact absurd (.inl escapes) remaining
        · rw [ended]
          exact resume_wrong (restJudged holders borrowed) back fun later => remaining (.inr later)
      · rcases method_wrong innerJudged placed safe with wrong | misplaced
        · exact wrong.grows (call_keeps s)
        · exact call_misplaced misplaced

end Bracket

/-- The time drivers are where they should be in every call, and after it, if and only if the calls are
safe. -/
theorem drivers_bracketed_iff (calls : Calls) (s : Watched) (start : Placed [] false s)
    (unobserved : s.world = []) :
    (∀ observation ∈ (calls.exec none s).2.world, observation.Right) ↔ calls.Safe [] false := by
  constructor
  · intro right
    by_contra bad
    obtain ⟨observation, member, wrong⟩ := (judged calls [] false).wrong s start bad
    exact wrong (right observation member)
  · intro safe
    obtain ⟨log, grown, right⟩ := ((judged calls [] false).fine s start safe).observed
    rw [List.head?_nil, unobserved, List.nil_append] at grown
    rwa [grown]

def idle : Watched :=
  { world := []
    now := .ofNanos 0
    context := none
    guards := fun _ => none
    entered := .notEntered
    current := none
    timeDriver := none
    borrowed := false
    drivers := fun _ => Time.TimeDriver.new
    runtimes := BasicScheduler.new
    trace := [] }

theorem idle_placed : Placed [] false idle := ⟨rfl, fun _ => rfl, rfl⟩

/-- A task of runtime 0 calls into runtime 1, and the method of runtime 0 ends. -/
theorem drivers_bracketed_iff_nested :
    (∀ observation ∈ ((Calls.call 0 false (.call 1 true .done true .done) false .done).exec none idle).2.world,
        observation.Right) ↔
      (Calls.call 0 false (.call 1 true .done true .done) false .done).Safe [] false :=
  drivers_bracketed_iff _ idle idle_placed rfl

/-- `block_on` panics on a deadlock, and the host catches it. -/
def deadlocked : Calls := .call 0 false .unwind true .done

def Observation.timeDrivers : Observation → Option DriverId × Option DriverId
  | .inside rt timeDriver => (some rt, timeDriver)
  | .left entry exit => (entry.timeDriver, exit.timeDriver)

theorem Observation.Right.timeDrivers {observation : Observation} (right : observation.Right) :
    observation.timeDrivers.1 = observation.timeDrivers.2 := by
  cases observation with
  | inside rt timeDriver => exact right.symm
  | left entry exit => exact congrArg Places.timeDriver right.symm

theorem deadlocked_observed : (deadlocked.exec none idle).2.world.map Observation.timeDrivers =
    [(some 0, some 0), (none, some 0)] := by decide +kernel

theorem driver_left_behind :
    ¬∀ (calls : Calls) (s : Watched), Placed [] false s → s.world = [] →
      ∀ observation ∈ (calls.exec none s).2.world, observation.Right := by
  intro right
  have equal : ∀ pair ∈ (deadlocked.exec none idle).2.world.map Observation.timeDrivers,
      pair.1 = pair.2 := by
    intro pair member
    obtain ⟨observation, seen, rfl⟩ := List.mem_map.mp member
    exact (right deadlocked idle idle_placed rfl observation seen).timeDrivers
  rw [deadlocked_observed] at equal
  simpa using equal (none, some 0)

/-- A task of runtime 0 calls into runtime 1, which calls back into runtime 0: it sees the driver of
runtime 1. -/
example : ((Calls.call 0 false (.call 1 false (.call 0 false .done true .done) true .done) true .done).exec
    none idle).2.world.map Observation.timeDrivers =
      [(some 0, some 0), (some 1, some 1), (some 0, some 1), (some 1, some 1), (some 1, some 1),
        (some 0, some 0), (some 0, some 0), (none, none)] := by decide +kernel

end Osaka
