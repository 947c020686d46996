import Mathlib.Data.List.Count
import Mathlib.Logic.Function.Basic
import Osaka.Shared.Unwind

set_option autoImplicit false

namespace Osaka.TaskLocal

open Unwind Unwind.Exec

variable {K F T A B : Type}

structure TaskLocalFuture (K T : Type) where
  key : K
  slot : Option T

inductive Panic where
  | user
  -- a key is replaced while it is borrowed
  | borrowed
  -- `with` outside of all scopes of its key
  | access
  deriving DecidableEq

/-- What a program sees of its keys: the value in a `try_with`, the slot of a future after a poll, and the thread's
values before and after a scope, with the panic by which it was left. -/
inductive Observation (K F T : Type) where
  | saw (key : K) (value innermost : Option T)
  | polled (future : F) (slot : Option T)
  | left (entry exit : K → Option T) (payload : Option Panic)

structure Locals (K F T : Type) where
  -- the keys' `RefCell`s, with how often each is borrowed
  cells : K → Option T
  borrows : K → Nat
  futures : F → TaskLocalFuture K T
  -- a destructor has panicked
  aborted : Bool
  trace : List (Observation K F T)

abbrev Act (K F T A : Type) := Exec (Locals K F T) Panic A

-- `LocalKey::scope`
def scope (key : K) (value : T) : TaskLocalFuture K T := ⟨key, some value⟩

section Source

variable [DecidableEq K] [DecidableEq F]

namespace Locals

/-- `RefCell::replace`. `none` is its panic. -/
def replace (self : Locals K F T) (key : K) (value : Option T) : Option (Option T × Locals K F T) :=
  if self.borrows key = 0 then
    some (self.cells key, { self with cells := Function.update self.cells key value })
  else none

def borrow (self : Locals K F T) (key : K) : Locals K F T :=
  { self with borrows := Function.update self.borrows key (self.borrows key + 1) }

def release (self : Locals K F T) (key : K) : Locals K F T :=
  { self with borrows := Function.update self.borrows key (self.borrows key - 1) }

def setSlot (self : Locals K F T) (future : F) (slot : Option T) : Locals K F T :=
  { self with futures := Function.update self.futures future { self.futures future with slot := slot } }

def note (self : Locals K F T) (observations : List (Observation K F T)) : Locals K F T :=
  { self with trace := self.trace ++ observations }

end Locals

/-- Where a `TaskLocalFuture` is: in a task, or pinned by a call of `sync_scope`. -/
inductive Place (K F T : Type) where
  | owned (future : F)
  | pinned (scope : TaskLocalFuture K T)

namespace Place

def read (s : Locals K F T) : Place K F T → TaskLocalFuture K T
  | .owned future => s.futures future
  | .pinned scope => scope

def write (s : Locals K F T) (slot : Option T) : Place K F T → Locals K F T
  | .owned future => s.setSlot future slot
  | .pinned _ => s

end Place

structure Guard (K F T : Type) where
  key : K
  place : Place K F T
  prev : Option T

def Guard.drop (self : Guard K F T) (s : Locals K F T) : Locals K F T :=
  match s.replace self.key self.prev with
  | some (value, s) => self.place.write s value
  | none => { s with aborted := true }

def withTask (place : Place K F T) (f : Act K F T A) : Act K F T A := do
  let { key, slot := val } := place.read (← Exec.get)
  Exec.modify fun s => place.write s none
  match (← Exec.get).replace key val with
  | none => Exec.throw .borrowed
  | some (prev, swapped) => guarded (fun _ => swapped) (fun _ s => Guard.drop ⟨key, place, prev⟩ s) f

def TaskLocalFuture.poll (future : F) (f : Act K F T A) : Act K F T A := withTask (.owned future) f

def syncScope (key : K) (value : T) (f : Act K F T A) : Act K F T A := withTask (.pinned (scope key value)) f

/-- `none` is the `AccessError`. -/
def tryWith (key : K) (f : T → Act K F T A) : Act K F T (Option A) := do
  match (← Exec.get).cells key with
  | some val => guarded (fun s => s.borrow key) (fun _ s => s.release key) (f val >>= fun result => pure (some result))
  | none => pure none

end Source

/-- What runs on the thread: accesses of keys and scopes, as they follow each other and nest. -/
inductive Code (K F T : Type) where
  | done
  | unwind
  | catchUnwind (inner rest : Code K F T)
  -- `try_with`, or `with` where the access is expected to succeed
  | access (key : K) (expected : Bool) (inner rest : Code K F T)
  | syncScope (key : K) (value : T) (inner rest : Code K F T)
  | poll (future : F) (inner rest : Code K F T)

namespace Code

section Run

variable [DecidableEq K] [DecidableEq F]

def leaving (observe : Locals K F T → List (Observation K F T)) (m : Act K F T Unit) : Act K F T Unit := do
  let entry ← Exec.get
  match ← m.catchUnwind with
  | .ok () => Exec.modify fun exit => exit.note (.left entry.cells exit.cells none :: observe exit)
  | .error payload =>
    Exec.modify fun exit => exit.note (.left entry.cells exit.cells (some payload) :: observe exit)
    Exec.throw payload

/-- The run of the code where `innermost` are the values of the innermost scopes, by their keys. The scope futures
were made by `made`. -/
def exec (made : F → K × T) (innermost : K → Option T) : Code K F T → Act K F T Unit
  | .done => pure ()
  | .unwind => Exec.throw .user
  | .catchUnwind inner rest => do
    let _ ← (inner.exec made innermost).catchUnwind
    rest.exec made innermost
  | .access key expected inner rest => do
    let result ← tryWith key fun val => do
      Exec.modify fun s => s.note [.saw key (some val) (innermost key)]
      inner.exec made innermost
    match result with
    | some () => rest.exec made innermost
    | none =>
      Exec.modify fun s => s.note [.saw key none (innermost key)]
      if expected then Exec.throw .access else rest.exec made innermost
  | .syncScope key value inner rest => do
    leaving (fun _ => [])
      (TaskLocal.syncScope key value (inner.exec made (Function.update innermost key (some value))))
    rest.exec made innermost
  | .poll future inner rest => do
    let (key, value) := made future
    leaving (fun exit => [.polled future (exit.futures future).slot])
      (TaskLocalFuture.poll future (inner.exec made (Function.update innermost key (some value))))
    rest.exec made innermost

end Run

/-- What the code is held to where the futures of `running` are being polled, which are borrowed for it, and `held` are
the keys of the `with` closures around it. -/
def Allowed (made : F → K × T) (running : List F) (held : List K) : Code K F T → Prop
  | .done | .unwind => True
  | .catchUnwind inner rest => inner.Allowed made running held ∧ rest.Allowed made running held
  | .access key _ inner rest => inner.Allowed made running (key :: held) ∧ rest.Allowed made running held
  | .syncScope key _ inner rest => key ∉ held ∧ inner.Allowed made running held ∧ rest.Allowed made running held
  | .poll future inner rest => (made future).1 ∉ held ∧ future ∉ running ∧
    inner.Allowed made (future :: running) held ∧ rest.Allowed made running held

end Code

/-- The value seen is that of the innermost scope, a future has its own value, and a scope leaves no trace and is
never refused for a borrow. -/
def Observation.Right (made : F → K × T) : Observation K F T → Prop
  | .saw _ value innermost => value = innermost
  | .polled future slot => slot = some (made future).2
  | .left entry exit payload => exit = entry ∧ payload ≠ some .borrowed

/-- The thread between the calls, while the futures of `running` are polled and the keys of `held` are borrowed. -/
structure Fits [DecidableEq K] (made : F → K × T) (running : List F) (held : List K) (innermost : K → Option T)
    (s : Locals K F T) : Prop where
  cells : s.cells = innermost
  borrows : ∀ key, s.borrows key = held.count key
  futures : ∀ future, future ∉ running → s.futures future = scope (made future).1 (made future).2

def Orderly : Exit Panic A → Prop
  | .returned _ => True
  | .unwound payload => payload ≠ .borrowed
  | .running => False

/-- Whatever `m` runs, it changes nothing but what has been observed, which is right, and what it returns is as
said. -/
def Yields (made : F → K × T) (m : Act K F T A) (s : Locals K F T) (returns : A → Prop) : Prop :=
  ∃ exit observations, Orderly exit ∧ m s = (exit, s.note observations) ∧
    (∀ value, exit = .returned value → returns value) ∧ ∀ seen ∈ observations, seen.Right made

section Rules

variable {made : F → K × T} {s : Locals K F T} {returns : A → Prop} {answers : B → Prop}

@[simp]
theorem note_note (first second : List (Observation K F T)) : (s.note first).note second = s.note (first ++ second) := by
  simp [Locals.note]

@[simp]
theorem note_nil : s.note [] = s := by simp [Locals.note]

theorem Yields.pure {value : A} (holds : returns value) : Yields made (pure value : Act K F T A) s returns := by
  refine ⟨.returned value, [], trivial, by simp, ?_, nofun⟩
  rintro _ ⟨⟩
  exact holds

theorem Yields.throw {payload : Panic} (orderly : payload ≠ .borrowed) :
    Yields made (Exec.throw payload : Act K F T A) s returns :=
  ⟨.unwound payload, [], orderly, by simp, nofun, nofun⟩

theorem Yields.get {next : Locals K F T → Act K F T A} (after : Yields made (next s) s returns) :
    Yields made (Exec.get >>= next) s returns := after

theorem Yields.note {observe : Locals K F T → List (Observation K F T)} (right : ∀ seen ∈ observe s, seen.Right made) :
    Yields made (Exec.modify fun s => s.note (observe s)) s fun _ => True :=
  ⟨.returned (), observe s, trivial, rfl, fun _ _ => trivial, right⟩

theorem Yields.bind {m : Act K F T A} {next : A → Act K F T B} (first : Yields made m s returns)
    (second : ∀ value observations, returns value → Yields made (next value) (s.note observations) answers) :
    Yields made (m >>= next) s answers := by
  obtain ⟨exit, before, ends, ran, holds, right⟩ := first
  cases exit with
  | returned value =>
    obtain ⟨exit, after, ends, ran', holds', right'⟩ := second value before (holds value rfl)
    refine ⟨exit, before ++ after, ends, ?_, holds', ?_⟩
    · rw [bind_returned ran, ran', note_note]
    · intro seen member
      exact (List.mem_append.mp member).elim (right seen) (right' seen)
  | unwound payload => exact ⟨.unwound payload, before, ends, bind_unwound ran, nofun, right⟩
  | running => exact ends.elim

theorem Yields.catchUnwind {m : Act K F T A} (inner : Yields made m s returns) :
    Yields made m.catchUnwind s fun result => result ≠ .error .borrowed := by
  obtain ⟨exit, observations, ends, ran, -, right⟩ := inner
  cases exit with
  | returned value =>
    refine ⟨.returned (.ok value), observations, trivial, by simp [Exec.catchUnwind, ran], ?_, right⟩
    rintro _ ⟨⟩
    simp
  | unwound payload =>
    refine ⟨.returned (.error payload), observations, trivial, by simp [Exec.catchUnwind, ran], ?_, right⟩
    rintro _ ⟨⟩ ⟨⟩
    exact ends rfl
  | running => exact ends.elim

theorem Yields.guarded {m : Act K F T A} {enter : Locals K F T → Locals K F T}
    {leave : Locals K F T → Locals K F T → Locals K F T} {s' : Locals K F T} (inner : Yields made m (enter s') returns)
    (back : ∀ observations, leave s' ((enter s').note observations) = s.note observations) :
    ∃ exit observations, Orderly exit ∧ guarded enter leave m s' = (exit, s.note observations) ∧
      (∀ value, exit = .returned value → returns value) ∧ ∀ seen ∈ observations, seen.Right made := by
  obtain ⟨exit, observations, ends, ran, holds, right⟩ := inner
  refine ⟨exit, observations, ends, ?_, holds, right⟩
  cases exit with
  | returned value => rw [guarded_returned ran, back]
  | unwound payload => rw [guarded_unwound ran, back]
  | running => exact ends.elim

theorem Yields.leaving [DecidableEq K] [DecidableEq F] {m : Act K F T Unit}
    {observe : Locals K F T → List (Observation K F T)} (inner : Yields made m s fun _ => True)
    (right : ∀ observations, ∀ seen ∈ observe (s.note observations), seen.Right made) :
    Yields made (Code.leaving observe m) s fun _ => True := by
  apply Yields.get
  refine inner.catchUnwind.bind fun result observations orderly => ?_
  cases result with
  | ok =>
    refine Yields.note fun seen member => ?_
    rcases List.mem_cons.mp member with rfl | member
    · exact ⟨rfl, nofun⟩
    · exact right observations seen member
  | error payload =>
    have plain : payload ≠ .borrowed := by
      rintro rfl
      exact orderly rfl
    refine (Yields.note fun seen member => ?_).bind fun _ _ _ => Yields.throw plain
    rcases List.mem_cons.mp member with rfl | member
    · exact ⟨rfl, by simpa using plain⟩
    · exact right observations seen member

section Calls

variable [DecidableEq K] [DecidableEq F] {key : K}

omit [DecidableEq F] in
theorem release_borrow (observations : List (Observation K F T)) :
    ((s.borrow key).note observations).release key = s.note observations := by
  simp [Locals.borrow, Locals.release, Locals.note]

omit [DecidableEq F] in
theorem tryWith_yields {f : T → Act K F T A}
    (inner : ∀ value, s.cells key = some value → Yields made (f value) (s.borrow key) fun _ => True) :
    Yields made (tryWith key f) s fun result => result = none → s.cells key = none := by
  apply Yields.get
  cases found : s.cells key with
  | none => exact Yields.pure fun _ => rfl
  | some value =>
    refine Yields.guarded ((inner value found).bind fun _ _ _ => Yields.pure ?_) release_borrow
    exact nofun

def entered (s : Locals K F T) (place : Place K F T) (key : K) (value : T) : Locals K F T :=
  { place.write s none with cells := Function.update s.cells key (some value) }

theorem drop_entered {place : Place K F T} {value : T} (filled : place.read s = scope key value)
    (free : s.borrows key = 0) (observations : List (Observation K F T)) :
    Guard.drop ⟨key, place, s.cells key⟩ ((entered s place key value).note observations) = s.note observations := by
  cases place with
  | owned future =>
    have same : (⟨(s.futures future).key, some value⟩ : TaskLocalFuture K T) = s.futures future := by
      rw [show s.futures future = scope key value from filled]
      rfl
    simp [Guard.drop, Locals.replace, entered, Locals.note, Place.write, Locals.setSlot, free, same]
  | pinned future =>
    simp [Guard.drop, Locals.replace, entered, Locals.note, Place.write, free]

theorem withTask_yields {place : Place K F T} {value : T} {f : Act K F T A}
    (filled : place.read s = scope key value) (free : s.borrows key = 0)
    (inner : Yields made f (entered s place key value) returns) : Yields made (withTask place f) s returns := by
  have swapped : (place.write s none).replace key (some value) = some (s.cells key, entered s place key value) := by
    cases place <;> simp [Locals.replace, Place.write, Locals.setSlot, entered, free]
  have runs : withTask place f s =
      guarded (fun _ => entered s place key value) (fun _ s' => Guard.drop ⟨key, place, s.cells key⟩ s') f
        (place.write s none) := by
    unfold withTask
    rw [bind_returned (get_apply s), filled]
    change (match (place.write s none).replace key (some value) with
      | none => (Exec.throw .borrowed : Act K F T A)
      | some (prev, swapped) =>
        guarded (fun _ => swapped) (fun _ s' => Guard.drop ⟨key, place, prev⟩ s') f) (place.write s none) = _
    rw [swapped]
  unfold Yields
  rw [runs]
  exact Yields.guarded inner (drop_entered filled free)

end Calls

section Run

variable [DecidableEq K] [DecidableEq F] {running : List F} {held : List K} {innermost : K → Option T}

omit [DecidableEq F] in
theorem Fits.note (fits : Fits made running held innermost s) (observations : List (Observation K F T)) :
    Fits made running held innermost (s.note observations) :=
  ⟨fits.cells, fits.borrows, fits.futures⟩

omit [DecidableEq F] in
theorem Fits.free (fits : Fits made running held innermost s) {key : K} (free : key ∉ held) : s.borrows key = 0 := by
  rw [fits.borrows, List.count_eq_zero_of_not_mem free]

omit [DecidableEq F] in
theorem Fits.borrow (fits : Fits made running held innermost s) (key : K) :
    Fits made running (key :: held) innermost (s.borrow key) := by
  refine ⟨fits.cells, fun other => ?_, fits.futures⟩
  by_cases same : other = key
  · subst same
    simp [Locals.borrow, fits.borrows]
  · simp [Locals.borrow, fits.borrows, same, List.count_cons_of_ne (Ne.symm same)]

theorem Fits.entered_pinned (fits : Fits made running held innermost s) (key : K) (value : T) :
    Fits made running held (Function.update innermost key (some value))
      (entered s (.pinned (scope key value)) key value) :=
  ⟨by simp [entered, fits.cells], fits.borrows, fits.futures⟩

theorem Fits.entered_owned (fits : Fits made running held innermost s) (future : F) :
    Fits made (future :: running) held (Function.update innermost (made future).1 (some (made future).2))
      (entered s (.owned future) (made future).1 (made future).2) := by
  refine ⟨by simp [entered, fits.cells], fits.borrows, fun other apart => ?_⟩
  rw [List.mem_cons, not_or] at apart
  simp [entered, Place.write, Locals.setSlot, Function.update_of_ne apart.1, fits.futures other apart.2]

theorem exec_yields (code : Code K F T) (allowed : code.Allowed made running held)
    (fits : Fits made running held innermost s) : Yields made (code.exec made innermost) s fun _ => True := by
  induction code generalizing running held innermost s with
  | done => exact Yields.pure trivial
  | unwind => exact Yields.throw nofun
  | catchUnwind inner rest inner_ih rest_ih =>
    refine (inner_ih allowed.1 fits).catchUnwind.bind fun _ observations _ => ?_
    exact rest_ih allowed.2 (fits.note observations)
  | access key expected inner rest inner_ih rest_ih =>
    refine (tryWith_yields fun value found => ?_).bind fun result observations found => ?_
    · refine (Yields.note ?_).bind fun _ observations _ => inner_ih allowed.1 ((fits.borrow key).note observations)
      simp [Observation.Right, ← fits.cells, found]
    · cases result with
      | some => exact rest_ih allowed.2 (fits.note observations)
      | none =>
        refine (Yields.note ?_).bind fun _ later _ => ?_
        · simp [Observation.Right, ← fits.cells, found rfl]
        · cases expected with
          | true => exact Yields.throw nofun
          | false => exact rest_ih allowed.2 ((fits.note observations).note later)
  | syncScope key value inner rest inner_ih rest_ih =>
    obtain ⟨free, allowed, after⟩ := allowed
    refine Yields.bind (Yields.leaving (withTask_yields rfl (fits.free free) ?_) nofun) fun _ observations _ => ?_
    · exact inner_ih allowed (fits.entered_pinned key value)
    · exact rest_ih after (fits.note observations)
  | poll future inner rest inner_ih rest_ih =>
    obtain ⟨free, alone, allowed, after⟩ := allowed
    have filled := fits.futures future alone
    refine Yields.bind (Yields.leaving (withTask_yields filled (fits.free free) ?_) ?_) fun _ observations _ => ?_
    · exact inner_ih allowed (fits.entered_owned future)
    · intro observations seen member
      obtain rfl := List.mem_singleton.mp member
      change (s.futures future).slot = some (made future).2
      rw [filled]
      rfl
    · exact rest_ih after (fits.note observations)

def start (made : F → K × T) (cells : K → Option T) : Locals K F T where
  cells := cells
  borrows := fun _ => 0
  futures := fun future => scope (made future).1 (made future).2
  aborted := false
  trace := []

def Code.run (made : F → K × T) (cells : K → Option T) (code : Code K F T) : Exit Panic Unit × Locals K F T :=
  code.exec made cells (start made cells)

/-- Scopes nest, however they follow each other and are left. -/
theorem scopes_nest (made : F → K × T) (cells : K → Option T) (code : Code K F T) (allowed : code.Allowed made [] []) :
    (code.run made cells).1 ≠ .running ∧ (code.run made cells).1 ≠ .unwound .borrowed ∧
      (∀ seen ∈ (code.run made cells).2.trace, seen.Right made) ∧
      { (code.run made cells).2 with trace := [] } = start made cells := by
  obtain ⟨exit, observations, ends, ran, -, right⟩ := exec_yields code allowed
    (⟨rfl, fun _ => rfl, fun _ _ => rfl⟩ : Fits made [] [] cells (start made cells))
  rw [Code.run, ran]
  refine ⟨?_, ?_, right, rfl⟩
  · rintro rfl
    exact ends
  · rintro rfl
    exact ends rfl

/-- A scope that unwinds out of the poll of another, whose future is polled again. -/
def exampleScopes : Code Bool Nat Nat :=
  .catchUnwind
    (.poll 0
      (.access true true .done (.syncScope true 20 (.access true true (.syncScope false 30 .done .done) .unwind) .done))
      .done)
    (.poll 0 (.access true true .done .done) (.access true false .done .done))

def exampleMade (future : Nat) : Bool × Nat := (true, future + 10)

theorem scopes_nest_unwound : (exampleScopes.run exampleMade fun _ => none).2.trace.length = 10 ∧
    (exampleScopes.run exampleMade fun _ => none).2.trace.all (fun seen => match seen with
      | .saw _ value innermost => value == innermost
      | .polled future slot => slot == some (future + 10)
      | .left entry exit payload => exit true == entry true && payload != some .borrowed) := by
  obtain ⟨-, -, right, -⟩ := scopes_nest exampleMade (fun _ => none) exampleScopes (by simp [Code.Allowed, exampleScopes])
  refine ⟨rfl, List.all_eq_true.mpr fun seen member => ?_⟩
  have fine := right seen member
  cases seen with
  | saw key value innermost => simpa [Observation.Right] using fine
  | polled future slot => simpa [Observation.Right, exampleMade] using fine
  | left entry exit payload => simp [show exit = entry from fine.1, show payload ≠ some .borrowed from fine.2]

end Run

end Rules

end Osaka.TaskLocal
