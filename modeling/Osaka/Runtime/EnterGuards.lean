import Mathlib.Data.List.Nodup
import Osaka.Shared.Traces

set_option autoImplicit false

namespace Osaka.Context

open Traces

variable {H : Type}

structure EnterGuard (H : Type) where
  -- the handle that this one has replaced
  old : Option H
  deriving DecidableEq

/-- The `CONTEXT` of the thread with the guards that are alive, by the calls of `enter` that have made them. A
runtime's own drop is one of these calls: its scheduler holds the guard meanwhile. -/
structure Entered (H : Type) where
  context : Option H
  guards : Nat → Option (EnterGuard H)
  created : Nat

section Source

variable (context : Option H)

def tryCurrent : Option H := context

-- `osaka::spawn` goes to the spawner of this handle.
def spawnHandle : Option H := context

def tryEnter (new : H) : EnterGuard H × Option H := (⟨context⟩, some new)

-- `EnterGuard::drop`
def EnterGuard.drop (guard : EnterGuard H) : Option H := guard.old

end Source

inductive Step (H : Type) where
  | enter (new : H)
  | drop (guard : Nat)

def Entered.step (self : Entered H) : Step H → Entered H
  | .enter new =>
    let (guard, context) := tryEnter self.context new
    { context := context
      guards := Function.update self.guards self.created (some guard)
      created := self.created + 1 }
  | .drop i =>
    match self.guards i with
    | none => self
    | some guard =>
      { self with
        context := guard.drop
        guards := Function.update self.guards i none }

section Law

structure Call (H : Type) where
  guard : Nat
  handle : H
  -- what was to be current before it
  before : Option H

/-- The calls of `enter` whose guards are alive, the latest first. -/
structure History (H : Type) where
  initial : Option H
  calls : List (Call H)

namespace History

def current (history : History H) : Option H :=
  match history.calls with
  | [] => history.initial
  | call :: _ => some call.handle

def without (history : History H) (guard : Nat) : History H :=
  { history with calls := history.calls.filter fun call => decide (call.guard ≠ guard) }

def note (history : History H) (self : Entered H) : Step H → History H
  | .enter new => { history with calls := ⟨self.created, new, history.current⟩ :: history.calls }
  | .drop guard => history.without guard

end History

structure Recorded (H : Type) where
  entered : Entered H
  history : History H

namespace Recorded

def start (initial : Option H) : Recorded H :=
  ⟨⟨initial, fun _ => none, 0⟩, ⟨initial, []⟩⟩

def step (self : Recorded H) (taken : Step H) : Recorded H :=
  ⟨self.entered.step taken, self.history.note self.entered taken⟩

/-- The current handle is that of the latest guard alive, or the first one, and `spawn` goes nowhere else. -/
structure Right (recorded : Recorded H) : Prop where
  current : tryCurrent recorded.entered.context = recorded.history.current
  spawns : ∀ handle, spawnHandle recorded.entered.context = some handle →
    (∃ call ∈ recorded.history.calls, call.handle = handle) ∨ recorded.history.initial = some handle

/-- What was to be current before the call is to be current without its guard. -/
def Restores (self : Recorded H) : Step H → Prop
  | .enter _ => True
  | .drop guard => ∀ call ∈ self.history.calls, call.guard = guard →
      call.before = (self.history.without guard).current

def Newest (self : Recorded H) : Step H → Prop
  | .enter _ => True
  | .drop guard => ∀ call rest, self.history.calls = call :: rest → call.guard = guard

structure Sound (recorded : Recorded H) : Prop where
  nodup : (recorded.history.calls.map Call.guard).Nodup
  made : ∀ call ∈ recorded.history.calls, call.guard < recorded.entered.created
  kept : ∀ call ∈ recorded.history.calls, recorded.entered.guards call.guard = some ⟨call.before⟩
  gone : ∀ guard, (∀ call ∈ recorded.history.calls, call.guard ≠ guard) → recorded.entered.guards guard = none

end Recorded

end Law

namespace Recorded

variable {self : Recorded H} {taken : Step H}

theorem start_sound (initial : Option H) : (start initial).Sound :=
  ⟨List.nodup_nil, by simp [start], by simp [start], by simp [start]⟩

theorem right_iff : self.Right ↔ self.entered.context = self.history.current := by
  constructor
  · exact fun right => right.current
  · intro current
    refine ⟨current, ?_⟩
    intro handle spawns
    rw [spawnHandle, current] at spawns
    unfold History.current at spawns
    cases calls : self.history.calls with
    | nil =>
      rw [calls] at spawns
      exact Or.inr spawns
    | cons call rest =>
      rw [calls] at spawns
      exact Or.inl ⟨call, List.mem_cons_self, Option.some.inj spawns⟩

theorem start_right (initial : Option H) : (start initial).Right := right_iff.mpr rfl

theorem Sound.enter (sound : self.Sound) (right : self.Right) (new : H) : (self.step (.enter new)).Sound := by
  have fresh (call : Call H) (member : call ∈ self.history.calls) : call.guard ≠ self.entered.created :=
    Nat.ne_of_lt (sound.made call member)
  constructor
  · refine List.nodup_cons.mpr ⟨?_, sound.nodup⟩
    rw [List.mem_map]
    rintro ⟨call, member, same⟩
    exact fresh call member same
  · intro call member
    rcases List.mem_cons.mp member with rfl | old
    · exact Nat.lt_succ_self _
    · exact Nat.lt_succ_of_lt (sound.made call old)
  · intro call member
    rcases List.mem_cons.mp member with rfl | old
    · simp [step, Entered.step, tryEnter, right_iff.mp right]
    · simp [step, Entered.step, Function.update_of_ne (fresh call old), sound.kept call old]
  · intro guard others
    have apart : guard ≠ self.entered.created := (others _ List.mem_cons_self).symm
    simp only [step, Entered.step, Function.update_of_ne apart]
    exact sound.gone guard fun call member => others call (List.mem_cons_of_mem _ member)

theorem Sound.mem_without {call : Call H} (guard : Nat) :
    call ∈ (self.history.without guard).calls ↔ call ∈ self.history.calls ∧ call.guard ≠ guard := by
  simp [History.without]

theorem Sound.drop_gone {guard : Nat} (sound : self.Sound) (gone : ∀ call ∈ self.history.calls, call.guard ≠ guard) :
    self.step (.drop guard) = self := by
  have same : self.history.without guard = self.history := by
    have all : self.history.calls.filter (fun call => decide (call.guard ≠ guard)) = self.history.calls :=
      List.filter_eq_self.mpr fun call member => decide_eq_true (gone call member)
    simp only [History.without, all]
  simp [step, Entered.step, History.note, sound.gone guard gone, same]

theorem Sound.drop {call : Call H} (sound : self.Sound) (member : call ∈ self.history.calls) :
    (self.step (.drop call.guard)).Sound ∧ (self.step (.drop call.guard)).entered.context = call.before := by
  have stepped : self.step (.drop call.guard) =
      ⟨{ self.entered with
          context := call.before
          guards := Function.update self.entered.guards call.guard none }, self.history.without call.guard⟩ := by
    simp [step, Entered.step, History.note, sound.kept call member, EnterGuard.drop]
  rw [stepped]
  refine ⟨⟨?_, ?_, ?_, ?_⟩, rfl⟩
  · exact sound.nodup.sublist (List.filter_sublist.map _)
  · intro other left
    exact sound.made other (Sound.mem_without call.guard |>.mp left).1
  · intro other left
    obtain ⟨old, apart⟩ := (Sound.mem_without call.guard).mp left
    simp only [Function.update_of_ne apart]
    exact sound.kept other old
  · intro guard others
    by_cases same : guard = call.guard
    · simp [same]
    · simp only [Function.update_of_ne same]
      refine sound.gone guard fun other old => ?_
      rintro rfl
      exact others other ((Sound.mem_without call.guard).mpr ⟨old, same⟩) rfl

theorem step_sound (sound : self.Sound) (right : self.Right) : (self.step taken).Sound := by
  cases taken with
  | enter new => exact sound.enter right new
  | drop guard =>
    by_cases alive : ∃ call ∈ self.history.calls, call.guard = guard
    · obtain ⟨call, member, rfl⟩ := alive
      exact (sound.drop member).1
    · rw [sound.drop_gone fun call member same => alive ⟨call, member, same⟩]
      exact sound

theorem step_right (sound : self.Sound) (right : self.Right) : (self.step taken).Right ↔ self.Restores taken := by
  cases taken with
  | enter new => exact iff_of_true (right_iff.mpr rfl) trivial
  | drop guard =>
    by_cases alive : ∃ call ∈ self.history.calls, call.guard = guard
    · obtain ⟨call, member, rfl⟩ := alive
      rw [right_iff, (sound.drop member).2]
      constructor
      · intro restored other old same
        rw [List.inj_on_of_nodup_map sound.nodup old member same]
        exact restored
      · exact fun restores => restores call member rfl
    · have gone : ∀ call ∈ self.history.calls, call.guard ≠ guard := fun call member same => alive ⟨call, member, same⟩
      rw [sound.drop_gone gone]
      exact iff_of_true right fun call member same => absurd same (gone call member)

section Nesting

/-- Each guard alive was entered when the next older one was the latest. -/
def Nested (initial : Option H) : List (Call H) → Prop
  | [] => True
  | call :: rest => call.before = History.current ⟨initial, rest⟩ ∧ Nested initial rest

theorem Sound.without_newest {call : Call H} {rest : List (Call H)} (sound : self.Sound)
    (calls : self.history.calls = call :: rest) : self.history.without call.guard = { self.history with calls := rest } := by
  have nodup := sound.nodup
  rw [calls, List.map_cons, List.nodup_cons] at nodup
  have left : rest.filter (fun other => decide (other.guard ≠ call.guard)) = rest := by
    refine List.filter_eq_self.mpr fun other member => decide_eq_true ?_
    exact fun same => nodup.1 (List.mem_map.mpr ⟨other, member, same⟩)
  simp only [History.without, calls, ne_eq, not_true_eq_false, decide_false, Bool.false_eq_true, not_false_eq_true,
    List.filter_cons_of_neg]
  rw [← left]
  simp

theorem newest_restores (sound : self.Sound) (nested : Nested self.history.initial self.history.calls)
    (newest : self.Newest taken) : self.Restores taken := by
  cases taken with
  | enter new => trivial
  | drop guard =>
    intro call member same
    cases calls : self.history.calls with
    | nil => simp [calls] at member
    | cons head rest =>
      obtain rfl : head.guard = guard := newest head rest calls
      have first : call = head :=
        List.inj_on_of_nodup_map sound.nodup member (by simp [calls]) same
      rw [calls] at nested
      rw [first, sound.without_newest calls]
      exact nested.1

theorem newest_nested (sound : self.Sound) (nested : Nested self.history.initial self.history.calls)
    (newest : self.Newest taken) :
    Nested (self.step taken).history.initial (self.step taken).history.calls := by
  cases taken with
  | enter new => exact ⟨rfl, nested⟩
  | drop guard =>
    cases calls : self.history.calls with
    | nil => simp [step, History.note, History.without, calls, Nested]
    | cons head rest =>
      obtain rfl : head.guard = guard := newest head rest calls
      rw [calls] at nested
      change Nested (self.history.without head.guard).initial (self.history.without head.guard).calls
      rw [sound.without_newest calls]
      exact nested.2

end Nesting

/-- Dropping the latest guard is always right; another one only where it makes no difference. -/
theorem current_iff_restored (initial : Option H) (steps : List (Step H)) :
    ((∀ self ∈ states step (start initial) steps, self.Right) ↔ Each step Restores (start initial) steps) ∧
    (Each step Newest (start initial) steps → Each step Restores (start initial) steps) := by
  constructor
  · exact states_iff steps (fun _ _ sound right => step_sound sound right) (fun _ _ sound right => step_right sound right)
      (start_sound initial) (start_right initial)
  · intro newest
    apply Each.implies steps _ _ _ newest (P := fun self =>
      self.Sound ∧ self.Right ∧ Nested self.history.initial self.history.calls)
    · rintro self taken ⟨sound, right, nested⟩ newest
      have restores := newest_restores sound nested newest
      exact ⟨step_sound sound right, (step_right sound right).mpr restores, newest_nested sound nested newest⟩
    · rintro self taken ⟨sound, right, nested⟩ newest
      exact newest_restores sound nested newest
    · exact ⟨start_sound initial, start_right initial, trivial⟩

/-- The first guard is dropped before the second one, which then makes the first runtime current again. -/
theorem left_runtime_current : ∃ self ∈ states step (start none) [.enter 0, .enter 1, .drop 0, .drop 1],
    self.history.calls = [] ∧ self.history.initial = none ∧
      spawnHandle self.entered.context = some 0 :=
  ⟨_, List.mem_of_getElem? (i := 4) rfl, rfl, rfl, rfl⟩

end Recorded

end Osaka.Context
