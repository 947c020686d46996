import Osaka.Time.Driver

set_option autoImplicit false

namespace Osaka.Time

variable {W : Type}

/-- The time driver as a map: the sleeps that are registered, with their deadlines and wakers. -/
def Sleepers (W : Type) := Nat → Option (SimTime × W)

inductive DriverCall (W : Type) where
  | wakeSleeper (now : SimTime) (source : Sleep) (waker : W)
  | resetSleeper (id : Nat) (newDeadline : SimTime)
  | takeTimestep (now : SimTime)

/-- A call that panics does it before it changes anything. -/
def TimeDriver.call (self : TimeDriver W) : DriverCall W → TimeDriver W
  | .wakeSleeper now source waker => (self.wakeSleeper now source waker).getD self
  | .resetSleeper id newDeadline => self.resetSleeper id newDeadline
  | .takeTimestep now => (self.takeTimestep now).2

def TimeDriver.run (calls : List (DriverCall W)) : TimeDriver W := calls.foldl call new

namespace Sleepers

def new : Sleepers W := fun _ => none

def put (self : Sleepers W) (id : Nat) (entry : Option (SimTime × W)) : Sleepers W := Function.update self id entry

@[simp]
theorem put_self (self : Sleepers W) (id : Nat) (entry : Option (SimTime × W)) : self.put id entry id = entry :=
  Function.update_self ..

theorem put_of_ne {self : Sleepers W} {id other : Nat} {entry : Option (SimTime × W)} (apart : other ≠ id) :
    self.put id entry other = self other :=
  Function.update_of_ne apart ..

def Current (now : SimTime) (self : Sleepers W) : Prop :=
  ∀ id deadline waker, self id = some (deadline, waker) → now ≤ deadline

def later (now : SimTime) (self : Sleepers W) : Sleepers W :=
  fun id => (self id).filter fun entry => decide (entry.1 ≠ now)

section Calls

open Classical in
/-- Nothing where the deadline has passed, which is the panic, or where there is an entry. -/
noncomputable def wakeSleeper (now : SimTime) (self : Sleepers W) (source : Sleep) (waker : W) : Sleepers W :=
  if now ≤ source.deadline ∧ self source.id = none then self.put source.id (some (source.deadline, waker)) else self

def resetSleeper (self : Sleepers W) (id : Nat) (newDeadline : SimTime) : Sleepers W :=
  self.put id ((self id).map fun entry => (newDeadline, entry.2))

open Classical in
/-- A deadline that has passed keeps all entries. -/
noncomputable def takeTimestep (now : SimTime) (self : Sleepers W) : Sleepers W :=
  if self.Current now then self.later now else self

noncomputable def call (self : Sleepers W) : DriverCall W → Sleepers W
  | .wakeSleeper now source waker => self.wakeSleeper now source waker
  | .resetSleeper id newDeadline => self.resetSleeper id newDeadline
  | .takeTimestep now => self.takeTimestep now

noncomputable def run (calls : List (DriverCall W)) : Sleepers W := calls.foldl call new

end Calls

end Sleepers

namespace TimeDriver

/-- The entries of the heap are those of the map, one for each id. -/
structure Refines (driver : TimeDriver W) (sleepers : Sleepers W) : Prop where
  valid : driver.WellFormed
  entries : ∀ id deadline waker,
    ⟨deadline, waker, id⟩ ∈ driver.sleeps ↔ sleepers id = some (deadline, waker)

/-- `peek` finds an entry of minimal deadline, if there is one. -/
def Peeks (driver : TimeDriver W) (sleepers : Sleepers W) : Prop :=
  match MaxHeap.peek driver.sleeps with
  | none => sleepers = .new
  | some head => sleepers head.id = some (head.deadline, head.waker) ∧ sleepers.Current head.deadline

/-- `take_timestep` wakes the sleeps whose deadline is now, each once, and none where a deadline has passed. -/
def Takes (now : SimTime) (driver : TimeDriver W) (sleepers : Sleepers W) : Prop :=
  ∃ ids : List Nat, ids.Nodup ∧ (∀ id, id ∈ ids ↔ sleepers.Current now ∧ ∃ waker, sleepers id = some (now, waker)) ∧
    (driver.takeTimestep now).1 = ids.filterMap fun id => (sleepers id).map Prod.snd

variable {self : TimeDriver W} {sleepers : Sleepers W}

theorem new_refines : (new : TimeDriver W).Refines .new :=
  ⟨new_wellFormed, fun _ _ _ => ⟨nofun, nofun⟩⟩

theorem Refines.absent (refines : self.Refines sleepers) {id : Nat} :
    sleepers id = none ↔ ∀ entry ∈ self.sleeps, entry.id ≠ id := by
  constructor
  · rintro none entry stored rfl
    simpa [none] using (refines.entries entry.id entry.deadline entry.waker).mp stored
  · intro absent
    cases found : sleepers id with
    | none => rfl
    | some entry => exact absurd rfl (absent _ ((refines.entries id entry.1 entry.2).mpr found))

theorem Refines.peeks (refines : self.Refines sleepers) : self.Peeks sleepers := by
  unfold Peeks
  split
  next empty =>
    funext id
    refine refines.absent.mpr fun entry stored => ?_
    simp [peek_none.mp empty] at stored
  next head peeked =>
    refine ⟨(refines.entries _ _ _).mp (peek_mem peeked), fun id deadline waker found => ?_⟩
    exact refines.valid.peek_earliest peeked ((refines.entries _ _ _).mpr found)

theorem Refines.current (refines : self.Refines sleepers) {now : SimTime} : sleepers.Current now ↔ self.Current now := by
  constructor
  · exact fun current entry stored => current entry.id entry.deadline entry.waker ((refines.entries _ _ _).mp stored)
  · exact fun current id deadline waker found => current _ ((refines.entries _ _ _).mpr found)

theorem Refines.stale (refines : self.Refines sleepers) {now : SimTime} (past : ¬ sleepers.Current now) :
    self.due now = [] ∧ (self.takeTimestep now).2 = self := by
  obtain ⟨id, deadline, waker, found, past⟩ :
      ∃ id deadline waker, sleepers id = some (deadline, waker) ∧ deadline < now := by
    simpa [Sleepers.Current] using past
  exact takeTimestep_stale refines.valid ((refines.entries _ _ _).mpr found) past

theorem Refines.takes (refines : self.Refines sleepers) (now : SimTime) : self.Takes now sleepers := by
  by_cases current : sleepers.Current now
  · have due (entry : Entry W) := (takeTimestep_mem refines.valid (refines.current.mp current) entry).1
    have unique := ((takeTimestep_perm now refines.valid).map Entry.id).nodup_iff.mp refines.valid.unique
    rw [List.map_append] at unique
    refine ⟨(self.due now).map Entry.id, unique.of_append_left, ?_, ?_⟩
    · intro id
      rw [List.mem_map, and_iff_right current]
      constructor
      · rintro ⟨entry, member, rfl⟩
        obtain ⟨stored, rfl⟩ := (due entry).mp member
        exact ⟨entry.waker, (refines.entries _ _ _).mp stored⟩
      · rintro ⟨waker, found⟩
        exact ⟨⟨now, waker, id⟩, (due _).mpr ⟨(refines.entries _ _ _).mpr found, rfl⟩, rfl⟩
    · change (self.due now).map Entry.waker = _
      rw [List.filterMap_map, ← List.filterMap_eq_map]
      refine List.filterMap_congr fun entry member => ?_
      have found := (refines.entries entry.id entry.deadline entry.waker).mp ((due entry).mp member).1
      simp [found]
  · refine ⟨[], List.nodup_nil, by simp [current], ?_⟩
    change (self.due now).map Entry.waker = []
    rw [(refines.stale current).1, List.map_nil]

theorem wakeSleeper_none {now : SimTime} {source : Sleep} {waker : W} :
    self.wakeSleeper now source waker = none ↔ ¬ now ≤ source.deadline := by
  unfold wakeSleeper
  by_cases ahead : now ≤ source.deadline
  · rw [if_pos ahead]
    split <;> simp [ahead]
  · simp [ahead]

theorem Refines.wakeSleeper (refines : self.Refines sleepers) (now : SimTime) (source : Sleep) (waker : W) :
    ((self.wakeSleeper now source waker).getD self).Refines (sleepers.wakeSleeper now source waker) := by
  unfold Sleepers.wakeSleeper
  cases woken : self.wakeSleeper now source waker with
  | none =>
    rw [if_neg fun ahead => wakeSleeper_none.mp woken ahead.1]
    exact refines
  | some next =>
    have ahead : now ≤ source.deadline := by
      by_contra past
      rw [wakeSleeper_none.mpr past] at woken
      cases woken
    obtain ⟨valid, -, entries⟩ := wakeSleeper_correct refines.valid woken
    refine ⟨valid, fun id deadline waker' => ?_⟩
    rw [Option.getD_some, entries, refines.entries, ← refines.absent]
    by_cases absent : sleepers source.id = none
    · rw [if_pos ⟨ahead, absent⟩]
      by_cases same : id = source.id
      · subst same
        simp [absent, eq_comm]
      · rw [Sleepers.put_of_ne same]
        simp [same]
    · rw [if_neg fun adds => absent adds.2]
      simp [absent]

theorem Refines.resetSleeper (refines : self.Refines sleepers) (id : Nat) (newDeadline : SimTime) :
    (self.resetSleeper id newDeadline).Refines (sleepers.resetSleeper id newDeadline) := by
  obtain ⟨valid, entries⟩ := resetSleeper_correct refines.valid id newDeadline
  refine ⟨valid, fun other deadline waker => ?_⟩
  rw [entries, Sleepers.resetSleeper]
  constructor
  · rintro ⟨old, stored, moved⟩
    have found := (refines.entries old.id old.deadline old.waker).mp stored
    unfold rescheduled at moved
    split at moved
    next same =>
      obtain ⟨rfl, rfl, rfl⟩ := Entry.mk.inj moved
      simp [← same, found]
    next apart =>
      subst moved
      rw [Sleepers.put_of_ne apart, found]
  · intro found
    by_cases same : other = id
    · subst same
      rw [Sleepers.put_self, Option.map_eq_some_iff] at found
      obtain ⟨⟨old, waker'⟩, stored, new⟩ := found
      obtain ⟨rfl, rfl⟩ := Prod.mk.inj new
      exact ⟨_, (refines.entries _ _ _).mpr stored, by simp [rescheduled]⟩
    · rw [Sleepers.put_of_ne same] at found
      exact ⟨_, (refines.entries _ _ _).mpr found, by simp [rescheduled, same]⟩

theorem Refines.takeTimestep (refines : self.Refines sleepers) (now : SimTime) :
    (self.takeTimestep now).2.Refines (sleepers.takeTimestep now) := by
  unfold Sleepers.takeTimestep
  by_cases current : sleepers.Current now
  · rw [if_pos current]
    have valid := refines.valid.takeTimestep now
    refine ⟨valid, fun id deadline waker => ?_⟩
    rw [(takeTimestep_mem refines.valid (refines.current.mp current) _).2, refines.entries, Sleepers.later, Option.filter_eq_some_iff]
    refine and_congr_right fun found => ?_
    have before := current id deadline waker found
    simpa using before.lt_iff_ne'
  · rw [if_neg current]
    rw [(refines.stale current).2]
    exact refines

theorem Refines.call (refines : self.Refines sleepers) (call : DriverCall W) :
    (self.call call).Refines (sleepers.call call) := by
  cases call with
  | wakeSleeper now source waker => exact refines.wakeSleeper now source waker
  | resetSleeper id newDeadline => exact refines.resetSleeper id newDeadline
  | takeTimestep now => exact refines.takeTimestep now

theorem Refines.run (refines : self.Refines sleepers) (calls : List (DriverCall W)) :
    (calls.foldl TimeDriver.call self).Refines (calls.foldl Sleepers.call sleepers) := by
  induction calls generalizing self sleepers with
  | nil => exact refines
  | cons call rest ih => exact ih (refines.call call)

/-- Whatever has been called, the heap is the map, `peek` is right, and so is the next `take_timestep`. -/
theorem refines_sleepers (calls : List (DriverCall W)) :
    (run calls).Refines (Sleepers.run calls) ∧ (run calls).Peeks (Sleepers.run calls) ∧
      ∀ now, (run calls).Takes now (Sleepers.run calls) := by
  have refines : (run calls).Refines (Sleepers.run calls) := new_refines.run calls
  exact ⟨refines, refines.peeks, refines.takes⟩

end TimeDriver

end Osaka.Time
