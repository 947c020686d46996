import Mathlib.Order.OrderDual
import Mathlib.Data.List.Nodup
import Osaka.Basic
import Osaka.Shared.MaxHeap
import Osaka.Time.SimTime

set_option autoImplicit false

namespace Osaka.Time

structure Entry (W : Type) where
  deadline : SimTime
  waker : W
  id : Nat
  deriving DecidableEq

def Entry.cmp {W : Type} (self other : Entry W) : Ordering :=
  if self.id = other.id then .eq else compare other.deadline self.deadline

/-- A registered `Sleep`, as the future itself holds it. -/
structure Sleep where
  deadline : SimTime
  id : Nat
  deriving DecidableEq

structure TimeDriver (W : Type) where
  sleeps : List (Entry W)
  nextWakeupEmitted : Option SimTime
  deriving DecidableEq

namespace TimeDriver

variable {W : Type}

def new : TimeDriver W := { sleeps := [], nextWakeupEmitted := none }

-- `none` is the failed assertion on the deadline.
def wakeSleeper (now : SimTime) (self : TimeDriver W) (source : Sleep) (waker : W) :
    Option (TimeDriver W) :=
  if now ≤ source.deadline then
    if self.sleeps.any (fun e => e.id == source.id) then some self
    else some { self with
      sleeps := MaxHeap.push Entry.cmp self.sleeps ⟨source.deadline, waker, source.id⟩ }
  else none

def resetFirst (id : Nat) (newDeadline : SimTime) : List (Entry W) → List (Entry W)
  | [] => []
  | entry :: rest =>
    if entry.id = id then { entry with deadline := newDeadline } :: rest
    else entry :: resetFirst id newDeadline rest

def resetSleeper (self : TimeDriver W) (id : Nat) (newDeadline : SimTime) : TimeDriver W :=
  { self with sleeps := MaxHeap.ofList Entry.cmp (resetFirst id newDeadline self.sleeps) }

def nextWakeup (self : TimeDriver W) : Option SimTime × TimeDriver W :=
  match (MaxHeap.peek self.sleeps).map Entry.deadline, self.nextWakeupEmitted with
  | none, _ => (none, self)
  | some c, some p =>
    if p = c then (none, self) else (some c, { self with nextWakeupEmitted := some c })
  | some c, none => (some c, { self with nextWakeupEmitted := some c })

-- The loop pops one entry a turn, so the number of entries bounds its turns.
def drain (now : SimTime) : Nat → List (Entry W) → List (Entry W) × List (Entry W)
  | 0, sleeps => ([], sleeps)
  | fuel + 1, sleeps =>
    match MaxHeap.pop Entry.cmp sleeps with
    | none => ([], sleeps)
    | some (peeked, rest) =>
      if peeked.deadline = now then
        let (popped, left) := drain now fuel rest
        (peeked :: popped, left)
      else ([], sleeps)

/-- The entries `take_timestep` pops, in the order in which it pops them. -/
def due (now : SimTime) (self : TimeDriver W) : List (Entry W) :=
  (drain now self.sleeps.length self.sleeps).1

def takeTimestep (now : SimTime) (self : TimeDriver W) : List W × TimeDriver W :=
  ((self.due now).map Entry.waker,
    { self with sleeps := (drain now self.sleeps.length self.sleeps).2 })

/-- The order of the heap: the earlier deadline is the greater entry. -/
def dueKey (entry : Entry W) : SimTimeᵒᵈ := OrderDual.toDual entry.deadline

/-- Every id has one entry, and no entry is due before its parent in the heap. -/
structure WellFormed (driver : TimeDriver W) : Prop where
  unique : (driver.sleeps.map Entry.id).Nodup
  ordered : MaxHeap.Ordered dueKey driver.sleeps

theorem keyed_of_unique {sleeps : List (Entry W)} (unique : (sleeps.map Entry.id).Nodup) :
    MaxHeap.Keyed Entry.cmp dueKey sleeps := by
  intro x hx y hy
  by_cases same : x.id = y.id
  · have : x = y := List.inj_on_of_nodup_map unique hx hy same
    subst this
    simp [Entry.cmp]
  · simp only [Entry.cmp, if_neg same, dueKey]
    rfl

theorem new_wellFormed : (new : TimeDriver W).WellFormed := by
  constructor
  · simp [new]
  · intro i _
    rw [MaxHeap.level_ge (by simp [new])]
    exact bot_le

theorem peek_none {self : TimeDriver W} : MaxHeap.peek self.sleeps = none ↔ self.sleeps = [] := by
  simp [MaxHeap.peek]

theorem WellFormed.peek_earliest {self : TimeDriver W} (valid : self.WellFormed) {head : Entry W}
    (peeked : MaxHeap.peek self.sleeps = some head) {entry : Entry W} (stored : entry ∈ self.sleeps) :
    head.deadline ≤ entry.deadline :=
  valid.ordered.peek_max peeked stored

theorem peek_mem {self : TimeDriver W} {head : Entry W}
    (peeked : MaxHeap.peek self.sleeps = some head) : head ∈ self.sleeps :=
  List.mem_of_getElem? peeked

theorem wakeSleeper_correct {now : SimTime} {self next : TimeDriver W} {source : Sleep} {waker : W}
    (valid : self.WellFormed) (woken : wakeSleeper now self source waker = some next) :
    next.WellFormed ∧ next.nextWakeupEmitted = self.nextWakeupEmitted ∧
      ∀ entry, entry ∈ next.sleeps ↔ entry ∈ self.sleeps ∨
        (∀ e ∈ self.sleeps, e.id ≠ source.id) ∧ entry = ⟨source.deadline, waker, source.id⟩ := by
  unfold wakeSleeper at woken
  split at woken
  next =>
    split at woken
    next present =>
      obtain rfl := Option.some.inj woken
      simp only [List.any_eq_true, beq_iff_eq] at present
      obtain ⟨old, stored, same⟩ := present
      refine ⟨valid, rfl, fun entry => ⟨Or.inl, ?_⟩⟩
      rintro (kept | ⟨absent, _⟩)
      · exact kept
      · exact absurd same (absent old stored)
    next missing =>
      obtain rfl := Option.some.inj woken
      have absent : ∀ e ∈ self.sleeps, e.id ≠ source.id := by simpa using missing
      have pushed := MaxHeap.push_perm Entry.cmp self.sleeps ⟨source.deadline, waker, source.id⟩
      have unique : ((⟨source.deadline, waker, source.id⟩ :: self.sleeps).map Entry.id).Nodup := by
        simp only [List.map_cons, List.nodup_cons, List.mem_map, not_exists, not_and]
        exact ⟨absent, valid.unique⟩
      refine ⟨⟨?_, ?_⟩, rfl, fun entry => ?_⟩
      · exact (pushed.map Entry.id).nodup_iff.mpr unique
      · exact MaxHeap.push_ordered valid.ordered (keyed_of_unique unique)
      · rw [pushed.mem_iff, List.mem_cons, or_comm]
        simp only [and_iff_right absent]
  next => simp at woken

theorem resetFirst_ids (id : Nat) (newDeadline : SimTime) (sleeps : List (Entry W)) :
    (resetFirst id newDeadline sleeps).map Entry.id = sleeps.map Entry.id := by
  induction sleeps with
  | nil => rfl
  | cons entry rest ih =>
    by_cases hit : entry.id = id <;> simp [resetFirst, hit, ih]

def rescheduled (id : Nat) (newDeadline : SimTime) (entry : Entry W) : Entry W :=
  if entry.id = id then { entry with deadline := newDeadline } else entry

@[simp]
theorem rescheduled_id (id : Nat) (newDeadline : SimTime) (entry : Entry W) :
    (rescheduled id newDeadline entry).id = entry.id := by
  unfold rescheduled
  split <;> rfl

@[simp]
theorem rescheduled_waker (id : Nat) (newDeadline : SimTime) (entry : Entry W) :
    (rescheduled id newDeadline entry).waker = entry.waker := by
  unfold rescheduled
  split <;> rfl

theorem resetFirst_map (id : Nat) (newDeadline : SimTime) (sleeps : List (Entry W))
    (unique : (sleeps.map Entry.id).Nodup) :
    resetFirst id newDeadline sleeps = sleeps.map (rescheduled id newDeadline) := by
  induction sleeps with
  | nil => rfl
  | cons entry rest ih =>
    rw [List.map_cons, List.nodup_cons] at unique
    by_cases hit : entry.id = id
    · have others : ∀ e ∈ rest, rescheduled id newDeadline e = e := by
        intro e stored
        have : e.id ≠ id := fun same =>
          unique.1 (List.mem_map.mpr ⟨e, stored, same.trans hit.symm⟩)
        simp [rescheduled, this]
      simp [resetFirst, rescheduled, hit, List.map_congr_left others]
    · simp [resetFirst, rescheduled, hit, ih unique.2]

theorem resetSleeper_correct {self : TimeDriver W} (valid : self.WellFormed) (id : Nat)
    (newDeadline : SimTime) :
    (self.resetSleeper id newDeadline).WellFormed ∧
      ∀ entry, entry ∈ (self.resetSleeper id newDeadline).sleeps ↔
        ∃ old ∈ self.sleeps, rescheduled id newDeadline old = entry := by
  have unique : ((resetFirst id newDeadline self.sleeps).map Entry.id).Nodup := by
    rw [resetFirst_ids]
    exact valid.unique
  have same := MaxHeap.ofList_perm Entry.cmp (resetFirst id newDeadline self.sleeps)
  refine ⟨⟨?_, ?_⟩, fun entry => ?_⟩
  · exact (same.map Entry.id).nodup_iff.mpr unique
  · exact MaxHeap.ofList_ordered (keyed_of_unique unique)
  · change entry ∈ MaxHeap.ofList Entry.cmp (resetFirst id newDeadline self.sleeps) ↔ _
    rw [same.mem_iff, resetFirst_map id newDeadline self.sleeps valid.unique, List.mem_map]

theorem nextWakeup_sleeps (self : TimeDriver W) : self.nextWakeup.2.sleeps = self.sleeps := by
  unfold nextWakeup
  split
  · rfl
  · split <;> rfl
  · rfl

theorem WellFormed.nextWakeup {self : TimeDriver W} (valid : self.WellFormed) :
    self.nextWakeup.2.WellFormed := by
  constructor
  · rw [nextWakeup_sleeps]
    exact valid.unique
  · rw [nextWakeup_sleeps]
    exact valid.ordered

/-- One pass of the loop of `take_timestep`: what it pops is due now, and it stops at the head. -/
theorem drain_correct (now : SimTime) (fuel : Nat) (sleeps : List (Entry W))
    (enough : sleeps.length ≤ fuel) (unique : (sleeps.map Entry.id).Nodup)
    (ordered : MaxHeap.Ordered dueKey sleeps) :
    sleeps.Perm ((drain now fuel sleeps).1 ++ (drain now fuel sleeps).2) ∧
      (∀ entry ∈ (drain now fuel sleeps).1, entry.deadline = now) ∧
      MaxHeap.Ordered dueKey (drain now fuel sleeps).2 ∧
      ∀ head, MaxHeap.peek (drain now fuel sleeps).2 = some head → head.deadline ≠ now := by
  induction fuel generalizing sleeps with
  | zero =>
    obtain rfl := List.length_eq_zero_iff.mp (Nat.le_zero.mp enough)
    simpa [drain, MaxHeap.peek] using ordered
  | succ fuel ih =>
    unfold drain
    cases popped : MaxHeap.pop Entry.cmp sleeps with
    | none =>
      obtain rfl := (MaxHeap.pop_none Entry.cmp sleeps).mp popped
      simpa [MaxHeap.peek] using ordered
    | some found =>
      obtain ⟨peeked, rest⟩ := found
      obtain ⟨head, same⟩ := MaxHeap.pop_perm Entry.cmp sleeps rest peeked popped
      have restUnique : (rest.map Entry.id).Nodup :=
        (((same.map Entry.id).nodup_iff).mp unique).of_cons
      have restOrdered := MaxHeap.pop_ordered ordered (keyed_of_unique unique) popped
      by_cases hit : peeked.deadline = now
      · have length := same.length_eq
        simp only [List.length_cons] at length
        obtain ⟨all, dueNow, left, stopped⟩ := ih rest (by omega) restUnique restOrdered
        simp only [if_pos hit]
        refine ⟨same.trans (all.cons peeked), ?_, left, stopped⟩
        intro entry member
        rcases List.mem_cons.mp member with rfl | later
        · exact hit
        · exact dueNow entry later
      · simp only [if_neg hit]
        refine ⟨List.Perm.refl _, by simp, ordered, ?_⟩
        intro other again
        rw [head] at again
        obtain rfl := Option.some.inj again
        exact hit

theorem takeTimestep_perm (now : SimTime) {self : TimeDriver W} (valid : self.WellFormed) :
    self.sleeps.Perm (self.due now ++ (self.takeTimestep now).2.sleeps) :=
  (drain_correct now _ _ le_rfl valid.unique valid.ordered).1

theorem due_now {now : SimTime} {self : TimeDriver W} (valid : self.WellFormed) {entry : Entry W}
    (popped : entry ∈ self.due now) : entry.deadline = now :=
  (drain_correct now _ _ le_rfl valid.unique valid.ordered).2.1 entry popped

theorem WellFormed.takeTimestep {self : TimeDriver W} (valid : self.WellFormed) (now : SimTime) :
    (self.takeTimestep now).2.WellFormed := by
  constructor
  · have unique := ((takeTimestep_perm now valid).map Entry.id).nodup_iff.mp valid.unique
    rw [List.map_append] at unique
    exact unique.of_append_right
  · exact (drain_correct now _ _ le_rfl valid.unique valid.ordered).2.2.1

/-- Nothing is registered for an instant that has already passed. -/
def Current (now : SimTime) (self : TimeDriver W) : Prop :=
  ∀ entry ∈ self.sleeps, now ≤ entry.deadline

theorem takeTimestep_left {now : SimTime} {self : TimeDriver W} (valid : self.WellFormed)
    (current : self.Current now) {entry : Entry W}
    (left : entry ∈ (self.takeTimestep now).2.sleeps) : now < entry.deadline := by
  have after := valid.takeTimestep now
  have stopped := (drain_correct now _ _ le_rfl valid.unique valid.ordered).2.2.2
  cases peeked : MaxHeap.peek (self.takeTimestep now).2.sleeps with
  | none => simp [peek_none.mp peeked] at left
  | some head =>
    have old : head ∈ self.sleeps :=
      (takeTimestep_perm now valid).mem_iff.mpr (List.mem_append_right _ (peek_mem peeked))
    have later : now < head.deadline := lt_of_le_of_ne (current head old) (stopped head peeked).symm
    exact later.trans_le (after.peek_earliest peeked left)

theorem takeTimestep_mem {now : SimTime} {self : TimeDriver W} (valid : self.WellFormed)
    (current : self.Current now) (entry : Entry W) :
    (entry ∈ self.due now ↔ entry ∈ self.sleeps ∧ entry.deadline = now) ∧
      (entry ∈ (self.takeTimestep now).2.sleeps ↔ entry ∈ self.sleeps ∧ now < entry.deadline) := by
  have split := (takeTimestep_perm now valid).mem_iff (a := entry)
  rw [List.mem_append] at split
  constructor
  · refine ⟨fun popped => ⟨split.mpr (Or.inl popped), due_now valid popped⟩, ?_⟩
    rintro ⟨stored, atNow⟩
    refine (split.mp stored).resolve_right (fun left => ?_)
    exact (takeTimestep_left valid current left).ne' atNow
  · refine ⟨fun left => ⟨split.mpr (Or.inr left), takeTimestep_left valid current left⟩, ?_⟩
    rintro ⟨stored, later⟩
    refine (split.mp stored).resolve_left (fun popped => ?_)
    exact later.ne' (due_now valid popped)

/-- A deadline in the past is at the head, and the loop stops there before it pops anything. -/
theorem takeTimestep_stale {now : SimTime} {self : TimeDriver W} (valid : self.WellFormed)
    {entry : Entry W} (stored : entry ∈ self.sleeps) (past : entry.deadline < now) :
    self.due now = [] ∧ (self.takeTimestep now).2 = self := by
  have stuck : drain now self.sleeps.length self.sleeps = ([], self.sleeps) := by
    cases size : self.sleeps.length with
    | zero => rfl
    | succ fuel =>
      unfold drain
      cases popped : MaxHeap.pop Entry.cmp self.sleeps with
      | none => rfl
      | some found =>
        obtain ⟨peeked, rest⟩ := found
        have head := (MaxHeap.pop_perm Entry.cmp self.sleeps rest peeked popped).1
        have before := (valid.peek_earliest head stored).trans_lt past
        simp only [if_neg before.ne]
  simp [due, takeTimestep, stuck]

end TimeDriver

end Osaka.Time
