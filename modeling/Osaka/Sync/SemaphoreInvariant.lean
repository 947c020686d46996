import Osaka.Sync.BatchSemaphore

set_option autoImplicit false

namespace Osaka.Sync

variable {W : Type}

/-- What dropping the Acquire gives back. -/
def Acquire.held (a : Acquire W) : Nat := if a.queued then a.numPermits - a.node.state else 0

namespace Semaphore

variable {s t : Semaphore W} {i n : Nat}

section Words

theorem availablePermits_eq (s : Semaphore W) : s.availablePermits = PackedWord.count 1 s.state := by
  rw [availablePermits, BitVec.toNat_ushiftRight, Nat.shiftRight_eq_div_pow]
  rfl

theorem isClosed_eq (s : Semaphore W) : s.isClosed = PackedWord.has s.state 0 := rfl

theorem shifted_eq (n : Nat) : BitVec.ofNat 64 n <<< PERMIT_SHIFT = BitVec.ofNat 64 (n * 2 ^ 1) := by
  rw [BitVec.shiftLeft_eq_mul_twoPow, ← BitVec.ofNat_mul_ofNat]
  rfl

theorem shifted_toNat (n : Nat) : (BitVec.ofNat 64 n <<< PERMIT_SHIFT).toNat = 2 * (n % 2 ^ 63) := by
  rw [shifted_eq, BitVec.toNat_ofNat]
  omega

theorem shifted_back (n : Nat) : (BitVec.ofNat 64 n <<< PERMIT_SHIFT >>> PERMIT_SHIFT).toNat = n % 2 ^ 63 := by
  rw [BitVec.toNat_ushiftRight, shifted_toNat, Nat.shiftRight_eq_div_pow, PERMIT_SHIFT]
  omega

theorem open_word (opened : s.isClosed = false) : s.state.toNat = 2 * s.availablePermits := by
  have even : s.state.toNat % 2 = 0 := by
    rw [isClosed_eq, PackedWord.has_eq (by decide), ← BitVec.testBit_toNat, Nat.testBit_zero] at opened
    simpa using opened
  rw [availablePermits_eq, PackedWord.count]
  omega

theorem closed_guard (s : Semaphore W) : s.state &&& CLOSED > 0#64 ↔ s.isClosed = true := by
  have bit : s.state &&& CLOSED = 0#64 ↔ PackedWord.has s.state 0 = false :=
    PackedWord.and_eq_zero (i := 0) (by decide : 0 < 64)
  rw [isClosed_eq]
  constructor
  · intro positive
    by_contra unset
    rw [bit.mpr (by simpa using unset)] at positive
    exact absurd positive (by decide)
  · intro has
    by_contra zero
    have none : s.state &&& CLOSED = 0#64 := by
      rw [gt_iff_lt, BitVec.lt_def] at zero
      apply BitVec.eq_of_toNat_eq
      simpa using zero
    rw [bit.mp none] at has
    exact absurd has (by decide)

end Words

section Held

/-- The permits assigned to waiters that have not been handed out. -/
def heldSum (s : Semaphore W) : Nat := ∑ i ∈ Finset.range s.created, (s.acquires i).held

/-- The permits that the semaphore is in charge of. -/
def balance (s : Semaphore W) : Nat := s.availablePermits + s.heldSum

theorem heldSum_setAcquire {a : Acquire W} (made : i < s.created) :
    (s.setAcquire i a).heldSum + (s.acquires i).held = s.heldSum + a.held := by
  have member : i ∈ Finset.range s.created := Finset.mem_range.mpr made
  have rest := Finset.sum_erase_add (Finset.range s.created) (fun j => (s.acquires j).held) member
  have rest' := Finset.sum_erase_add (Finset.range s.created)
    (fun j => (Function.update s.acquires i a j).held) member
  have same : ∑ j ∈ (Finset.range s.created).erase i, (Function.update s.acquires i a j).held =
      ∑ j ∈ (Finset.range s.created).erase i, (s.acquires j).held := by
    apply Finset.sum_congr rfl
    intro j inside
    rw [Function.update_of_ne (Finset.ne_of_mem_erase inside)]
  simp only [Function.update_self] at rest'
  change ∑ j ∈ Finset.range s.created, (Function.update s.acquires i a j).held + _ = _
  unfold heldSum
  omega

end Held

section Passes

/-- What a pass over the waiters does: those served get all they miss, the one at the front of the others
may get a part. -/
structure Passed (s : Semaphore W) (rem : Nat) (served rest : List Nat) (t : Semaphore W) (left : Nat)
    (wakers : List W) : Prop where
  state : t.state = s.state
  waiters : t.waiters = { s.waiters with list := rest }
  created : t.created = s.created
  kept : ∀ j, j ∉ served → rest.head? ≠ some j → t.acquires j = s.acquires j
  full : ∀ j ∈ served, t.acquires j = { s.acquires j with node := ⟨0, none⟩ }
  front : ∀ j, rest.head? = some j → ∃ missing, 0 < missing ∧ missing ≤ (s.acquires j).node.state ∧
    t.acquires j = { s.acquires j with node := ⟨missing, (s.acquires j).node.waker⟩ }
  spent : rest ≠ [] → left = 0
  wakers : wakers = served.filterMap fun j => (s.acquires j).node.waker
  conserved : t.heldSum + left = s.heldSum + rem

def Waiting (s : Semaphore W) (i : Nat) : Prop :=
  i < s.created ∧ (s.acquires i).queued = true ∧ 0 < (s.acquires i).node.state ∧
    (s.acquires i).node.state ≤ (s.acquires i).numPermits

theorem assignAll_passed (rem : Nat) {list : List Nat} (nodup : list.Nodup)
    (waiting : ∀ j ∈ list, s.Waiting j) :
    ∃ served rest t left wakers, list = served ++ rest ∧ s.assignAll rem list = (t, left, wakers) ∧
      Passed s rem served rest t left wakers := by
  induction list generalizing s rem with
  | nil =>
    refine ⟨[], [], { s with waiters := { s.waiters with list := [] } }, rem, [], rfl, rfl, ?_⟩
    constructor <;> simp [heldSum]
  | cons i list ih =>
    obtain ⟨fresh, nodup⟩ := List.nodup_cons.mp nodup
    obtain ⟨made, queued, missing, most⟩ := waiting i (by simp)
    by_cases enough : (s.acquires i).node.state ≤ rem
    · let u := s.setNode i ⟨0, none⟩
      have others (j : Nat) (other : j ≠ i) : u.acquires j = s.acquires j := Function.update_of_ne other _ _
      have self : u.acquires i = { s.acquires i with node := ⟨0, none⟩ } := Function.update_self ..
      have waiting' : ∀ j ∈ list, u.Waiting j := by
        intro j member
        have other : j ≠ i := fun same => fresh (same ▸ member)
        have before := waiting j (List.mem_cons_of_mem i member)
        unfold Waiting at before ⊢
        rwa [others j other]
      obtain ⟨served, rest, t, left, wakers, split, ran, passed⟩ :=
        ih (s := u) (rem - (s.acquires i).node.state) nodup waiting'
      refine ⟨i :: served, rest, t, left, (s.acquires i).node.waker.toList ++ wakers, by rw [split]; rfl, ?_, ?_⟩
      · simp only [assignAll, Waiter.assignPermits, min_eq_left enough, Nat.sub_self, decide_true, if_true]
        rw [show (s.setNode i ⟨0, none⟩).assignAll (rem - (s.acquires i).node.state) list = _ from ran]
      · have unserved : i ∉ served := fun member => fresh (by rw [split]; exact List.mem_append_left rest member)
        have behind : rest.head? ≠ some i := by
          intro first
          exact fresh (by rw [split]; exact List.mem_append_right served (List.mem_of_head? first))
        have given : u.heldSum + (s.acquires i).held = s.heldSum + (u.acquires i).held := by
          rw [self]
          exact heldSum_setAcquire made
        have before : (s.acquires i).held = (s.acquires i).numPermits - (s.acquires i).node.state := by
          simp [Acquire.held, queued]
        have after : (u.acquires i).held = (s.acquires i).numPermits := by
          simp [self, Acquire.held, queued]
        constructor
        · exact passed.state
        · exact passed.waiters
        · exact passed.created
        · intro j away front
          rw [passed.kept j (fun member => away (List.mem_cons_of_mem i member)) front]
          exact others j (fun same => away (by rw [same]; simp))
        · intro j member
          rcases List.mem_cons.mp member with rfl | later
          · rw [passed.kept j unserved behind, self]
          · have other : j ≠ i := fun same => unserved (same ▸ later)
            rw [passed.full j later, others j other]
        · intro j first
          have other : j ≠ i := fun same => behind (same ▸ first)
          have front := passed.front j first
          rwa [others j other] at front
        · exact passed.spent
        · have same : served.filterMap (fun j => (u.acquires j).node.waker) =
              served.filterMap fun j => (s.acquires j).node.waker := by
            apply List.filterMap_congr
            intro j member
            rw [others j fun same => unserved (same ▸ member)]
          rw [passed.wakers, same]
          cases waker : (s.acquires i).node.waker <;> simp [waker]
        · have conserved := passed.conserved
          omega
    · have short : min (s.acquires i).node.state rem = rem := min_eq_right (by omega)
      let node : Waiter W := ⟨(s.acquires i).node.state - rem, (s.acquires i).node.waker⟩
      let t := { s.setNode i node with waiters := { s.waiters with list := i :: list } }
      refine ⟨[], i :: list, t, 0, [], rfl, ?_, ?_⟩
      · simp only [assignAll, Waiter.assignPermits, short, Nat.sub_self]
        rw [decide_eq_false (by omega)]
        rfl
      · have given : t.heldSum + (s.acquires i).held =
            s.heldSum + Acquire.held { s.acquires i with node := node } := heldSum_setAcquire made
        have before : (s.acquires i).held = (s.acquires i).numPermits - (s.acquires i).node.state := by
          simp [Acquire.held, queued]
        have after : Acquire.held { s.acquires i with node := node } =
            (s.acquires i).numPermits - ((s.acquires i).node.state - rem) := by
          simp [Acquire.held, queued, node]
        constructor
        · rfl
        · rfl
        · rfl
        · intro j _ behind
          exact Function.update_of_ne (fun same => behind (by rw [same]; rfl)) _ _
        · simp
        · intro j first
          obtain rfl : i = j := by simpa using first
          exact ⟨(s.acquires i).node.state - rem, by omega, by omega, Function.update_self ..⟩
        · simp
        · simp
        · omega

end Passes

section Invariant

structure WellFormed (s : Semaphore W) : Prop where
  closed : s.isClosed = s.waiters.closed
  nodup : s.waiters.list.Nodup
  waiting : ∀ i ∈ s.waiters.list, s.Waiting i
  waker : ∀ i ∈ s.waiters.list, (s.acquires i).node.waker ≠ none
  unserved : ∀ i, (s.acquires i).queued = true → 0 < (s.acquires i).node.state →
    i ∈ s.waiters.list ∨ s.waiters.closed = true
  empty : s.waiters.closed = true → s.waiters.list = []
  busy : s.waiters.list ≠ [] → s.availablePermits = 0
  -- Only the oldest waiter has got a part.
  partly : ∀ i ∈ s.waiters.list.tail, (s.acquires i).node.state = (s.acquires i).numPermits
  fresh : ∀ i, (s.acquires i).queued = false → (s.acquires i).completed = false →
    (s.acquires i).node.state = (s.acquires i).numPermits
  bounded : ∀ i, (s.acquires i).node.state ≤ (s.acquires i).numPermits
  asked : ∀ i, (s.acquires i).numPermits ≤ MAX_PERMIT
  done : ∀ i, (s.acquires i).completed = true → (s.acquires i).queued = false
  unmade : ∀ i, s.created ≤ i → (s.acquires i).completed = true

structure Formed (s : Semaphore W) : Prop where
  closed : s.isClosed = s.waiters.closed
  nodup : s.waiters.list.Nodup
  waiting : ∀ i ∈ s.waiters.list, s.Waiting i
  waker : ∀ i ∈ s.waiters.list, (s.acquires i).node.waker ≠ none
  unserved : ∀ i, (s.acquires i).queued = true → 0 < (s.acquires i).node.state →
    i ∈ s.waiters.list ∨ s.waiters.closed = true
  empty : s.waiters.closed = true → s.waiters.list = []
  busy : s.waiters.list ≠ [] → s.availablePermits = 0
  partly : ∀ i ∈ s.waiters.list.tail, (s.acquires i).node.state = (s.acquires i).numPermits
  fresh : ∀ i, (s.acquires i).queued = false → (s.acquires i).completed = false →
    (s.acquires i).node.state = (s.acquires i).numPermits
  bounded : ∀ i, (s.acquires i).node.state ≤ (s.acquires i).numPermits
  done : ∀ i, (s.acquires i).completed = true → (s.acquires i).queued = false
  unmade : ∀ i, s.created ≤ i → (s.acquires i).completed = true

theorem WellFormed.formed (wf : s.WellFormed) : s.Formed :=
  ⟨wf.closed, wf.nodup, wf.waiting, wf.waker, wf.unserved, wf.empty, wf.busy, wf.partly, wf.fresh, wf.bounded, wf.done,
    wf.unmade⟩

theorem Formed.wellFormed (formed : s.Formed) (asked : ∀ i, (s.acquires i).numPermits ≤ MAX_PERMIT) : s.WellFormed :=
  ⟨formed.closed, formed.nodup, formed.waiting, formed.waker, formed.unserved, formed.empty, formed.busy, formed.partly,
    formed.fresh, formed.bounded, asked, formed.done, formed.unmade⟩

structure Served (s : Semaphore W) (served rest : List Nat) (t : Semaphore W) (wakers : List W) : Prop where
  split : s.waiters.list = served ++ rest
  waiters : t.waiters = { s.waiters with list := rest }
  closed : t.isClosed = s.isClosed
  created : t.created = s.created
  kept : ∀ j, j ∉ served → rest.head? ≠ some j → t.acquires j = s.acquires j
  full : ∀ j ∈ served, t.acquires j = { s.acquires j with node := ⟨0, none⟩ }
  front : ∀ j, rest.head? = some j → ∃ missing, 0 < missing ∧ missing ≤ (s.acquires j).node.state ∧
    t.acquires j = { s.acquires j with node := ⟨missing, (s.acquires j).node.waker⟩ }
  wakers : wakers = served.filterMap fun j => (s.acquires j).node.waker
  busy : rest ≠ [] → t.availablePermits = 0

structure Released (s : Semaphore W) (added : Nat) (served rest : List Nat) (t : Semaphore W)
    (wakers : List W) : Prop where
  split : s.waiters.list = served ++ rest
  waiters : t.waiters = { s.waiters with list := rest }
  closed : t.isClosed = s.isClosed
  created : t.created = s.created
  kept : ∀ j, j ∉ served → rest.head? ≠ some j → t.acquires j = s.acquires j
  full : ∀ j ∈ served, t.acquires j = { s.acquires j with node := ⟨0, none⟩ }
  front : ∀ j, rest.head? = some j → ∃ missing, 0 < missing ∧ missing ≤ (s.acquires j).node.state ∧
    t.acquires j = { s.acquires j with node := ⟨missing, (s.acquires j).node.waker⟩ }
  wakers : wakers = served.filterMap fun j => (s.acquires j).node.waker
  balance : t.balance = s.balance + added
  busy : rest ≠ [] → t.availablePermits = 0

section Serving

variable {added : Nat} {served rest : List Nat} {wakers : List W}

theorem Released.serves (released : Released s added served rest t wakers) : Served s served rest t wakers :=
  ⟨released.split, released.waiters, released.closed, released.created, released.kept, released.full, released.front,
    released.wakers, released.busy⟩

theorem Served.released (done : Served s served rest t wakers) (balance : t.balance = s.balance + added) :
    Released s added served rest t wakers :=
  ⟨done.split, done.waiters, done.closed, done.created, done.kept, done.full, done.front, done.wakers, balance,
    done.busy⟩

theorem Served.cases (done : Served s served rest t wakers) (j : Nat) :
    t.acquires j = s.acquires j ∨ j ∈ served ∧ t.acquires j = { s.acquires j with node := ⟨0, none⟩ } ∨
      rest.head? = some j ∧ ∃ missing, 0 < missing ∧ missing ≤ (s.acquires j).node.state ∧
        t.acquires j = { s.acquires j with node := ⟨missing, (s.acquires j).node.waker⟩ } := by
  by_cases served : j ∈ served
  · exact .inr (.inl ⟨served, done.full j served⟩)
  · by_cases front : rest.head? = some j
    · exact .inr (.inr ⟨front, done.front j front⟩)
    · exact .inl (done.kept j served front)

theorem Released.cases (released : Released s added served rest t wakers) (j : Nat) :
    t.acquires j = s.acquires j ∨ j ∈ served ∧ t.acquires j = { s.acquires j with node := ⟨0, none⟩ } ∨
      rest.head? = some j ∧ ∃ missing, 0 < missing ∧ missing ≤ (s.acquires j).node.state ∧
        t.acquires j = { s.acquires j with node := ⟨missing, (s.acquires j).node.waker⟩ } :=
  released.serves.cases j

theorem Served.same (done : Served s served rest t wakers) (j : Nat) :
    (t.acquires j).queued = (s.acquires j).queued ∧ (t.acquires j).completed = (s.acquires j).completed ∧
      (t.acquires j).numPermits = (s.acquires j).numPermits ∧
      (t.acquires j).node.state ≤ (s.acquires j).node.state := by
  rcases done.cases j with kept | ⟨_, full⟩ | ⟨_, missing, _, most, front⟩
  · simp [kept]
  · simp [full]
  · simpa [front] using most

theorem Released.same (released : Released s added served rest t wakers) (j : Nat) :
    (t.acquires j).queued = (s.acquires j).queued ∧ (t.acquires j).completed = (s.acquires j).completed ∧
      (t.acquires j).numPermits = (s.acquires j).numPermits ∧
      (t.acquires j).node.state ≤ (s.acquires j).node.state :=
  released.serves.same j

theorem Served.formed (formed : s.Formed) (done : Served s served rest t wakers) : t.Formed := by
  have split := done.split
  have nodup := formed.nodup
  rw [split] at nodup
  have apart (j : Nat) (behind : j ∈ rest) : j ∉ served :=
    fun before => (List.nodup_append.mp nodup).2.2 j before j behind rfl
  have before (j : Nat) (behind : j ∈ rest) : j ∈ s.waiters.list := by
    rw [split]
    exact List.mem_append_right served behind
  have list : t.waiters.list = rest := by rw [done.waiters]
  have shut : t.waiters.closed = s.waiters.closed := by rw [done.waiters]
  constructor
  · rw [done.closed, formed.closed, shut]
  · rw [list]
    exact (List.nodup_append.mp nodup).2.1
  · intro j member
    rw [list] at member
    obtain ⟨made, queued, missing, most⟩ := formed.waiting j (before j member)
    obtain ⟨queued', _, asked, less⟩ := done.same j
    refine ⟨by rw [done.created]; exact made, by rw [queued', queued], ?_, by rw [asked]; omega⟩
    rcases done.cases j with kept | ⟨served, _⟩ | ⟨_, left, some, _, front⟩
    · rw [kept]
      exact missing
    · exact absurd served (apart j member)
    · rw [front]
      exact some
  · intro j member
    rw [list] at member
    have stored := formed.waker j (before j member)
    rcases done.cases j with kept | ⟨served, _⟩ | ⟨_, left, _, _, front⟩
    · rw [kept]
      exact stored
    · exact absurd served (apart j member)
    · rw [front]
      exact stored
  · intro j queued missing
    rw [list, shut]
    obtain ⟨queued', _, _, less⟩ := done.same j
    rcases formed.unserved j (by rw [← queued', queued]) (by omega) with listed | closed
    · rw [split] at listed
      rcases List.mem_append.mp listed with served | behind
      · rw [done.full j served] at missing
        simp at missing
      · exact .inl behind
    · exact .inr closed
  · intro closed
    have empty := formed.empty (by rw [← shut, closed])
    rw [list]
    exact (List.append_eq_nil_iff.mp (split ▸ empty)).2
  · rw [list]
    exact done.busy
  · intro j member
    rw [list] at member
    have behind := List.mem_of_mem_tail member
    have later : j ∈ s.waiters.list.tail := by
      rw [split]
      cases served with
      | nil => exact member
      | cons first served => exact List.mem_append_right served behind
    have second : rest.head? ≠ some j := by
      intro first
      cases rest with
      | nil => simp at first
      | cons i rest =>
        obtain rfl : i = j := by simpa using first
        exact (List.nodup_cons.mp (List.nodup_append.mp nodup).2.1).1 member
    rw [done.kept j (apart j behind) second]
    exact formed.partly j later
  · intro j unqueued uncompleted
    obtain ⟨queued', completed', _, _⟩ := done.same j
    have unlisted : j ∉ s.waiters.list := by
      intro listed
      have queued := (formed.waiting j listed).2.1
      rw [← queued', unqueued] at queued
      exact absurd queued (by decide)
    rw [split, List.mem_append, not_or] at unlisted
    have kept := done.kept j unlisted.1 fun first => unlisted.2 (List.mem_of_head? first)
    rw [kept] at unqueued uncompleted ⊢
    exact formed.fresh j unqueued uncompleted
  · intro j
    obtain ⟨_, _, asked, less⟩ := done.same j
    rw [asked]
    exact less.trans (formed.bounded j)
  · intro j completed
    obtain ⟨queued', completed', _, _⟩ := done.same j
    rw [queued']
    exact formed.done j (by rw [← completed', completed])
  · intro j unmade
    rw [(done.same j).2.1]
    exact formed.unmade j (by rw [← done.created]; exact unmade)

theorem Released.wellFormed (wf : s.WellFormed) (released : Released s added served rest t wakers) : t.WellFormed := by
  refine (released.serves.formed wf.formed).wellFormed fun j => ?_
  rw [(released.same j).2.2.1]
  exact wf.asked j

end Serving

theorem isClosed_odd (s : Semaphore W) : s.isClosed = decide (s.state.toNat % 2 = 1) := by
  rw [isClosed_eq, PackedWord.has_eq (by decide), ← BitVec.testBit_toNat, Nat.testBit_zero]

theorem availablePermits_add (added : Nat) :
    ({ s with state := s.state + BitVec.ofNat 64 added <<< PERMIT_SHIFT } : Semaphore W).availablePermits =
      (s.availablePermits + added) % 2 ^ 63 := by
  rw [availablePermits_eq, availablePermits_eq, PackedWord.count, PackedWord.count, shifted_eq, BitVec.toNat_add,
    BitVec.toNat_ofNat]
  omega

theorem isClosed_add (added : Nat) :
    ({ s with state := s.state + BitVec.ofNat 64 added <<< PERMIT_SHIFT } : Semaphore W).isClosed =
      s.isClosed := by
  rw [isClosed_odd, isClosed_odd, shifted_eq, BitVec.toNat_add, BitVec.toNat_ofNat]
  have same : (s.state.toNat + added * 2 ^ 1 % 2 ^ 64) % 2 ^ 64 % 2 = s.state.toNat % 2 := by omega
  rw [same]

def missing (s : Semaphore W) : Nat := (s.waiters.list.map fun i => (s.acquires i).node.state).sum

theorem assignAll_left (rem : Nat) {list : List Nat} (nodup : list.Nodup) :
    (s.assignAll rem list).2.1 = rem - (list.map fun i => (s.acquires i).node.state).sum := by
  induction list generalizing s rem with
  | nil => simp [assignAll]
  | cons i list ih =>
    obtain ⟨fresh, nodup⟩ := List.nodup_cons.mp nodup
    by_cases enough : (s.acquires i).node.state ≤ rem
    · have others : list.map (fun j => ((s.setNode i ⟨0, none⟩).acquires j).node.state) =
          list.map fun j => (s.acquires j).node.state := by
        apply List.map_congr_left
        intro j member
        have other : j ≠ i := fun same => fresh (same ▸ member)
        have kept : (s.setNode i ⟨0, none⟩).acquires j = s.acquires j := Function.update_of_ne other _ _
        rw [kept]
      have later := ih (s := s.setNode i ⟨0, none⟩) (rem - (s.acquires i).node.state) nodup
      simp only [assignAll, Waiter.assignPermits, min_eq_left enough, Nat.sub_self, decide_true, if_true,
        List.map_cons, List.sum_cons]
      rw [← Nat.sub_sub, ← others]
      exact later
    · have short : min (s.acquires i).node.state rem = rem := min_eq_right (by omega)
      have missing : ¬(s.acquires i).node.state - rem = 0 := by omega
      simp only [assignAll, Waiter.assignPermits, short, Nat.sub_self, decide_eq_false missing, List.map_cons,
        List.sum_cons]
      simp only [Bool.false_eq_true, if_false]
      omega

/-- What a failed assertion leaves: the waiters have been served, and the surplus and the wakers are lost. -/
def addPermitsUnwound (s : Semaphore W) (rem : Nat) : Semaphore W := (s.assignAll rem s.waiters.list).1

/-- Only what the waiters leave over is looked at, and it may not fit. -/
theorem addPermitsLocked_cases (rem : Nat) (formed : s.Formed) : ∃ served rest wakers t,
    Served s served rest t wakers ∧ t.heldSum + (rem - s.missing) = s.heldSum + rem ∧
      (rest ≠ [] → rem - s.missing = 0) ∧
      (rem - s.missing < MAX_PERMIT ∧ s.addPermitsLocked rem = .ok (t, wakers) ∧
          t.availablePermits = (s.availablePermits + (rem - s.missing)) % 2 ^ 63 ∨
        MAX_PERMIT ≤ rem - s.missing ∧ s.addPermitsLocked rem = .error .tooMany ∧
          s.addPermitsUnwound rem = t ∧ t.state = s.state) := by
  have within : s.availablePermits < 2 ^ 63 := by
    rw [availablePermits_eq, PackedWord.count]
    omega
  by_cases none : rem = 0
  · refine ⟨[], s.waiters.list, [], s, ?_, by omega, by omega, Or.inl ⟨?_, by rw [addPermitsLocked, if_pos none], ?_⟩⟩
    · constructor <;> try simp
      · intro j first
        exact ⟨(s.acquires j).node.state, (formed.waiting j (List.mem_of_head? first)).2.2.1, le_refl _, rfl⟩
      · exact formed.busy
    · rw [none, Nat.zero_sub]
      decide
    · rw [none, Nat.zero_sub, Nat.add_zero, Nat.mod_eq_of_lt within]
  · obtain ⟨served, rest, u, left, wakers, split, ran, passed⟩ := assignAll_passed rem formed.nodup formed.waiting
    have remains : left = rem - s.missing := by
      have left' := assignAll_left (s := s) rem formed.nodup
      rwa [ran] at left'
    have available : u.availablePermits = s.availablePermits := by rw [availablePermits, passed.state]; rfl
    have shut : u.isClosed = s.isClosed := by rw [isClosed, passed.state]; rfl
    have list : u.waiters.list = rest := by rw [passed.waiters]
    have busy (waits : rest ≠ []) : u.availablePermits = 0 := by
      rw [available]
      exact formed.busy (by rw [split]; simp [waits])
    have done : Served s served rest u wakers :=
      ⟨split, passed.waiters, shut, passed.created, passed.kept, passed.full, passed.front, passed.wakers, busy⟩
    have unwound : s.addPermitsUnwound rem = u := by rw [addPermitsUnwound, ran]
    rw [← remains, addPermitsLocked, if_neg none]
    simp only [ran, list]
    by_cases surplus : left > 0 ∧ rest = []
    · rw [if_pos surplus]
      by_cases fits : left < MAX_PERMIT
      · rw [if_pos fits]
        refine ⟨served, rest, wakers, { u with state := u.state + BitVec.ofNat 64 left <<< PERMIT_SHIFT }, ?_,
          passed.conserved, passed.spent, Or.inl ⟨fits, rfl, ?_⟩⟩
        · exact ⟨split, passed.waiters, (isClosed_add left).trans shut, passed.created, passed.kept, passed.full,
            passed.front, passed.wakers, fun waits => absurd surplus.2 waits⟩
        · rw [availablePermits_add, available]
      · rw [if_neg fits]
        exact ⟨served, rest, wakers, u, done, passed.conserved, passed.spent,
          Or.inr ⟨by omega, rfl, unwound, passed.state⟩⟩
    · have spent : left = 0 := by
        by_contra more
        exact more (passed.spent fun empty => surplus ⟨by omega, empty⟩)
      rw [if_neg surplus]
      refine ⟨served, rest, wakers, u, done, passed.conserved, passed.spent, Or.inl ⟨?_, rfl, ?_⟩⟩
      · rw [spent]
        decide
      · rw [available, spent, Nat.add_zero, Nat.mod_eq_of_lt within]

theorem addPermitsLocked_released (rem : Nat) (wf : s.WellFormed) (small : s.balance + rem < MAX_PERMIT) :
    ∃ served rest t wakers, s.addPermitsLocked rem = .ok (t, wakers) ∧ Released s rem served rest t wakers := by
  have bound : MAX_PERMIT = 2305843009213693951 := rfl
  unfold balance at small
  obtain ⟨served, rest, wakers, t, done, conserved, _, fits | fails⟩ := addPermitsLocked_cases rem wf.formed
  · obtain ⟨_, ran, available⟩ := fits
    rw [Nat.mod_eq_of_lt (by omega)] at available
    refine ⟨served, rest, t, wakers, ran, done.released ?_⟩
    unfold balance
    omega
  · omega

end Invariant

end Semaphore

end Osaka.Sync
