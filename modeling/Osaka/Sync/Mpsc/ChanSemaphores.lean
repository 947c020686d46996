import Osaka.Sync.Mpsc.Chan
import Osaka.Sync.SemaphoreSteps

set_option autoImplicit false

namespace Osaka.Sync.Mpsc

variable {T W : Type}

/-- A semaphore of `bound` permits, `missing` of which are outside, with Acquires of one permit each. -/
structure Lends (s : Semaphore W) (bound : Nat) (closed : Bool) (missing : Nat) : Prop where
  wellFormed : s.WellFormed
  closed : s.isClosed = closed
  balance : s.balance + missing = bound
  small : bound < MAX_PERMIT
  single : ∀ i, (s.acquires i).completed = false → (s.acquires i).numPermits = 1

section Bounded

variable {s t : Semaphore W} {bound missing i : Nat} {closed : Bool}

theorem Lends.fits (lends : Lends s bound closed missing) : s.balance < MAX_PERMIT := by
  have balance := lends.balance
  have small := lends.small
  omega

theorem Lends.unwaited (lends : Lends s bound closed missing) (shut : closed = true) : s.waiters.list = [] :=
  lends.wellFormed.empty (by rw [← lends.wellFormed.closed, lends.closed, shut])

theorem Lends.follows (lends : Lends s bound closed missing) (follows : s.Follows t) {missing' : Nat}
    (balance : t.balance + missing' = bound) : Lends t bound closed missing' := by
  constructor
  · exact follows.wellFormed
  · exact follows.closed.trans lends.closed
  · exact balance
  · exact lends.small
  · intro j unfinished
    rw [follows.asked j]
    exact lends.single j (follows.unfinished j unfinished)

theorem held_done (wf : s.WellFormed) (completed : (s.acquires i).completed = true) : (s.acquires i).held = 0 := by
  have unqueued := wf.done i completed
  simp [Acquire.held, unqueued]

theorem Lends.held_le (lends : Lends s bound closed missing) (i : Nat) : (s.acquires i).held ≤ 1 := by
  cases completed : (s.acquires i).completed with
  | true =>
    rw [held_done lends.wellFormed completed]
    exact Nat.zero_le 1
  | false =>
    have single := lends.single i completed
    unfold Acquire.held
    split <;> omega

theorem released_unwaited {added : Nat} {served rest : List Nat} {wakers : List W} (empty : s.waiters.list = [])
    (released : Semaphore.Released s added served rest t wakers) : t.heldSum = s.heldSum ∧ wakers = [] := by
  have split := released.split
  rw [empty] at split
  obtain ⟨none, none'⟩ := List.append_eq_nil_iff.mp split.symm
  refine ⟨?_, by rw [released.wakers, none]; rfl⟩
  unfold Semaphore.heldSum
  rw [released.created]
  apply Finset.sum_congr rfl
  intro j _
  rw [released.kept j (by simp [none]) (by simp [none'])]

theorem Lends.drop (lends : Lends s bound closed missing) (made : i < s.created) :
    ∃ t wakers, s.dropAcquire i = .ok (t, wakers) ∧ Lends t bound closed missing ∧
      (∀ j, (t.acquires j).completed = false ↔ j ≠ i ∧ (s.acquires j).completed = false) ∧
      (closed = true → t.heldSum + (s.acquires i).held = s.heldSum ∧ wakers = []) := by
  have wf := lends.wellFormed
  obtain ⟨served, rest, t, wakers, ran, released⟩ := Semaphore.dropAcquire_released wf made lends.fits
  have changed := Semaphore.cancelled_changed s i
  have back := Semaphore.cancelled_balance made
  have balance := released.balance
  have total := lends.balance
  refine ⟨t, wakers, ran, lends.follows (Semaphore.dropped_follows wf released) (by omega), ?_, ?_⟩
  · intro j
    rw [(released.same j).2.1, changed.apply]
    by_cases same : j = i <;> simp [same]
  · intro shut
    have empty : (s.cancelled i).waiters.list = [] := by
      rw [changed.waiters, lends.unwaited shut]
      rfl
    obtain ⟨kept, none⟩ := released_unwaited empty released
    have held := changed.heldSum made
    have nothing : Acquire.held { s.acquires i with queued := false, completed := true } = 0 := rfl
    exact ⟨by omega, none⟩

theorem dropAcquire_done (unqueued : (s.acquires i).queued = false) (completed : (s.acquires i).completed = true) :
    s.dropAcquire i = .ok (s, []) := by
  have same : ({ s.acquires i with queued := false, completed := true } : Acquire W) = s.acquires i := by
    rw [← unqueued, ← completed]
  rw [Semaphore.dropAcquire, if_pos unqueued, same, Semaphore.setAcquire_self]

end Bounded

namespace ChanSemaphore

variable {sem sem' : ChanSemaphore W} {missing i : Nat} {closed : Bool}

def Lends : ChanSemaphore W → Bool → Nat → Prop
  | .bounded s bound, closed, missing => Mpsc.Lends s bound closed missing
  | .unbounded state, closed, missing => PackedWord.has state 0 = closed ∧ PackedWord.count 1 state = missing

def buffer : ChanSemaphore W → Option Nat
  | .bounded _ bound => some bound
  | .unbounded _ => none

def Pending : ChanSemaphore W → Nat → Prop
  | .bounded s _, i => (s.acquires i).completed = false
  | .unbounded _, _ => False

def share : ChanSemaphore W → Nat → Nat
  | .bounded s _, i => (s.acquires i).held
  | .unbounded _, _ => 0

def shares : ChanSemaphore W → Nat
  | .bounded s _ => s.heldSum
  | .unbounded _ => 0

/-- Whether all but one of the permits are available. -/
def lastOut : ChanSemaphore W → Bool
  | .bounded s bound => s.availablePermits + 1 == bound
  | .unbounded _ => false

structure Alike (sem sem' : ChanSemaphore W) : Prop where
  buffer : sem'.buffer = sem.buffer
  pending : ∀ i, sem'.Pending i ↔ sem.Pending i

theorem Alike.refl (sem : ChanSemaphore W) : Alike sem sem := ⟨rfl, fun _ => Iff.rfl⟩

theorem Alike.trans {sem'' : ChanSemaphore W} (alike : Alike sem sem') (alike' : Alike sem' sem'') :
    Alike sem sem'' :=
  ⟨alike'.buffer.trans alike.buffer, fun i => (alike'.pending i).trans (alike.pending i)⟩

structure Without (sem : ChanSemaphore W) (i : Nat) (sem' : ChanSemaphore W) : Prop where
  buffer : sem'.buffer = sem.buffer
  pending : ∀ j, sem'.Pending j ↔ j ≠ i ∧ sem.Pending j

theorem no_messages_iff (state : BitVec 64) : state >>> 1 = 0#64 ↔ PackedWord.count 1 state = 0 := by
  rw [← BitVec.toNat_inj, BitVec.toNat_ushiftRight, Nat.shiftRight_eq_div_pow]
  rfl

theorem pending_bounded (pending : sem.Pending i) : sem.buffer ≠ none := by
  cases sem with
  | bounded s bound => simp [buffer]
  | unbounded state => exact absurd pending id

theorem isClosed_eq (lends : sem.Lends closed missing) : sem.isClosed = closed := by
  cases sem with
  | bounded s bound => exact lends.closed
  | unbounded state => exact lends.1

theorem isIdle_iff (lends : sem.Lends closed missing) : sem.isIdle = true ↔ missing = 0 ∧ sem.shares = 0 := by
  cases sem with
  | bounded s bound =>
    have balance : s.availablePermits + s.heldSum + missing = bound := lends.balance
    simp only [isIdle, shares, beq_iff_eq]
    omega
  | unbounded state =>
    obtain ⟨has, count⟩ := lends
    simp only [isIdle, shares, beq_iff_eq, no_messages_iff, count, and_true]

theorem lastOut_iff (lends : sem.Lends closed missing) (bounded : sem.buffer ≠ none) :
    sem.lastOut = true ↔ missing + sem.shares = 1 := by
  cases sem with
  | bounded s bound =>
    have balance : s.availablePermits + s.heldSum + missing = bound := lends.balance
    simp only [lastOut, shares, beq_iff_eq]
    omega
  | unbounded state => exact absurd rfl bounded

theorem share_le (lends : sem.Lends closed missing) (i : Nat) : sem.share i ≤ 1 := by
  cases sem with
  | bounded s bound => exact Lends.held_le lends i
  | unbounded state => exact Nat.zero_le 1

theorem shares_eq_zero_iff (lends : sem.Lends closed missing) :
    sem.shares = 0 ↔ ∀ i, sem.Pending i → sem.share i = 0 := by
  cases sem with
  | bounded s bound =>
    have sum : s.heldSum = 0 ↔ ∀ i ∈ Finset.range s.created, (s.acquires i).held = 0 := Finset.sum_eq_zero_iff
    constructor
    · intro none i pending
      exact sum.mp none i (Finset.mem_range.mpr (Semaphore.made_of lends.wellFormed.formed pending))
    · intro none
      apply sum.mpr
      intro i _
      cases completed : (s.acquires i).completed with
      | true => exact held_done lends.wellFormed completed
      | false => exact none i completed
  | unbounded state => exact ⟨fun _ _ _ => rfl, fun _ => rfl⟩

theorem shares_eq_zero (lends : sem.Lends closed missing) (none : ∀ i, ¬sem.Pending i) : sem.shares = 0 :=
  (shares_eq_zero_iff lends).mpr fun i pending => absurd pending (none i)

theorem addPermit_spec (lends : sem.Lends closed (missing + 1)) :
    ∃ sem' wakers, sem.addPermit = .ok (sem', wakers) ∧ sem'.Lends closed missing ∧ Alike sem sem' ∧
      (closed = true → sem'.shares = sem.shares) := by
  cases sem with
  | bounded s bound =>
    have balance := lends.balance
    have small := lends.small
    obtain ⟨served, rest, t, wakers, ran, released⟩ :=
      Semaphore.release_released 1 lends.wellFormed (by omega : s.balance + 1 < MAX_PERMIT)
    have after := released.balance
    refine ⟨.bounded t bound, wakers, ?_, lends.follows (released.follows lends.wellFormed) (by omega), ⟨rfl, ?_⟩, ?_⟩
    · rw [addPermit, ran]
      rfl
    · intro i
      simp only [Pending, (released.same i).2.1]
    · intro shut
      exact (released_unwaited (lends.unwaited shut) released).1
  | unbounded state =>
    obtain ⟨has, count⟩ := lends
    have some : 1 ≤ PackedWord.count 1 state := by omega
    have nonzero : ¬state >>> 1 = 0#64 := by
      rw [no_messages_iff]
      omega
    have flag : PackedWord.has (state - 2#64) 0 = PackedWord.has state 0 :=
      PackedWord.has_sub (n := 1) (k := 1) (by decide) (by decide) some
    have less : PackedWord.count 1 (state - 2#64) = PackedWord.count 1 state - 1 :=
      PackedWord.count_sub (n := 1) some
    refine ⟨.unbounded (state - 2#64), [], ?_, ⟨flag.trans has, ?_⟩, ⟨rfl, fun _ => Iff.rfl⟩, fun _ => rfl⟩
    · rw [addPermit, if_neg nonzero]
    · rw [less, count]
      rfl

theorem close_spec (lends : sem.Lends closed missing) : sem.close.1.Lends true missing ∧ Alike sem sem.close.1 := by
  cases sem with
  | bounded s bound =>
    have shut := Semaphore.close_shut lends.wellFormed.formed
    have same := shut.same
    refine ⟨⟨shut.wellFormed lends.wellFormed, shut.closed, ?_, lends.small, ?_⟩, rfl, ?_⟩
    · rw [shut.balance]
      exact lends.balance
    · intro i unfinished
      rw [(same i).2.2.1]
      exact lends.single i (by rw [← (same i).2.1]; exact unfinished)
    · intro i
      simp only [Pending, close, (same i).2.1]
  | unbounded state =>
    obtain ⟨has, count⟩ := lends
    refine ⟨⟨?_, ?_⟩, rfl, fun _ => Iff.rfl⟩
    · exact PackedWord.has_set (x := state) (i := 0) (j := 0) (by decide) (by decide)
    · exact (PackedWord.count_set (x := state) (i := 0) (by decide)).trans count

theorem close_shares (lends : sem.Lends closed missing) : sem.close.1.shares = sem.shares := by
  cases sem with
  | bounded s bound =>
    have shut := Semaphore.close_shut lends.wellFormed.formed
    have balance : s.close.1.availablePermits + s.close.1.heldSum = s.availablePermits + s.heldSum := shut.balance
    have available := shut.available
    simp only [close, shares]
    omega
  | unbounded state => rfl

end ChanSemaphore

section Capacity

variable {c : Chan T W} {missing i : Nat} {closed : Bool}

theorem tryAcquire_spec (lends : c.semaphore.Lends closed missing) (bounded : c.isBounded = true) :
    closed = true ∧ c.tryAcquire = .ok (.error .closed, c) ∨
    closed = false ∧ c.tryAcquire = .ok (.error .noPermits, c) ∨
    closed = false ∧ ∃ sem, c.tryAcquire = .ok (.ok (), { c with semaphore := sem }) ∧
      sem.Lends closed (missing + 1) ∧ c.semaphore.Alike sem := by
  obtain ⟨list, sem, rxWaker, txCount, rxClosed⟩ := c
  cases sem with
  | unbounded state => simp [Chan.isBounded] at bounded
  | bounded s bound =>
    have open_iff : s.isClosed = closed := lends.closed
    have balance : s.balance + missing = bound := lends.balance
    obtain ⟨result, t, ran, tried⟩ := Semaphore.tryAcquire_tried (s := s) (n := 1) (by decide)
    have follows := tried.follows lends.wellFormed
    have paid := tried.balance
    cases tried with
    | closed shut same =>
      refine .inl ⟨by rw [← open_iff, shut], ?_⟩
      simp only [Chan.tryAcquire, ran, same]
      rfl
    | noPermits opened short same =>
      refine .inr (.inl ⟨by rw [← open_iff, opened], ?_⟩)
      simp only [Chan.tryAcquire, ran, same]
      rfl
    | taken opened opened' waiters acquires created available =>
      simp only [if_true] at paid
      refine .inr (.inr ⟨by rw [← open_iff, opened], .bounded t bound, ?_, ?_, rfl, ?_⟩)
      · simp only [Chan.tryAcquire, ran]
        rfl
      · exact Lends.follows lends follows (by omega)
      · intro j
        simp only [ChanSemaphore.Pending, acquires]

theorem acquire_spec (lends : c.semaphore.Lends closed missing) (bounded : c.isBounded = true) :
    ∃ i sem, c.acquire = .ok (i, { c with semaphore := sem }) ∧ sem.Lends closed missing ∧
      sem.buffer = c.semaphore.buffer ∧ ¬c.semaphore.Pending i ∧
      (∀ j, sem.Pending j ↔ j = i ∨ c.semaphore.Pending j) ∧ sem.shares = c.semaphore.shares := by
  obtain ⟨list, sem, rxWaker, txCount, rxClosed⟩ := c
  cases sem with
  | unbounded state => simp [Chan.isBounded] at bounded
  | bounded s bound =>
    have unmade : (s.acquires s.created).completed = true := lends.wellFormed.unmade _ (le_refl _)
    have kept : (s.acquire 1).availablePermits + (s.acquire 1).heldSum = s.availablePermits + s.heldSum :=
      Semaphore.acquire_balance s 1
    have available : (s.acquire 1).availablePermits = s.availablePermits := rfl
    refine ⟨s.created, .bounded (s.acquire 1) bound, rfl, ?_, rfl, by simp [ChanSemaphore.Pending, unmade], ?_, ?_⟩
    · constructor
      · exact Semaphore.acquire_wellFormed lends.wellFormed (by decide)
      · exact lends.closed
      · rw [Semaphore.acquire_balance]
        exact lends.balance
      · exact lends.small
      · intro j unfinished
        rw [Semaphore.acquire_acquires] at unfinished ⊢
        split
        next => rfl
        next other =>
          rw [if_neg other] at unfinished
          exact lends.single j unfinished
    · intro j
      simp only [ChanSemaphore.Pending, Semaphore.acquire_acquires]
      by_cases same : j = s.created <;> simp [same, Acquire.new]
    · simp only [ChanSemaphore.shares]
      omega

theorem dropAcquire_spec (lends : c.semaphore.Lends closed missing) (pending : c.semaphore.Pending i) :
    ∃ sem wakers, c.dropAcquire i = .ok ({ c with semaphore := sem }, wakers) ∧ sem.Lends closed missing ∧
      c.semaphore.Without i sem ∧
      (closed = true → sem.shares + c.semaphore.share i = c.semaphore.shares) := by
  obtain ⟨list, sem, rxWaker, txCount, rxClosed⟩ := c
  cases sem with
  | unbounded state => exact absurd pending id
  | bounded s bound =>
    obtain ⟨t, wakers, ran, after, rest, shares⟩ := Lends.drop lends (Semaphore.made_of lends.wellFormed.formed pending)
    refine ⟨.bounded t bound, wakers, ?_, after, ⟨rfl, rest⟩, fun shut => (shares shut).1⟩
    simp only [Chan.dropAcquire, ran]
    rfl

theorem pollAcquire_spec [Wakers W] (lends : c.semaphore.Lends closed missing) (pending : c.semaphore.Pending i)
    (waker : W) :
    (closed = false ∧ ∃ sem, c.pollAcquire i waker = .ok (.pending, { c with semaphore := sem }, []) ∧
      sem.Lends closed missing ∧ c.semaphore.Alike sem) ∨
    (closed = false ∧ ∃ sem, c.pollAcquire i waker = .ok (.ready (.ok ()), { c with semaphore := sem }, []) ∧
      sem.Lends closed (missing + 1) ∧ c.semaphore.Without i sem) ∨
    (closed = true ∧ ∃ sem, c.pollAcquire i waker = .ok (.ready (.error ()), { c with semaphore := sem }, []) ∧
      sem.Lends closed missing ∧ c.semaphore.Without i sem ∧
      sem.shares + c.semaphore.share i = c.semaphore.shares) := by
  obtain ⟨list, sem, rxWaker, txCount, rxClosed⟩ := c
  cases sem with
  | unbounded state => exact absurd pending id
  | bounded s bound =>
    have wf := lends.wellFormed
    have open_iff : s.isClosed = closed := lends.closed
    have balance : s.balance + missing = bound := lends.balance
    have single : (s.acquires i).numPermits = 1 := lends.single i pending
    obtain ⟨result, t, ran, polled⟩ := Semaphore.poll_polled wf pending waker
    have follows := polled.follows wf pending
    have paid := polled.balance wf.formed pending
    cases polled with
    | closed shut same =>
      subst same
      obtain ⟨u, wakers, dropped, after, rest, shares⟩ := Lends.drop lends (Semaphore.made_of wf.formed pending)
      have shut' : closed = true := by rw [← open_iff, shut]
      obtain ⟨shares, none⟩ := shares shut'
      refine .inr (.inr ⟨shut', .bounded u bound, ?_, after, ⟨rfl, rest⟩, shares⟩)
      simp only [Chan.pollAcquire, ran, Except.mapError, bind, Except.bind, dropped, none]
      rfl
    | taken opened unqueued changed available | full opened queued full changed available =>
      simp only [if_true, single] at paid
      have done : t.dropAcquire i = .ok (t, []) :=
        dropAcquire_done (by rw [changed.apply, if_pos rfl]) (by rw [changed.apply, if_pos rfl])
      refine .inr (.inl ⟨by rw [← open_iff, opened], .bounded t bound, ?_, ?_, rfl, ?_⟩)
      · simp only [Chan.pollAcquire, ran, Except.mapError, bind, Except.bind, done]
        rfl
      · exact Lends.follows lends follows (by omega)
      · intro j
        simp only [ChanSemaphore.Pending, changed.apply]
        by_cases same : j = i <;> simp [same]
    | waiting opened listed changed available | joined opened unqueued short changed available =>
      have kept : t.balance = s.balance := by simpa using paid
      refine .inl ⟨by rw [← open_iff, opened], .bounded t bound, ?_, ?_, rfl, ?_⟩
      · simp only [Chan.pollAcquire, ran, Except.mapError, bind, Except.bind]
        rfl
      · exact Lends.follows lends follows (by omega)
      · intro j
        simp only [ChanSemaphore.Pending, changed.apply]
        by_cases same : j = i <;> simp [same]

theorem incNumMessages_spec (lends : c.semaphore.Lends closed missing) (unbounded : c.isBounded = false) :
    closed = true ∧ c.incNumMessages = .ok (false, c) ∨
    closed = false ∧ missing = 2 ^ 63 - 1 ∧ c.incNumMessages = .error .tooManyMessages ∨
    closed = false ∧ missing < 2 ^ 63 - 1 ∧ ∃ sem, c.incNumMessages = .ok (true, { c with semaphore := sem }) ∧
      sem.Lends closed (missing + 1) ∧ c.semaphore.Alike sem := by
  obtain ⟨list, sem, rxWaker, txCount, rxClosed⟩ := c
  cases sem with
  | bounded s bound => simp [Chan.isBounded] at unbounded
  | unbounded curr =>
    obtain ⟨has, count⟩ := lends
    have bit : curr &&& 1#64 = 1#64 ↔ closed = true := by
      rw [← has]
      exact beq_iff_eq.symm
    cases closed with
    | true => exact .inl ⟨rfl, if_pos (bit.mpr rfl)⟩
    | false =>
      have unset : ¬curr &&& 1#64 = 1#64 := by simp [bit]
      have even : curr.toNat % 2 = 0 := by
        rw [PackedWord.has_eq (by decide), ← BitVec.testBit_toNat, Nat.testBit_zero] at has
        simpa using has
      have word : curr.toNat = 2 * missing := by
        rw [PackedWord.count] at count
        omega
      have bound := curr.isLt
      have full : curr = BitVec.allOnes 64 ^^^ 1#64 ↔ missing = 2 ^ 63 - 1 := by
        rw [← BitVec.toNat_inj, word]
        change 2 * missing = 18446744073709551614 ↔ _
        omega
      right
      by_cases last : missing = 2 ^ 63 - 1
      · exact .inl ⟨rfl, last, (if_neg unset).trans (if_pos (full.mpr last))⟩
      · have room : curr.toNat + 1 * 2 ^ 1 < 2 ^ 64 := by omega
        have flag : PackedWord.has (curr + 2#64) 0 = PackedWord.has curr 0 :=
          PackedWord.has_add (n := 1) (k := 1) (by decide) (by decide) room
        have more : PackedWord.count 1 (curr + 2#64) = PackedWord.count 1 curr + 1 :=
          PackedWord.count_add (n := 1) room
        refine .inr ⟨rfl, by omega, .unbounded (curr + 2#64), ?_, ⟨flag.trans has, by rw [more, count]⟩, rfl,
          fun _ => Iff.rfl⟩
        exact (if_neg unset).trans (if_neg (by rw [full]; exact last))

end Capacity

end Osaka.Sync.Mpsc
