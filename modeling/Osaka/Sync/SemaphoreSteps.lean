import Osaka.Sync.SemaphoreInvariant

set_option autoImplicit false

namespace Osaka.Sync

variable {W : Type}

namespace Semaphore

variable {s t : Semaphore W} {i n : Nat} {waker : W}

attribute [local grind cases] Formed

section Creation

theorem new_word (n : Nat) (small : n ≤ MAX_PERMIT) :
    (new n : Semaphore W).availablePermits = n ∧ (new n : Semaphore W).isClosed = false := by
  have bound : MAX_PERMIT = 2305843009213693951 := rfl
  constructor
  · exact (shifted_back n).trans (Nat.mod_eq_of_lt (by omega))
  · rw [isClosed_eq, PackedWord.has_eq (by decide)]
    simp [new, PERMIT_SHIFT]

theorem new_wellFormed (n : Nat) (small : n ≤ MAX_PERMIT) : (new n : Semaphore W).WellFormed := by
  have opened := (new_word (W := W) n small).2
  constructor <;> simp [new, Waiting]
  exact opened

theorem new_balance (n : Nat) (small : n ≤ MAX_PERMIT) : (new n : Semaphore W).balance = n := by
  rw [balance, (new_word n small).1]
  simp [heldSum, new]

theorem acquire_acquires (s : Semaphore W) (n j : Nat) :
    (s.acquire n).acquires j = if j = s.created then .new n else s.acquires j := by
  simp [acquire, setAcquire, Function.update_apply]

theorem acquire_formed (formed : s.Formed) (n : Nat) : (s.acquire n).Formed := by
  have created : (s.acquire n).created = s.created + 1 := rfl
  have waiters : (s.acquire n).waiters = s.waiters := rfl
  have available : (s.acquire n).availablePermits = s.availablePermits := rfl
  have closed : (s.acquire n).isClosed = s.isClosed := rfl
  have member (j : Nat) (listed : j ∈ s.waiters.list) : j ≠ s.created := (formed.waiting j listed).1.ne
  constructor <;> simp only [acquire_acquires, created, waiters, available, closed, Waiting]
  all_goals grind -linarith [Acquire.new, Waiter.new, Waiting, List.mem_of_mem_tail]

theorem acquire_wellFormed (wf : s.WellFormed) (asked : n ≤ MAX_PERMIT) : (s.acquire n).WellFormed := by
  refine (acquire_formed wf.formed n).wellFormed fun j => ?_
  rw [acquire_acquires]
  split
  next => exact asked
  next => exact wf.asked j

theorem acquire_balance (s : Semaphore W) (n : Nat) : (s.acquire n).balance = s.balance := by
  have held : (Acquire.new n : Acquire W).held = 0 := rfl
  have same : ∑ j ∈ Finset.range s.created, ((s.acquire n).acquires j).held =
      ∑ j ∈ Finset.range s.created, (s.acquires j).held := by
    apply Finset.sum_congr rfl
    intro j made
    rw [acquire_acquires, if_neg (Finset.mem_range.mp made).ne]
  change s.availablePermits + ∑ j ∈ Finset.range (s.created + 1), ((s.acquire n).acquires j).held = s.balance
  rw [Finset.sum_range_succ, acquire_acquires, if_pos rfl, held, same]
  rfl

end Creation

section Releasing

theorem release_released (added : Nat) (wf : s.WellFormed) (small : s.balance + added < MAX_PERMIT) :
    ∃ served rest t wakers, s.release added = .ok (t, wakers) ∧ Released s added served rest t wakers := by
  obtain ⟨served, rest, t, wakers, ran, released⟩ := addPermitsLocked_released added wf small
  refine ⟨served, rest, t, wakers, ?_, released⟩
  unfold release
  split
  next none => rw [← ran, addPermitsLocked, if_pos none]
  next => exact ran

end Releasing

section Taking

theorem take_word (enough : n % 2 ^ 63 ≤ s.availablePermits) :
    ({ s with state := s.state - BitVec.ofNat 64 n <<< PERMIT_SHIFT } : Semaphore W).availablePermits =
        s.availablePermits - n % 2 ^ 63 ∧
      ({ s with state := s.state - BitVec.ofNat 64 n <<< PERMIT_SHIFT } : Semaphore W).isClosed = s.isClosed := by
  have wraps : BitVec.ofNat 64 n <<< PERMIT_SHIFT = BitVec.ofNat 64 (n % 2 ^ 63 * 2 ^ 1) := by
    apply BitVec.eq_of_toNat_eq
    rw [shifted_toNat, BitVec.toNat_ofNat]
    omega
  rw [availablePermits_eq] at enough
  rw [wraps, availablePermits_eq, availablePermits_eq, isClosed_eq, isClosed_eq]
  exact ⟨PackedWord.count_sub enough, PackedWord.has_sub (by decide) (by decide) enough⟩

/-- What has been asked for is shifted, and so compared without its highest bit. -/
theorem enough_iff (opened : s.isClosed = false) (n : Nat) :
    s.state ≥ BitVec.ofNat 64 n <<< PERMIT_SHIFT ↔ n % 2 ^ 63 ≤ s.availablePermits := by
  rw [ge_iff_le, BitVec.le_def, shifted_toNat, open_word opened]
  omega

end Taking

section Changes

theorem setAcquire_self (s : Semaphore W) (i : Nat) : s.setAcquire i (s.acquires i) = s := by
  rw [setAcquire, Function.update_eq_self]

theorem setAcquire_twice (s : Semaphore W) (i : Nat) (a b : Acquire W) :
    (s.setAcquire i a).setAcquire i b = s.setAcquire i b := by
  rw [setAcquire, setAcquire, setAcquire, Function.update_idem]

theorem setAcquire_acquires (s : Semaphore W) (i : Nat) (a : Acquire W) : (s.setAcquire i a).acquires i = a :=
  Function.update_self ..

/-- One Acquire and the list are written, and nothing else but the permits. -/
structure Changed (s : Semaphore W) (i : Nat) (a : Acquire W) (list : List Nat) (t : Semaphore W) : Prop where
  acquires : t.acquires = Function.update s.acquires i a
  waiters : t.waiters = { s.waiters with list := list }
  closed : t.isClosed = s.isClosed
  created : t.created = s.created

variable {a : Acquire W} {list : List Nat}

theorem Changed.apply (changed : Changed s i a list t) (j : Nat) :
    t.acquires j = if j = i then a else s.acquires j := by
  rw [changed.acquires, Function.update_apply]

theorem Changed.heldSum (changed : Changed s i a list t) (made : i < s.created) :
    t.heldSum + (s.acquires i).held = s.heldSum + a.held := by
  rw [← heldSum_setAcquire made]
  simp only [Semaphore.heldSum, changed.acquires, changed.created, setAcquire]

theorem mem_tail_concat {i j : Nat} {list : List Nat} (member : j ∈ (list ++ [i]).tail) :
    j ∈ list.tail ∨ j = i ∧ list ≠ [] := by
  cases list with
  | nil => simp at member
  | cons first rest => simpa using member

theorem mem_tail_erase {i j : Nat} {list : List Nat} (member : j ∈ (list.erase i).tail) : j ∈ list.tail := by
  cases list with
  | nil => simp at member
  | cons first rest =>
    by_cases same : first = i
    · rw [same, List.erase_cons_head] at member
      exact List.mem_of_mem_tail member
    · rw [List.erase_cons_tail (by simpa using same)] at member
      exact List.mem_of_mem_erase member

theorem made_of (formed : s.Formed) (unfinished : (s.acquires i).completed = false) : i < s.created := by
  by_contra beyond
  rw [formed.unmade i (by omega)] at unfinished
  exact absurd unfinished (by decide)

end Changes

section Polling

variable [Wakers W]

theorem register_eq (node : Waiter W) (waker : W) : node.register waker = ⟨node.state, some waker⟩ := by
  unfold Waiter.register
  split
  next stored at' =>
    split
    next will => rw [← Wakers.same stored waker will, ← at']
    next => rfl
  next => rfl

theorem poll_closed (closed : s.isClosed = true) (i : Nat) (waker : W) :
    s.poll i waker = .ok (.ready (.error ()), s, []) := by
  rw [poll, pollAcquire, if_pos ((closed_guard s).mpr closed)]
  rfl

theorem poll_taken (opened : s.isClosed = false) (unqueued : (s.acquires i).queued = false)
    (enough : (s.acquires i).numPermits % 2 ^ 63 ≤ s.availablePermits) (waker : W) :
    s.poll i waker = .ok (.ready (.ok ()),
      { s with state := s.state - BitVec.ofNat 64 (s.acquires i).numPermits <<< PERMIT_SHIFT }.setAcquire i
        { s.acquires i with queued := false, completed := true }, []) := by
  have guard : ¬s.state &&& CLOSED > 0#64 := by rw [closed_guard, opened]; decide
  have fits := (enough_iff opened _).mpr enough
  simp only [poll, pollAcquire, guard, if_false, unqueued, Bool.false_eq_true, fits, if_true, and_self]
  rfl

theorem poll_full (formed : s.Formed) (opened : s.isClosed = false) (queued : (s.acquires i).queued = true)
    (full : (s.acquires i).node.state = 0) (waker : W) :
    s.poll i waker = .ok (.ready (.ok ()),
      s.setAcquire i { s.acquires i with queued := false, completed := true }, []) := by
  have guard : ¬s.state &&& CLOSED > 0#64 := by rw [closed_guard, opened]; decide
  have open' : s.waiters.closed = false := by rw [← formed.closed, opened]
  have fits : s.state ≥ BitVec.ofNat 64 0 <<< PERMIT_SHIFT := (enough_iff opened 0).mpr (Nat.zero_le _)
  have nothing : (BitVec.ofNat 64 0 <<< PERMIT_SHIFT >>> PERMIT_SHIFT).toNat = 0 := rfl
  have unchanged : s.state - BitVec.ofNat 64 0 <<< PERMIT_SHIFT = s.state := by
    rw [show BitVec.ofNat 64 0 <<< PERMIT_SHIFT = 0#64 from rfl, BitVec.sub_zero]
  have assigned : (s.acquires i).node.assignPermits 0 = (true, (s.acquires i).node, 0) := by
    simp only [Waiter.assignPermits, full, Nat.min_self, Nat.sub_self, decide_true]
    rw [← full]
  have asked : s.pollAcquire i waker = .ok (.ready (.ok ()), s, []) := by
    simp only [pollAcquire, guard, if_false, queued, if_true, full, fits, nothing, unchanged, assigned, open',
      Bool.true_eq_false, and_false, Bool.false_eq_true, setNode]
    rw [← queued, setAcquire_self, addPermitsLocked, if_pos rfl]
    rfl
  rw [poll, asked]
  rfl

theorem poll_waiting (formed : s.Formed) (opened : s.isClosed = false) (listed : i ∈ s.waiters.list) (waker : W) :
    s.poll i waker = .ok (.pending,
      s.setAcquire i { s.acquires i with node := ⟨(s.acquires i).node.state, some waker⟩ }, []) := by
  obtain ⟨made, queued, missing, most⟩ := formed.waiting i listed
  have guard : ¬s.state &&& CLOSED > 0#64 := by rw [closed_guard, opened]; decide
  have open' : s.waiters.closed = false := by rw [← formed.closed, opened]
  have none := formed.busy (List.ne_nil_of_mem listed)
  have word : s.state = 0#64 := by
    apply BitVec.eq_of_toNat_eq
    rw [open_word opened, none]
    rfl
  have assigned : (s.acquires i).node.assignPermits 0 = (false, (s.acquires i).node, 0) := by
    simp only [Waiter.assignPermits, Nat.min_zero, Nat.sub_zero, decide_eq_false missing.ne']
  have same : { s with state := 0#64 } = s := by rw [← word]
  have asked : s.pollAcquire i waker = .ok (.pending,
      s.setAcquire i { s.acquires i with node := ⟨(s.acquires i).node.state, some waker⟩ }, []) := by
    by_cases lost : (s.acquires i).node.state % 2 ^ 63 = 0
    · -- the shift has lost all that is missing, and nothing is to be taken
      have needed : BitVec.ofNat 64 (s.acquires i).node.state <<< PERMIT_SHIFT = 0#64 := by
        apply BitVec.eq_of_toNat_eq
        rw [shifted_toNat, lost]
        rfl
      have enough : (0#64 : BitVec 64) ≥ 0#64 := BitVec.le_refl _
      have nothing : (0#64 >>> PERMIT_SHIFT).toNat = 0 := rfl
      rw [word] at guard
      simp only [pollAcquire, word, guard, if_false, queued, if_true, needed, enough, nothing, assigned, open',
        Bool.true_eq_false, and_false, Bool.false_eq_true, setNode, register_eq, ne_eq, not_true_eq_false,
        BitVec.sub_zero]
      rw [setAcquire_twice, setAcquire_acquires, same, ← queued]
    · have short : ¬s.state ≥ BitVec.ofNat 64 (s.acquires i).node.state <<< PERMIT_SHIFT := by
        rw [enough_iff opened, none]
        omega
      have nothing : (s.state >>> PERMIT_SHIFT).toNat = 0 := none
      simp only [pollAcquire, guard, if_false, queued, if_true, short, nothing, assigned, open',
        Bool.true_eq_false, and_false, Bool.false_eq_true, setNode, register_eq, ne_eq, not_true_eq_false]
      rw [setAcquire_twice, setAcquire_acquires, same, ← queued]
  rw [poll, asked]
  change Except.ok (Acquired.pending, (s.setAcquire i _).setAcquire i _, ([] : List W)) = _
  rw [setAcquire_twice, setAcquire_acquires, ← queued]

theorem poll_joined (formed : s.Formed) (opened : s.isClosed = false) (unqueued : (s.acquires i).queued = false)
    (unfinished : (s.acquires i).completed = false)
    (short : s.availablePermits < (s.acquires i).numPermits % 2 ^ 63) (waker : W) :
    s.poll i waker = .ok (.pending,
      { s with state := 0#64, waiters := { s.waiters with list := s.waiters.list ++ [i] } }.setAcquire i
        { s.acquires i with
          node := ⟨(s.acquires i).numPermits - s.availablePermits, some waker⟩
          queued := true }, []) := by
  have guard : ¬s.state &&& CLOSED > 0#64 := by rw [closed_guard, opened]; decide
  have open' : s.waiters.closed = false := by rw [← formed.closed, opened]
  have fresh := formed.fresh i unqueued unfinished
  have less : s.availablePermits < (s.acquires i).numPermits := short.trans_le (Nat.mod_le _ _)
  have insufficient : ¬s.state ≥ BitVec.ofNat 64 (s.acquires i).numPermits <<< PERMIT_SHIFT := by
    rw [enough_iff opened]
    omega
  have lacking : BitVec.ofNat 64 (s.acquires i).numPermits <<< PERMIT_SHIFT - s.state ≠ 0#64 := by
    intro same
    have difference := BitVec.toNat_sub_of_le (BitVec.le_of_lt (BitVec.not_le.mp insufficient))
    rw [same, shifted_toNat, open_word opened] at difference
    simp at difference
    omega
  have unlisted : s.waiters.list.getLast? ≠ some i := by
    intro last
    have queued := (formed.waiting i (List.mem_of_getLast? last)).2.1
    rw [unqueued] at queued
    exact absurd queued (by decide)
  have all : (s.state >>> PERMIT_SHIFT).toNat = s.availablePermits := rfl
  have assigned : (s.acquires i).node.assignPermits s.availablePermits =
      (false, ⟨(s.acquires i).numPermits - s.availablePermits, (s.acquires i).node.waker⟩, 0) := by
    have part : min (s.acquires i).numPermits s.availablePermits = s.availablePermits := min_eq_right less.le
    have some : ¬(s.acquires i).numPermits - s.availablePermits = 0 := by omega
    simp only [Waiter.assignPermits, fresh, part, Nat.sub_self, decide_eq_false some]
  have asked : s.pollAcquire i waker = .ok (.pending,
      { s with state := 0#64, waiters := { s.waiters with list := s.waiters.list ++ [i] } }.setAcquire i
        { s.acquires i with
          node := ⟨(s.acquires i).numPermits - s.availablePermits, some waker⟩
          queued := false }, []) := by
    simp only [pollAcquire, guard, if_false, unqueued, insufficient, lacking, all, assigned, open',
      false_and, Bool.false_eq_true, setNode, register_eq, ne_eq, not_true_eq_false]
    rw [setAcquire_twice, setAcquire_acquires]
    refine (if_neg unlisted).trans ?_
    simp only [setAcquire, open']
  rw [poll, asked]
  change Except.ok (Acquired.pending, (setAcquire _ i _).setAcquire i _, ([] : List W)) = _
  rw [setAcquire_twice, setAcquire_acquires]

omit [Wakers W] in
inductive Polled (s t : Semaphore W) (i : Nat) (waker : W) : Acquired → Prop where
  | closed : s.isClosed = true → t = s → Polled s t i waker (.ready (.error ()))
  | taken : s.isClosed = false → (s.acquires i).queued = false →
      Changed s i { s.acquires i with queued := false, completed := true } s.waiters.list t →
      t.availablePermits + (s.acquires i).numPermits = s.availablePermits →
      Polled s t i waker (.ready (.ok ()))
  | full : s.isClosed = false → (s.acquires i).queued = true → (s.acquires i).node.state = 0 →
      Changed s i { s.acquires i with queued := false, completed := true } s.waiters.list t →
      t.availablePermits = s.availablePermits → Polled s t i waker (.ready (.ok ()))
  | waiting : s.isClosed = false → i ∈ s.waiters.list →
      Changed s i { s.acquires i with node := ⟨(s.acquires i).node.state, some waker⟩ } s.waiters.list t →
      t.availablePermits = s.availablePermits → Polled s t i waker .pending
  | joined : s.isClosed = false → (s.acquires i).queued = false →
      s.availablePermits < (s.acquires i).numPermits →
      Changed s i
        { s.acquires i with
          node := ⟨(s.acquires i).numPermits - s.availablePermits, some waker⟩
          queued := true } (s.waiters.list ++ [i]) t →
      t.availablePermits = 0 → Polled s t i waker .pending

omit [Wakers W] in
/-- A first poll for so many permits that the shift loses one bit of them, which is answered for the rest. -/
structure Wrapped (s t : Semaphore W) (i : Nat) : Prop where
  opened : s.isClosed = false
  first : (s.acquires i).queued = false
  many : 2 ^ 63 ≤ (s.acquires i).numPermits
  changed : Changed s i { s.acquires i with queued := false, completed := true } s.waiters.list t
  taken : t.availablePermits + ((s.acquires i).numPermits - 2 ^ 63) = s.availablePermits

theorem poll_cases (formed : s.Formed) (unfinished : (s.acquires i).completed = false)
    (small : (s.acquires i).numPermits < 2 ^ 64) (waker : W) :
    ∃ result t, s.poll i waker = .ok (result, t, []) ∧
      (Polled s t i waker result ∨ result = .ready (.ok ()) ∧ Wrapped s t i) := by
  cases closed : s.isClosed with
  | true => exact ⟨_, _, poll_closed closed i waker, .inl (.closed closed rfl)⟩
  | false =>
    cases queued : (s.acquires i).queued with
    | true =>
      by_cases full : (s.acquires i).node.state = 0
      · exact ⟨_, _, poll_full formed closed queued full waker,
          .inl (.full closed queued full ⟨rfl, rfl, rfl, rfl⟩ rfl)⟩
      · have listed := (formed.unserved i queued (by omega)).resolve_right (by rw [← formed.closed, closed]; decide)
        exact ⟨_, _, poll_waiting formed closed listed waker,
          .inl (.waiting closed listed ⟨rfl, rfl, rfl, rfl⟩ rfl)⟩
    | false =>
      by_cases enough : (s.acquires i).numPermits % 2 ^ 63 ≤ s.availablePermits
      · obtain ⟨available, kept⟩ := take_word enough
        have total := Nat.sub_add_cancel enough
        rw [← available] at total
        refine ⟨_, _, poll_taken closed queued enough waker, ?_⟩
        by_cases many : 2 ^ 63 ≤ (s.acquires i).numPermits
        · have wraps : (s.acquires i).numPermits % 2 ^ 63 = (s.acquires i).numPermits - 2 ^ 63 := by omega
          rw [wraps] at total
          exact .inr ⟨rfl, closed, queued, many, ⟨rfl, rfl, kept, rfl⟩, total⟩
        · rw [Nat.mod_eq_of_lt (by omega)] at total
          exact .inl (.taken closed queued ⟨rfl, rfl, kept, rfl⟩ total)
      · have short : s.availablePermits < (s.acquires i).numPermits % 2 ^ 63 := by omega
        have opened : isClosed { s with state := 0#64 } = s.isClosed := by
          rw [closed]
          change (0#64 &&& CLOSED == CLOSED) = false
          decide
        have none : availablePermits { s with state := 0#64 } = 0 := by
          change (0#64 >>> PERMIT_SHIFT).toNat = 0
          decide
        exact ⟨_, _, poll_joined formed closed queued unfinished short waker,
          .inl (.joined closed queued (short.trans_le (Nat.mod_le _ _)) ⟨rfl, rfl, opened, rfl⟩ none)⟩

theorem poll_polled (wf : s.WellFormed) (unfinished : (s.acquires i).completed = false) (waker : W) :
    ∃ result t, s.poll i waker = .ok (result, t, []) ∧ Polled s t i waker result := by
  have bound : MAX_PERMIT = 2305843009213693951 := rfl
  have asked := wf.asked i
  obtain ⟨result, t, ran, polled | ⟨_, wrapped⟩⟩ := poll_cases wf.formed unfinished (by omega) waker
  · exact ⟨result, t, ran, polled⟩
  · exact absurd wrapped.many (by omega)

omit [Wakers W]

variable {result : Acquired}

theorem Polled.same (polled : Polled s t i waker result) (j : Nat) :
    (t.acquires j).numPermits = (s.acquires j).numPermits := by
  cases polled with
  | closed closed same => rw [same]
  | taken opened unqueued changed available | full opened queued full changed available
  | waiting opened listed changed available | joined opened unqueued short changed available =>
    rw [changed.apply]
    split
    next same => rw [same]
    next => rfl

theorem Polled.formed (formed : s.Formed) (unfinished : (s.acquires i).completed = false)
    (polled : Polled s t i waker result) : t.Formed := by
  have made := made_of formed unfinished
  cases polled with
  | closed closed same =>
    rw [same]
    exact formed
  | taken opened unqueued changed available | full opened queued full changed available
  | waiting opened listed changed available =>
    constructor <;> simp only [changed.apply, changed.waiters, changed.closed, changed.created, Waiting]
    all_goals grind -linarith [Waiting, List.mem_of_mem_tail]
  | joined opened unqueued short changed available =>
    have unlisted : i ∉ s.waiters.list := by grind -linarith [Waiting]
    constructor <;> simp only [changed.apply, changed.waiters, changed.closed, changed.created, Waiting]
    case partly =>
      intro j member
      rcases mem_tail_concat member with later | ⟨same, busy⟩
      · grind -linarith [List.mem_of_mem_tail]
      · simp [same, formed.busy busy]
    all_goals grind -linarith [Waiting]

theorem Wrapped.formed (formed : s.Formed) (unfinished : (s.acquires i).completed = false) (wrapped : Wrapped s t i) :
    t.Formed := by
  have made := made_of formed unfinished
  obtain ⟨opened, unqueued, many, changed, available⟩ := wrapped
  constructor <;> simp only [changed.apply, changed.waiters, changed.closed, changed.created, Waiting]
  all_goals grind -linarith [Waiting, List.mem_of_mem_tail]

theorem Polled.wellFormed (wf : s.WellFormed) (unfinished : (s.acquires i).completed = false)
    (polled : Polled s t i waker result) : t.WellFormed := by
  refine (polled.formed wf.formed unfinished).wellFormed fun j => ?_
  rw [polled.same j]
  exact wf.asked j

theorem Polled.balance (formed : s.Formed) (unfinished : (s.acquires i).completed = false)
    (polled : Polled s t i waker result) :
    t.balance + (if result = .ready (.ok ()) then (s.acquires i).numPermits else 0) = s.balance := by
  have made := made_of formed unfinished
  change _ + t.heldSum + _ = _ + s.heldSum
  cases polled with
  | closed closed same =>
    rw [same]
    rfl
  | taken opened unqueued changed available =>
    have held := changed.heldSum made
    simp only [Acquire.held, unqueued] at held
    simp
    omega
  | full opened queued full changed available =>
    have held := changed.heldSum made
    simp only [Acquire.held, queued, full] at held
    simp at held ⊢
    omega
  | waiting opened listed changed available =>
    have held := changed.heldSum made
    simp only [Acquire.held] at held
    simp
    omega
  | joined opened unqueued short changed available =>
    have held := changed.heldSum made
    simp only [Acquire.held, unqueued] at held
    simp at held ⊢
    omega

end Polling

section TryAcquire

inductive Tried (s t : Semaphore W) (n : Nat) : Except TryAcquireError Unit → Prop where
  | closed : s.isClosed = true → t = s → Tried s t n (.error .closed)
  | noPermits : s.isClosed = false → s.availablePermits < n → t = s → Tried s t n (.error .noPermits)
  | taken : s.isClosed = false → t.isClosed = false → t.waiters = s.waiters → t.acquires = s.acquires →
      t.created = s.created → t.availablePermits + n = s.availablePermits → Tried s t n (.ok ())

theorem tryAcquire_tried (small : n < MAX_PERMIT) : ∃ result t, s.tryAcquire n = .ok (result, t) ∧ Tried s t n result := by
  have bound : MAX_PERMIT = 2305843009213693951 := rfl
  have whole : n % 2 ^ 63 = n := Nat.mod_eq_of_lt (by omega)
  unfold tryAcquire
  rw [if_pos small]
  cases closed : s.isClosed with
  | true =>
    have bit : (s.state &&& CLOSED == CLOSED) = true := closed
    rw [if_pos bit]
    exact ⟨_, _, rfl, .closed closed rfl⟩
  | false =>
    have bit : (s.state &&& CLOSED == CLOSED) = false := closed
    have fits := enough_iff closed n
    rw [whole] at fits
    rw [bit, if_neg Bool.false_ne_true]
    by_cases enough : n ≤ s.availablePermits
    · obtain ⟨available, kept⟩ := take_word (whole.symm ▸ enough)
      rw [if_neg (BitVec.not_lt.mpr (fits.mpr enough))]
      exact ⟨_, _, rfl, .taken closed (kept.trans closed) rfl rfl rfl (by omega)⟩
    · have short : s.state < BitVec.ofNat 64 n <<< PERMIT_SHIFT := by
        rw [← BitVec.not_le]
        exact fun within => enough (fits.mp within)
      rw [if_pos short]
      exact ⟨_, _, rfl, .noPermits closed (by omega) rfl⟩

variable {result : Except TryAcquireError Unit}

theorem Tried.formed (formed : s.Formed) (tried : Tried s t n result) : t.Formed := by
  cases tried with
  | closed closed same | noPermits opened short same =>
    rw [same]
    exact formed
  | taken opened opened' waiters acquires created available =>
    constructor <;> simp only [waiters, acquires, created, Waiting]
    all_goals grind -linarith [Waiting]

theorem Tried.same (tried : Tried s t n result) : t.acquires = s.acquires := by
  cases tried with
  | closed closed same | noPermits opened short same => rw [same]
  | taken opened opened' waiters acquires created available => exact acquires

theorem Tried.wellFormed (wf : s.WellFormed) (tried : Tried s t n result) : t.WellFormed := by
  refine (tried.formed wf.formed).wellFormed fun j => ?_
  rw [tried.same]
  exact wf.asked j

theorem Tried.balance (tried : Tried s t n result) : t.balance + (if result = .ok () then n else 0) = s.balance := by
  cases tried with
  | closed closed same | noPermits opened short same => simp [same]
  | taken opened opened' waiters acquires created available =>
    simp only [Semaphore.balance, heldSum, acquires, created, if_true]
    omega

end TryAcquire

section Closing

/-- What closing does: the waiters are woken, from the oldest on, and keep what they hold. -/
structure Shut (s t : Semaphore W) (wakers : List W) : Prop where
  closed : t.isClosed = true
  waiters : t.waiters = ⟨[], true⟩
  created : t.created = s.created
  available : t.availablePermits = s.availablePermits
  kept : ∀ j, j ∉ s.waiters.list → t.acquires j = s.acquires j
  woken : ∀ j ∈ s.waiters.list, t.acquires j = { s.acquires j with node := ⟨(s.acquires j).node.state, none⟩ }
  wakers : wakers = s.waiters.list.filterMap fun j => (s.acquires j).node.waker

theorem wakeAll_spec (s : Semaphore W) {list : List Nat} (nodup : list.Nodup) :
    (s.wakeAll list).1.state = s.state ∧ (s.wakeAll list).1.waiters = s.waiters ∧
      (s.wakeAll list).1.created = s.created ∧
      (∀ j, j ∉ list → (s.wakeAll list).1.acquires j = s.acquires j) ∧
      (∀ j ∈ list, (s.wakeAll list).1.acquires j =
        { s.acquires j with node := ⟨(s.acquires j).node.state, none⟩ }) ∧
      (s.wakeAll list).2 = list.filterMap fun j => (s.acquires j).node.waker := by
  induction list generalizing s with
  | nil => simp [wakeAll]
  | cons i list ih =>
    obtain ⟨fresh, nodup⟩ := List.nodup_cons.mp nodup
    obtain ⟨state, waiters, created, kept, woken, wakers⟩ :=
      ih (s.setNode i { (s.acquires i).node with waker := none }) nodup
    have others (j : Nat) (other : j ≠ i) :
        (s.setNode i { (s.acquires i).node with waker := none }).acquires j = s.acquires j :=
      Function.update_of_ne other _ _
    have self : (s.setNode i { (s.acquires i).node with waker := none }).acquires i =
        { s.acquires i with node := ⟨(s.acquires i).node.state, none⟩ } := Function.update_self ..
    refine ⟨state, waiters, created, ?_, ?_, ?_⟩
    · intro j unlisted
      have apart : j ≠ i ∧ j ∉ list := by simpa using unlisted
      rw [← others j apart.1]
      exact kept j apart.2
    · intro j listed
      rcases List.mem_cons.mp listed with rfl | later
      · rw [← self]
        exact kept j fresh
      · rw [← others j fun same => fresh (same ▸ later)]
        exact woken j later
    · have same : list.filterMap (fun j => ((s.setNode i { (s.acquires i).node with waker := none }).acquires j).node.waker) =
          list.filterMap fun j => (s.acquires j).node.waker := by
        apply List.filterMap_congr
        intro j member
        rw [others j fun same => fresh (same ▸ member)]
      change (s.acquires i).node.waker.toList ++ (wakeAll _ list).2 = _
      rw [wakers, same]
      cases waker : (s.acquires i).node.waker <;> simp [waker]

theorem close_shut (formed : s.Formed) : Shut s s.close.1 s.close.2 := by
  obtain ⟨state, waiters, created, kept, woken, wakers⟩ :=
    wakeAll_spec { s with state := s.state ||| CLOSED, waiters := ⟨[], true⟩ } formed.nodup
  constructor
  · have marked := PackedWord.has_set (x := s.state) (i := 0) (j := 0) (by decide) (by decide)
    rw [isClosed_eq, close, state]
    exact marked.trans rfl
  · exact waiters
  · exact created
  · rw [availablePermits_eq, availablePermits_eq, close, state]
    exact PackedWord.count_set (x := s.state) (i := 0) (by decide)
  · exact kept
  · exact woken
  · exact wakers

theorem Shut.held {wakers : List W} (shut : Shut s t wakers) (j : Nat) :
    (t.acquires j).held = (s.acquires j).held := by
  by_cases listed : j ∈ s.waiters.list
  · rw [shut.woken j listed]
    rfl
  · rw [shut.kept j listed]

theorem Shut.balance {wakers : List W} (shut : Shut s t wakers) : t.balance = s.balance := by
  simp only [Semaphore.balance, heldSum, shut.available, shut.created, shut.held]

theorem Shut.same {wakers : List W} (shut : Shut s t wakers) (j : Nat) :
    (t.acquires j).queued = (s.acquires j).queued ∧ (t.acquires j).completed = (s.acquires j).completed ∧
      (t.acquires j).numPermits = (s.acquires j).numPermits ∧
      (t.acquires j).node.state = (s.acquires j).node.state := by
  by_cases listed : j ∈ s.waiters.list
  · simp [shut.woken j listed]
  · simp [shut.kept j listed]

theorem Shut.formed {wakers : List W} (formed : s.Formed) (shut : Shut s t wakers) : t.Formed := by
  have same := shut.same
  have closed := shut.closed
  have waiters := shut.waiters
  have created := shut.created
  constructor <;> grind -linarith

theorem Shut.wellFormed {wakers : List W} (wf : s.WellFormed) (shut : Shut s t wakers) : t.WellFormed := by
  refine (shut.formed wf.formed).wellFormed fun j => ?_
  rw [(shut.same j).2.2.1]
  exact wf.asked j

end Closing

section Dropping

/-- The semaphore once a dropped Acquire has left it, before its permits go back. -/
def cancelled (s : Semaphore W) (i : Nat) : Semaphore W :=
  { s.setAcquire i { s.acquires i with queued := false, completed := true } with
    waiters := { s.waiters with list := s.waiters.list.erase i } }

theorem cancelled_changed (s : Semaphore W) (i : Nat) :
    Changed s i { s.acquires i with queued := false, completed := true } (s.waiters.list.erase i)
      (s.cancelled i) := ⟨rfl, rfl, rfl, rfl⟩

theorem cancelled_balance (made : i < s.created) : (s.cancelled i).balance + (s.acquires i).held = s.balance := by
  have held := (cancelled_changed s i).heldSum made
  have none : Acquire.held { s.acquires i with queued := false, completed := true } = 0 := rfl
  change s.availablePermits + (s.cancelled i).heldSum + _ = s.availablePermits + s.heldSum
  omega

theorem cancelled_formed (formed : s.Formed) : (s.cancelled i).Formed := by
  have changed := cancelled_changed s i
  have available : (s.cancelled i).availablePermits = s.availablePermits := rfl
  have less : ∀ j, j ∈ s.waiters.list.erase i ↔ j ≠ i ∧ j ∈ s.waiters.list := fun j => formed.nodup.mem_erase_iff
  have nodup := formed.nodup.erase i
  have later : ∀ j, j ∈ (s.waiters.list.erase i).tail → j ∈ s.waiters.list.tail := fun j => mem_tail_erase
  constructor <;> simp only [changed.apply, changed.waiters, changed.closed, changed.created, available, Waiting]
  all_goals grind -linarith [Waiting]

theorem cancelled_wellFormed (wf : s.WellFormed) : (s.cancelled i).WellFormed := by
  refine (cancelled_formed wf.formed).wellFormed fun j => ?_
  rw [(cancelled_changed s i).apply]
  split
  next same => exact wf.asked i
  next => exact wf.asked j

theorem dropAcquire_eq (formed : s.Formed) (i : Nat) :
    s.dropAcquire i = (s.cancelled i).addPermitsLocked (s.acquires i).held := by
  rw [dropAcquire]
  cases queued : (s.acquires i).queued with
  | false =>
    have unlisted : i ∉ s.waiters.list := by grind -linarith [Waiting]
    have kept : s.waiters.list.erase i = s.waiters.list := List.erase_of_not_mem unlisted
    have none : (s.acquires i).held = 0 := by simp [Acquire.held, queued]
    rw [none, addPermitsLocked, if_pos rfl, cancelled, kept]
    rfl
  | true =>
    have held : (s.acquires i).held = (s.acquires i).numPermits - (s.acquires i).node.state := by
      simp [Acquire.held, queued]
    simp only [Bool.true_eq_false, if_false]
    rw [← held]
    by_cases some : (s.acquires i).held > 0
    · rw [if_pos some]
      rfl
    · rw [if_neg some, addPermitsLocked, if_pos (by omega)]
      rfl

theorem dropAcquire_released (wf : s.WellFormed) (made : i < s.created) (small : s.balance < MAX_PERMIT) :
    ∃ served rest t wakers, s.dropAcquire i = .ok (t, wakers) ∧
      Released (s.cancelled i) (s.acquires i).held served rest t wakers := by
  have back := cancelled_balance made
  rw [dropAcquire_eq wf.formed]
  exact addPermitsLocked_released (s.acquires i).held (cancelled_wellFormed wf) (back ▸ small)

end Dropping

section Following

structure Follows (s t : Semaphore W) : Prop where
  wellFormed : t.WellFormed
  closed : t.isClosed = s.isClosed
  created : t.created = s.created
  asked : ∀ j, (t.acquires j).numPermits = (s.acquires j).numPermits
  unfinished : ∀ j, (t.acquires j).completed = false → (s.acquires j).completed = false

theorem Polled.follows {result : Acquired} (wf : s.WellFormed) (unfinished : (s.acquires i).completed = false)
    (polled : Polled s t i waker result) : Follows s t := by
  refine ⟨polled.wellFormed wf unfinished, ?_, ?_, ?_, ?_⟩
  all_goals cases polled with
  | closed closed same => simp [same]
  | taken opened unqueued changed available | full opened queued full changed available
  | waiting opened listed changed available | joined opened unqueued short changed available =>
    first
      | exact changed.closed
      | exact changed.created
      | grind -linarith [changed.apply]

theorem Tried.follows {result : Except TryAcquireError Unit} (wf : s.WellFormed) (tried : Tried s t n result) :
    Follows s t := by
  refine ⟨tried.wellFormed wf, ?_, ?_, ?_, ?_⟩
  all_goals cases tried with
  | closed closed same | noPermits opened short same => simp [same]
  | taken opened opened' waiters acquires created available => simp [opened, opened', acquires, created]

theorem Released.follows {served rest : List Nat} {wakers : List W} (wf : s.WellFormed)
    (released : Released s n served rest t wakers) : Follows s t := by
  have same := released.same
  refine ⟨released.wellFormed wf, released.closed, released.created, fun j => (same j).2.2.1, ?_⟩
  intro j unfinished
  rw [← (same j).2.1, unfinished]

theorem dropped_follows {served rest : List Nat} {wakers : List W} (wf : s.WellFormed)
    (released : Released (s.cancelled i) n served rest t wakers) : Follows s t := by
  have changed := cancelled_changed s i
  obtain ⟨after, closed, created, asked, unfinished⟩ := released.follows (cancelled_wellFormed wf)
  refine ⟨after, closed, created, ?_, ?_⟩
  · intro j
    rw [asked, changed.apply]
    split
    next same => rw [same]
    next => rfl
  · intro j incomplete
    have before := unfinished j incomplete
    rw [changed.apply] at before
    split at before
    next => simp at before
    next => exact before

end Following

end Semaphore

end Osaka.Sync
