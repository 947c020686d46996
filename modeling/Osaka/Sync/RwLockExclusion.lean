import Osaka.Sync.RwLock

set_option autoImplicit false

namespace Osaka.Sync

open Transitions

variable {W : Type}

namespace RwLock

variable {l : RwLock W} {g : Guard} {i maxReads : Nat}

def guarded (l : RwLock W) : Nat := (l.guards.map Guard.permits).sum

structure Sound (maxReads : Nat) (l : RwLock W) : Prop where
  bound : l.mr = maxReads
  wellFormed : l.s.WellFormed
  opened : l.s.isClosed = false
  total : l.s.balance + l.guarded = l.mr
  accepted : l.mr ≤ MAX_READS
  whole : ∀ g ∈ l.guards, g.isWrite = true → g.permits = l.mr
  asked : ∀ i, (l.s.acquires i).completed = false → (l.s.acquires i).numPermits = l.asked (l.requests i)

theorem accepted_small (accepted : l.mr ≤ MAX_READS) : l.mr < MAX_PERMIT := accepted.trans_lt (by decide)

theorem Sound.small (sound : Sound maxReads l) : l.s.balance < MAX_PERMIT := by
  have total := sound.total
  have small := accepted_small sound.accepted
  omega

theorem withMaxReaders_sound (made : withMaxReaders maxReads = some l) : Sound maxReads l := by
  unfold withMaxReaders at made
  split at made
  next accepted =>
    obtain rfl := Option.some.inj made
    have small : maxReads ≤ MAX_PERMIT := accepted.trans (by decide)
    constructor
    · rfl
    · exact Semaphore.new_wellFormed maxReads small
    · exact (Semaphore.new_word maxReads small).2
    · exact Semaphore.new_balance maxReads small
    · exact accepted
    · simp
    · simp [Semaphore.new]
  next => simp at made

theorem asked_eq (l : RwLock W) (mode : Mode) : l.asked mode = (l.guard mode).permits := by
  cases mode <;> rfl

theorem guard_whole (l : RwLock W) (mode : Mode) (write : (l.guard mode).isWrite = true) :
    (l.guard mode).permits = l.mr := by
  cases mode with
  | read | readOwned => simp [guard, Guard.isWrite, Guard.isRead] at write
  | write | writeOwned => rfl

theorem Sound.moved (sound : Sound maxReads l) {s : Semaphore W} {guards : List Guard} (follows : l.s.Follows s)
    (total : s.balance + (guards.map Guard.permits).sum = l.mr)
    (whole : ∀ g ∈ guards, g.isWrite = true → g.permits = l.mr) :
    Sound maxReads { l with s := s, guards := guards } := by
  constructor
  · exact sound.bound
  · exact follows.wellFormed
  · exact follows.closed.trans sound.opened
  · exact total
  · exact sound.accepted
  · exact whole
  · intro i unfinished
    rw [follows.asked i]
    exact sound.asked i (follows.unfinished i unfinished)

section Steps

theorem lock_sound (sound : Sound maxReads l) (mode : Mode) : Sound maxReads (l.lock mode) := by
  have small := accepted_small sound.accepted
  have asked : l.asked mode ≤ MAX_PERMIT := by
    have one : 1 ≤ MAX_PERMIT := by decide
    cases mode <;> simp only [RwLock.asked] <;> omega
  constructor
  · exact sound.bound
  · exact Semaphore.acquire_wellFormed sound.wellFormed asked
  · exact sound.opened
  · change (l.s.acquire _).balance + l.guarded = l.mr
    rw [Semaphore.acquire_balance]
    exact sound.total
  · exact sound.accepted
  · exact sound.whole
  · intro i unfinished
    simp only [lock, Semaphore.acquire_acquires, Function.update_apply] at unfinished ⊢
    by_cases same : i = l.s.created
    · rw [if_pos same, if_pos same]
      rfl
    · rw [if_neg same] at unfinished
      rw [if_neg same, if_neg same]
      exact sound.asked i unfinished

theorem poll_kept [Wakers W] (sound : Sound maxReads l) (unfinished : (l.s.acquires i).completed = false) (waker : W) :
    (Outcome.attempt (l.poll i waker) .next).Kept (Sound maxReads) := by
  obtain ⟨result, s, ran, polled⟩ := Semaphore.poll_polled sound.wellFormed unfinished waker
  have follows := polled.follows sound.wellFormed unfinished
  have balance := polled.balance sound.wellFormed.formed unfinished
  have total := sound.total
  unfold poll
  rw [ran]
  cases result with
  | pending =>
    have same : s.balance = l.s.balance := by simpa using balance
    exact sound.moved follows (same ▸ total) sound.whole
  | ready result =>
    cases result with
    | ok granted =>
      apply sound.moved follows
      · rw [sound.asked i unfinished, asked_eq] at balance
        simp only [if_true] at balance
        simp only [List.map_cons, List.sum_cons]
        unfold guarded at total
        omega
      · intro g member
        rcases List.mem_cons.mp member with rfl | before
        · exact guard_whole l _
        · exact sound.whole g before
    | error refused =>
      cases polled with
      | closed closed same =>
        rw [sound.opened] at closed
        exact absurd closed (by decide)

theorem cancel_kept (sound : Sound maxReads l) (made : i < l.s.created) :
    (Outcome.attempt (l.cancel i) .next).Kept (Sound maxReads) := by
  obtain ⟨served, rest, s, wakers, ran, released⟩ :=
    Semaphore.dropAcquire_released sound.wellFormed made sound.small
  have back := Semaphore.cancelled_balance made
  have balance := released.balance
  have total := sound.total
  unfold cancel
  rw [ran]
  apply sound.moved (Semaphore.dropped_follows sound.wellFormed released) _ sound.whole
  unfold guarded at total
  omega

theorem tryLock_kept (sound : Sound maxReads l) (mode : Mode) : (Outcome.attempt (l.tryLock mode) .next).Kept (Sound maxReads) := by
  have small := accepted_small sound.accepted
  have asked : l.asked mode < MAX_PERMIT := by
    have one : 1 < MAX_PERMIT := by decide
    cases mode <;> simp only [RwLock.asked] <;> omega
  obtain ⟨result, s, ran, tried⟩ := Semaphore.tryAcquire_tried (s := l.s) asked
  have follows := tried.follows sound.wellFormed
  have balance := tried.balance
  have total := sound.total
  unfold tryLock
  rw [ran]
  cases tried with
  | closed closed same =>
    rw [sound.opened] at closed
    exact absurd closed (by decide)
  | noPermits opened short same => exact sound.moved follows (same ▸ total) sound.whole
  | taken opened opened' waiters acquires created available =>
    apply sound.moved follows
    · rw [asked_eq] at balance
      simp only [if_true] at balance
      simp only [List.map_cons, List.sum_cons]
      unfold guarded at total
      omega
    · intro g member
      rcases List.mem_cons.mp member with rfl | before
      · exact guard_whole l _
      · exact sound.whole g before

theorem guarded_erase (alive : g ∈ l.guards) :
    g.permits + ((l.guards.erase g).map Guard.permits).sum = l.guarded :=
  List.sum_map_erase Guard.permits alive

theorem giveBack_kept {permits : Nat} {others : List Guard} (sound : Sound maxReads l) (alive : g ∈ l.guards)
    (split : permits + (others.map Guard.permits).sum = g.permits) (reads : ∀ h ∈ others, h.isWrite = false) :
    (Outcome.attempt (l.giveBack g permits others) .next).Kept (Sound maxReads) := by
  have total := sound.total
  have erased := guarded_erase alive
  have small := accepted_small sound.accepted
  obtain ⟨served, rest, s, wakers, ran, released⟩ :=
    Semaphore.release_released permits sound.wellFormed (by omega)
  have balance := released.balance
  unfold giveBack
  rw [ran]
  apply sound.moved (released.follows sound.wellFormed)
  · rw [List.map_append, List.sum_append]
    omega
  · intro h member write
    rcases List.mem_append.mp member with new | old
    · rw [reads h new] at write
      exact absurd write (by decide)
    · exact sound.whole h (List.mem_of_mem_erase old) write

theorem map_permits (g : Guard) : g.map.permits = g.permits ∧ g.map.isWrite = g.isWrite := by
  cases g <;> exact ⟨rfl, rfl⟩

theorem swapped_sound {h : Guard} (sound : Sound maxReads l) (alive : g ∈ l.guards) (permits : h.permits = g.permits)
    (write : h.isWrite = g.isWrite) : Sound maxReads { l with guards := h :: l.guards.erase g } := by
  have total := sound.total
  have erased := guarded_erase alive
  constructor
  · exact sound.bound
  · exact sound.wellFormed
  · exact sound.opened
  · change l.s.balance + (List.map Guard.permits (h :: l.guards.erase g)).sum = l.mr
    rw [List.map_cons, List.sum_cons, permits, erased]
    exact total
  · exact sound.accepted
  · intro k member writes
    rcases List.mem_cons.mp member with rfl | old
    · rw [permits]
      exact sound.whole g alive (write ▸ writes)
    · exact sound.whole k (List.mem_of_mem_erase old) writes
  · exact sound.asked

theorem tryMap_permits (g : Guard) (found : Bool) :
    (g.tryMap found).permits = g.permits ∧ (g.tryMap found).isWrite = g.isWrite := by
  unfold Guard.tryMap
  split
  next => exact map_permits g
  next => exact ⟨rfl, rfl⟩

theorem step_kept [Wakers W] (sound : Sound maxReads l) (admits : 1 ≤ maxReads) (a : LockAction W) :
    (l.step a).Kept (Sound maxReads) := by
  cases a with
  | lock mode => exact lock_sound sound mode
  | poll i waker =>
    simp only [step]
    split
    next => trivial
    next unfinished => exact poll_kept sound (by simpa using unfinished) waker
  | cancel i =>
    simp only [step]
    split
    next made => exact cancel_kept sound made
    next => trivial
  | tryLock mode => exact tryLock_kept sound mode
  | dropGuard g =>
    simp only [step]
    split
    next alive => exact giveBack_kept sound alive (by simp) (by simp)
    next => trivial
  | map g =>
    simp only [step]
    split
    next alive => exact swapped_sound sound alive (map_permits g).1 (map_permits g).2
    next => trivial
  | tryMap g found =>
    simp only [step]
    split
    next alive => exact swapped_sound sound alive (tryMap_permits g found).1 (tryMap_permits g found).2
    next => trivial
  | downgrade g =>
    have bound := sound.bound
    simp only [step]
    split
    next alive =>
      have whole := sound.whole g alive
      cases g with
      | writeGuard permitsAcquired | ownedWriteGuard permitsAcquired =>
        have all : permitsAcquired = l.mr := whole rfl
        rw [downgrade, if_neg (by omega)]
        exact giveBack_kept sound alive (by simp [Guard.permits]; omega) (by simp [Guard.isWrite, Guard.isRead])
      | readGuard | ownedReadGuard | writeGuardMapped permitsAcquired | ownedWriteGuardMapped permitsAcquired =>
        trivial
    next => trivial

end Steps

section Exclusion

/-- At most one writer, and not together with a reader, and no more readers than the lock admits. -/
structure Exclusive (l : RwLock W) : Prop where
  writers : l.guards.countP Guard.isWrite ≤ 1
  apart : 0 < l.guards.countP Guard.isWrite → l.guards.countP Guard.isRead = 0
  readers : l.guards.countP Guard.isRead ≤ l.mr

theorem guarded_eq {guards : List Guard} {mr : Nat} (whole : ∀ g ∈ guards, g.isWrite = true → g.permits = mr) :
    (guards.map Guard.permits).sum = guards.countP Guard.isRead + mr * guards.countP Guard.isWrite := by
  induction guards with
  | nil => simp
  | cons g guards ih =>
    have rest := ih fun h member => whole h (List.mem_cons_of_mem g member)
    have first := whole g (by simp)
    rw [List.map_cons, List.sum_cons, rest, List.countP_cons, List.countP_cons]
    cases g with
    | readGuard | ownedReadGuard =>
      simp only [Guard.permits, Guard.isRead, Guard.isWrite]
      simp
      omega
    | writeGuard permitsAcquired | ownedWriteGuard permitsAcquired | writeGuardMapped permitsAcquired
    | ownedWriteGuardMapped permitsAcquired =>
      have all : permitsAcquired = mr := first rfl
      simp only [Guard.permits, Guard.isRead, Guard.isWrite, all]
      simp [Nat.mul_add]
      omega

/-- Exclusion is a matter of permits: a writer holds all that there are. -/
theorem Sound.exclusive (sound : Sound maxReads l) (admits : 1 ≤ maxReads) : l.Exclusive := by
  have total := sound.total
  have split := guarded_eq sound.whole
  have bound := sound.bound
  have within : l.guards.countP Guard.isRead + l.mr * l.guards.countP Guard.isWrite ≤ l.mr := by
    rw [← split]
    unfold guarded at total
    omega
  have writers : l.guards.countP Guard.isWrite ≤ 1 := by
    by_contra more
    have two : l.mr * 2 ≤ l.mr * l.guards.countP Guard.isWrite := Nat.mul_le_mul_left _ (by omega)
    omega
  constructor
  · exact writers
  · intro some
    have one : l.guards.countP Guard.isWrite = 1 := by omega
    rw [one] at within
    omega
  · exact (Nat.le_add_right _ _).trans within

variable [Wakers W]

theorem reachable_sound (admits : 1 ≤ maxReads) (reached : (machine W maxReads).Reachable l) : Sound maxReads l := by
  apply System.Reachable.invariant _ _ reached
  · rintro l (made | ⟨rfl, rfl⟩)
    · exact withMaxReaders_sound made
    · exact withMaxReaders_sound rfl
  · intro l a sound _
    exact step_kept sound admits a

/-- The lock that admits no reader, while it is written to by `writers` at once. -/
def crowded (writers : Nat) : RwLock W := ⟨0, .new 0, fun _ => .read, List.replicate writers (.writeGuard 0)⟩

omit [Wakers W] in
theorem crowded_tryWrite (writers : Nat) : (crowded writers : RwLock W).tryWrite = .ok (crowded (writers + 1)) := by
  have taken : (Semaphore.new 0 : Semaphore W).tryAcquire 0 = .ok (.ok (), .new 0) := by
    rw [Semaphore.tryAcquire, if_pos (by decide)]
    change (if (0#64 &&& CLOSED == CLOSED) = true then _ else if 0#64 < 0#64 then _ else _) = _
    rw [if_neg (by decide), if_neg (by decide), show 0#64 <<< PERMIT_SHIFT = 0#64 from rfl, BitVec.sub_zero]
  simp only [tryWrite, tryLock, crowded, asked, taken]
  rfl

theorem crowded_reachable (writers : Nat) : (machine W 0).Reachable (crowded writers : RwLock W) := by
  induction writers with
  | zero => exact .initial (.inl rfl)
  | succ writers ih =>
    apply ih.step (a := .tryLock .write) trivial
    change Outcome.attempt (tryWrite _) _ = _
    rw [crowded_tryWrite]
    rfl

/-- Writers do not exclude each other there, nor is there anything to downgrade to. -/
theorem crowded_example : ¬∀ maxReads (l : RwLock Nat), (machine Nat maxReads).Reachable l →
    l.Exclusive ∧ ∀ a, l.step a ≠ .failed .underflow := by
  intro excludes
  have writers := (excludes 0 (crowded 2) (crowded_reachable 2)).1.writers
  exact absurd writers (by decide)

/-- A lock excludes, and no subtraction underflows, exactly if it admits a reader. -/
theorem exclusive_iff (maxReads : Nat) :
    (∀ l : RwLock W, (machine W maxReads).Reachable l →
      l.Exclusive ∧ ∀ a, l.step a ≠ .failed .underflow) ↔ 1 ≤ maxReads := by
  constructor
  · intro excludes
    by_contra none
    obtain rfl : maxReads = 0 := by omega
    have writers := (excludes (crowded 2) (crowded_reachable 2)).1.writers
    change 2 ≤ 1 at writers
    omega
  · intro admits l reached
    have sound := reachable_sound admits reached
    exact ⟨sound.exclusive admits, fun a => (step_kept sound admits a).sound .underflow⟩

end Exclusion

end RwLock

end Osaka.Sync
