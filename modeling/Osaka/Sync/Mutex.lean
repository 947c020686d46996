import Osaka.Sync.SemaphoreFairness

set_option autoImplicit false

namespace Osaka.Sync

open Transitions

variable {W : Type}

inductive MutexGuard where
  | mutexGuard
  | ownedMutexGuard
  | mappedMutexGuard
  deriving DecidableEq

/-- An owned guard is not mapped. -/
def MutexGuard.map : MutexGuard → Option MutexGuard
  | mutexGuard | mappedMutexGuard => some mappedMutexGuard
  | ownedMutexGuard => none

-- try_map, by what the closure finds
def MutexGuard.tryMap (g : MutexGuard) (found : Bool) : Option MutexGuard :=
  g.map.map fun mapped => if found then mapped else g

inductive MutexFault where
  | semaphore (fault : Fault)
  -- unreachable!(): the semaphore is never closed
  | unreachable
  deriving DecidableEq

-- The data is left out. The guards that are alive are ghosts, the mutex does not know them.
structure Mutex (W : Type) where
  s : Semaphore W
  -- whether the Acquire is one of lock_owned
  owned : Nat → Bool
  guards : List MutexGuard

namespace Mutex

def new : Mutex W := ⟨.new 1, fun _ => false, []⟩

variable (m : Mutex W)

def guard (owned : Bool) : MutexGuard := if owned then .ownedMutexGuard else .mutexGuard

def acquire (owned : Bool) : Mutex W :=
  { m with s := m.s.acquire 1, owned := Function.update m.owned m.s.created owned }

def lock : Mutex W := m.acquire false

def lockOwned : Mutex W := m.acquire true

-- self.acquire().await
def poll [Wakers W] (i : Nat) (waker : W) : Except MutexFault (Mutex W) :=
  match m.s.poll i waker with
  | .ok (.pending, s, _) => .ok { m with s := s }
  | .ok (.ready (.ok ()), s, _) => .ok { m with s := s, guards := guard (m.owned i) :: m.guards }
  | .ok (.ready (.error ()), _, _) => .error .unreachable
  | .error fault => .error (.semaphore fault)

def cancel (i : Nat) : Except MutexFault (Mutex W) :=
  match m.s.dropAcquire i with
  | .ok (s, _) => .ok { m with s := s }
  | .error fault => .error (.semaphore fault)

-- whether it has succeeded, or failed with TryLockError(())
def tryAcquire (owned : Bool) : Except MutexFault (Bool × Mutex W) :=
  match m.s.tryAcquire 1 with
  | .ok (.ok (), s) => .ok (true, { m with s := s, guards := guard owned :: m.guards })
  | .ok (.error _, s) => .ok (false, { m with s := s })
  | .error fault => .error (.semaphore fault)

def tryLock : Except MutexFault (Bool × Mutex W) := m.tryAcquire false

def tryLockOwned : Except MutexFault (Bool × Mutex W) := m.tryAcquire true

-- Each guard releases one permit.
def dropGuard (g : MutexGuard) : Except MutexFault (Mutex W) :=
  match m.s.release 1 with
  | .ok (s, _) => .ok { m with s := s, guards := m.guards.erase g }
  | .error fault => .error (.semaphore fault)

-- The old guard is forgotten, not dropped.
def swap (g h : MutexGuard) : Mutex W := { m with guards := h :: m.guards.erase g }

end Mutex

inductive MutexAction (W : Type) where
  | lock
  | lockOwned
  | poll (i : Nat) (waker : W)
  | cancel (i : Nat)
  | tryLock
  | tryLockOwned
  | dropGuard (g : MutexGuard)
  | map (g : MutexGuard)
  | tryMap (g : MutexGuard) (found : Bool)

namespace Mutex

variable [Wakers W]

def step (m : Mutex W) : MutexAction W → Outcome (Mutex W) MutexFault
  | .lock => .next m.lock
  | .lockOwned => .next m.lockOwned
  | .poll i waker => if (m.s.acquires i).completed then .disabled else .attempt (m.poll i waker) .next
  | .cancel i => if i < m.s.created then .attempt (m.cancel i) .next else .disabled
  | .tryLock => .attempt m.tryLock fun (_, t) => .next t
  | .tryLockOwned => .attempt m.tryLockOwned fun (_, t) => .next t
  | .dropGuard g => if g ∈ m.guards then .attempt (m.dropGuard g) .next else .disabled
  | .map g =>
    match g.map with
    | some h => if g ∈ m.guards then .next (m.swap g h) else .disabled
    | none => .disabled
  | .tryMap g found =>
    match g.tryMap found with
    | some h => if g ∈ m.guards then .next (m.swap g h) else .disabled
    | none => .disabled

def machine (W : Type) [Wakers W] : System (Mutex W) (MutexAction W) MutexFault where
  initial m := m = new
  within _ := True
  step m a := m.step a

section Steps

def beneath : MutexAction W → Option (Action W)
  | .lock | .lockOwned => some (.acquire 1)
  | .poll i waker => some (.poll i waker)
  | .cancel i => some (.dropAcquire i)
  | .tryLock | .tryLockOwned => some (.tryAcquire 1)
  | .dropGuard _ => some (.release 1)
  | .map _ | .tryMap _ _ => none

variable {m t : Mutex W} {a : MutexAction W} {i : Nat} {g : MutexGuard}

structure Sound (m : Mutex W) : Prop where
  wellFormed : m.s.WellFormed
  opened : m.s.isClosed = false
  -- one permit, for one guard
  total : m.s.balance + m.guards.length = 1
  asked : ∀ i, (m.s.acquires i).completed = false → (m.s.acquires i).numPermits = 1

structure Advanced (m t : Mutex W) (a : MutexAction W) : Prop where
  sound : Sound t
  semaphore : match beneath a with
    | some b => m.s.step b = .next t.s
    | none => t.s = m.s
  -- A guard comes to life if nobody waits, or for a call that has got the permit.
  born : m.guards.length < t.guards.length → m.s.waiters.list = [] ∨
    ∃ i waker, a = .poll i waker ∧ (m.s.acquires i).queued = true ∧ (m.s.acquires i).node.state = 0

omit [Wakers W] in
theorem new_sound : Sound (new : Mutex W) := by
  have one : 1 ≤ MAX_PERMIT := by decide
  constructor
  · exact Semaphore.new_wellFormed 1 one
  · exact (Semaphore.new_word 1 one).2
  · exact Semaphore.new_balance 1 one
  · simp [new, Semaphore.new]

omit [Wakers W] in
theorem Sound.small (sound : Sound m) : m.s.balance < MAX_PERMIT := by
  have total := sound.total
  have bound : 1 < MAX_PERMIT := by decide
  omega

omit [Wakers W] in
theorem Sound.moved (sound : Sound m) {s : Semaphore W} {guards : List MutexGuard} (follows : m.s.Follows s)
    (total : s.balance + guards.length = 1) : Sound { m with s := s, guards := guards } := by
  constructor
  · exact follows.wellFormed
  · exact follows.closed.trans sound.opened
  · exact total
  · intro i unfinished
    rw [follows.asked i]
    exact sound.asked i (follows.unfinished i unfinished)

omit [Wakers W] in
theorem acquire_sound (sound : Sound m) (owned : Bool) : Sound (m.acquire owned) := by
  have one : 1 ≤ MAX_PERMIT := by decide
  constructor
  · exact Semaphore.acquire_wellFormed sound.wellFormed one
  · exact sound.opened
  · change (m.s.acquire 1).balance + m.guards.length = 1
    rw [Semaphore.acquire_balance]
    exact sound.total
  · intro i unfinished
    simp only [acquire, Semaphore.acquire_acquires] at unfinished ⊢
    by_cases same : i = m.s.created
    · rw [if_pos same]
      rfl
    · rw [if_neg same] at unfinished ⊢
      exact sound.asked i unfinished

theorem poll_kept (sound : Sound m) (unfinished : (m.s.acquires i).completed = false) (waker : W) :
    (Outcome.attempt (m.poll i waker) .next).Kept fun t => Advanced m t (.poll i waker) := by
  obtain ⟨result, s, ran, polled⟩ := Semaphore.poll_polled sound.wellFormed unfinished waker
  have follows := polled.follows sound.wellFormed unfinished
  have balance := polled.balance sound.wellFormed.formed unfinished
  have total := sound.total
  have stepped : m.s.step (.poll i waker) = .next s :=
    Semaphore.step_next (by simpa [Semaphore.allowed] using unfinished) (by rw [Semaphore.perform, ran]; rfl)
  unfold poll
  rw [ran]
  cases result with
  | pending =>
    have same : s.balance = m.s.balance := by simpa using balance
    exact ⟨sound.moved follows (same ▸ total), stepped, fun born => absurd born (lt_irrefl _)⟩
  | ready result =>
    cases result with
    | ok granted =>
      rw [sound.asked i unfinished] at balance
      simp only [if_true] at balance
      refine ⟨sound.moved follows ?_, stepped, fun _ => ?_⟩
      · simp only [List.length_cons]
        omega
      · cases polled with
        | taken opened unqueued changed available =>
          left
          by_contra waits
          have none := sound.wellFormed.busy waits
          have asked := sound.asked i unfinished
          omega
        | full opened queued full changed available => exact .inr ⟨i, waker, rfl, queued, full⟩
    | error refused =>
      cases polled with
      | closed closed same =>
        rw [sound.opened] at closed
        exact absurd closed (by decide)

theorem cancel_kept (sound : Sound m) (made : i < m.s.created) :
    (Outcome.attempt (m.cancel i) .next).Kept fun t => Advanced m t (.cancel i) := by
  obtain ⟨served, rest, s, wakers, ran, released⟩ :=
    Semaphore.dropAcquire_released sound.wellFormed made sound.small
  have back := Semaphore.cancelled_balance made
  have balance := released.balance
  have total := sound.total
  have stepped : m.s.step (.dropAcquire i) = .next s :=
    Semaphore.step_next (by simpa [Semaphore.allowed] using made) (by rw [Semaphore.perform, ran]; rfl)
  unfold cancel
  rw [ran]
  refine ⟨sound.moved (Semaphore.dropped_follows sound.wellFormed released) ?_, stepped,
    fun born => absurd born (lt_irrefl _)⟩
  omega

theorem tryAcquire_kept (sound : Sound m) (owned : Bool) (a : MutexAction W) (tries : beneath a = some (.tryAcquire 1)) :
    ∃ result t, m.tryAcquire owned = .ok (result, t) ∧ Advanced m t a ∧
      (result = true ↔ 1 ≤ m.s.availablePermits) ∧ t.guards.length = m.guards.length + result.toNat := by
  have one : 1 < MAX_PERMIT := by decide
  obtain ⟨result, s, ran, tried⟩ := Semaphore.tryAcquire_tried (s := m.s) one
  have follows := tried.follows sound.wellFormed
  have balance := tried.balance
  have total := sound.total
  have stepped : m.s.step (.tryAcquire 1) = .next s :=
    Semaphore.step_next (by simpa [Semaphore.allowed] using one) (by rw [Semaphore.perform, ran]; rfl)
  have below : match beneath a with
      | some b => m.s.step b = .next s
      | none => s = m.s := by
    rw [tries]
    exact stepped
  unfold tryAcquire
  rw [ran]
  cases tried with
  | closed closed same =>
    rw [sound.opened] at closed
    exact absurd closed (by decide)
  | noPermits opened short same =>
    refine ⟨false, _, rfl, ⟨sound.moved follows (same ▸ total), below, fun born => absurd born (lt_irrefl _)⟩, ?_, rfl⟩
    simp only [Bool.false_eq_true, false_iff]
    omega
  | taken opened opened' waiters acquires created available =>
    refine ⟨true, _, rfl, ⟨sound.moved follows ?_, below, fun _ => ?_⟩, ?_, rfl⟩
    · simp only [if_true] at balance
      simp only [List.length_cons]
      omega
    · left
      by_contra waits
      have none := sound.wellFormed.busy waits
      omega
    · simp only [true_iff]
      omega

theorem dropGuard_kept (sound : Sound m) (alive : g ∈ m.guards) :
    (Outcome.attempt (m.dropGuard g) .next).Kept fun t => Advanced m t (.dropGuard g) := by
  have total := sound.total
  have some := List.length_pos_of_mem alive
  have length := List.length_erase_of_mem alive
  have bound : 1 < MAX_PERMIT := by decide
  have fits : m.s.balance + 1 < MAX_PERMIT := by omega
  obtain ⟨served, rest, s, wakers, ran, released⟩ := Semaphore.release_released 1 sound.wellFormed fits
  have balance := released.balance
  have stepped : m.s.step (.release 1) = .next s :=
    Semaphore.step_next (by simpa [Semaphore.allowed] using fits) (by rw [Semaphore.perform, ran]; rfl)
  unfold dropGuard
  rw [ran]
  refine ⟨sound.moved (released.follows sound.wellFormed) ?_, stepped, fun born => ?_⟩
  · omega
  · change _ < (m.guards.erase g).length at born
    omega

theorem swap_advanced (sound : Sound m) (alive : g ∈ m.guards) (h : MutexGuard) (a : MutexAction W)
    (still : beneath a = none) : Advanced m (m.swap g h) a := by
  have total := sound.total
  have some := List.length_pos_of_mem alive
  have length := List.length_erase_of_mem alive
  have same : (m.swap g h).guards.length = m.guards.length := by
    simp only [swap, List.length_cons]
    omega
  constructor
  · constructor
    · exact sound.wellFormed
    · exact sound.opened
    · rw [same]
      exact total
    · exact sound.asked
  · rw [still]
    rfl
  · intro born
    rw [same] at born
    exact absurd born (lt_irrefl _)

theorem step_kept (sound : Sound m) (a : MutexAction W) : (m.step a).Kept fun t => Advanced m t a := by
  have one : m.s.allowed (.acquire 1 : Action W) = true := decide_eq_true (show 1 ≤ MAX_PERMIT by decide)
  cases a with
  | lock => exact ⟨acquire_sound sound false, Semaphore.step_next one rfl, fun born => absurd born (lt_irrefl _)⟩
  | lockOwned => exact ⟨acquire_sound sound true, Semaphore.step_next one rfl, fun born => absurd born (lt_irrefl _)⟩
  | poll i waker =>
    simp only [step]
    split
    next => trivial
    next unfinished => exact poll_kept sound (by simpa using unfinished) waker
  | cancel i =>
    simp only [step]
    split
    next made => exact cancel_kept sound made
    next => trivial
  | tryLock =>
    obtain ⟨result, t, ran, advanced, _⟩ := tryAcquire_kept sound false .tryLock rfl
    simp only [step, tryLock, ran]
    exact advanced
  | tryLockOwned =>
    obtain ⟨result, t, ran, advanced, _⟩ := tryAcquire_kept sound true .tryLockOwned rfl
    simp only [step, tryLockOwned, ran]
    exact advanced
  | dropGuard g =>
    simp only [step]
    split
    next alive => exact dropGuard_kept sound alive
    next => trivial
  | map g | tryMap g found =>
    simp only [step]
    split
    next h mapped =>
      split
      next alive => exact swap_advanced sound alive h _ rfl
      next => trivial
    next => trivial

theorem reachable_sound (reached : (machine W).Reachable m) : Sound m := by
  apply System.Reachable.invariant _ _ reached
  · rintro _ rfl
    exact new_sound
  · intro m a sound _
    exact (step_kept sound a).mono fun t advanced => advanced.sound

end Steps

section Handover

variable {m t : Mutex W} {a : MutexAction W} {c : Semaphore.Chronicle}

/-- The lock calls in the order in which they were queued, and in which they got the permit. -/
def observe (c : Semaphore.Chronicle) (m : Mutex W) (a : MutexAction W) (t : Mutex W) : Semaphore.Chronicle :=
  match beneath a with
  | some b => c.observe m.s b t.s
  | none => c

def chronicled (W : Type) [Wakers W] : System (Mutex W × Semaphore.Chronicle) (MutexAction W) MutexFault :=
  (machine W).observed ⟨[], [], []⟩ observe

instance : DecidablePred (chronicled W).within := fun _ => inferInstanceAs (Decidable True)

theorem chronicled_semaphore (reached : (chronicled W).Reachable (m, c)) :
    (Semaphore.chronicled W 1).Reachable (m.s, c) := by
  apply System.Reachable.simulates (fun r => (r.1.s, r.2)) _ _ reached
  · rintro ⟨m, c⟩ ⟨rfl, rfl⟩
    exact ⟨rfl, rfl⟩
  · rintro ⟨m, c⟩ a r before _ stepped
    obtain ⟨t, step, rfl⟩ := System.observed_step stepped
    have below := ((step_kept (reachable_sound before.of_observed) a).next step).semaphore
    cases asks : beneath a with
    | none =>
      rw [asks] at below
      left
      simp only [observe, asks, below]
    | some b =>
      rw [asks] at below
      right
      refine ⟨trivial, b, ?_⟩
      simp only [Semaphore.chronicled, System.observed, Semaphore.machine, below, observe, asks]

/-- A call that has got the permit gets its guard before the permit goes to another. -/
def Handed (s : Semaphore W) (c : Semaphore.Chronicle) : Prop :=
  (c.kept c.assigned).Pairwise fun i _ => s.Over i

theorem handed_kept (sound : Sound m) (settled : Semaphore.Settled m.s c)
    (handed : Handed m.s c) (advanced : Advanced m t a) : Handed t.s (observe c m a t) := by
  have wf := sound.wellFormed
  have sound' := advanced.sound
  have wf' := sound'.wellFormed
  have below := advanced.semaphore
  unfold observe
  cases asks : beneath a with
  | none =>
    rw [asks] at below
    rw [below]
    exact handed
  | some b =>
    rw [asks] at below
    obtain ⟨answer, wakers, _, performed⟩ := (Semaphore.step_kept ⟨wf, sound.small⟩).next below
    obtain ⟨served, rest, joined, moved, _⟩ := performed.moved wf sound'.opened
    have one : t.s.heldSum ≤ 1 := by
      have total := sound'.total
      unfold Semaphore.balance at total
      omega
    have held (i : Nat) (queued : (t.s.acquires i).queued = true) (full : (t.s.acquires i).node.state = 0) :
        1 ≤ (t.s.acquires i).held := by
      have unfinished : (t.s.acquires i).completed = false := by
        by_contra completed
        rw [wf'.done i (by simpa using completed)] at queued
        exact absurd queued (by decide)
      rw [Acquire.held, if_pos queued, full, sound'.asked i unfinished]
    have now (j : Nat) (member : j ∈ m.s.nowAssigned t.s) : j ∈ m.s.waiters.list ∧ 1 ≤ (t.s.acquires j).held := by
      have split := List.mem_filter.mp member
      have both : (t.s.acquires j).queued = true ∧ (t.s.acquires j).node.state = 0 := by simpa using split.2
      exact ⟨split.1, held j both.1 both.2⟩
    have fresh : (m.s.nowAssigned t.s).Nodup := wf.nodup.filter _
    change ((c.observe m.s b t.s).kept (c.assigned ++ m.s.nowAssigned t.s)).Pairwise _
    rw [Semaphore.Chronicle.kept, List.filter_append, List.pairwise_append]
    refine ⟨?_, ?_, ?_⟩
    · change ((c.observe m.s b t.s).kept c.assigned).Pairwise _
      rw [c.kept_observe]
      exact (handed.filter _).imp fun done => moved.past _ done
    · apply List.Pairwise.imp_of_mem _ (fresh.filter _)
      intro i j first second apart
      have two := Semaphore.held_twice wf' apart (now i (List.mem_of_mem_filter first)).2 (now j (List.mem_of_mem_filter second)).2
      omega
    · intro i old j new
      have old' : i ∈ (c.kept c.assigned).filter fun i => i ∉ m.s.nowCancelled b := by
        rw [← c.kept_observe m.s b t.s]
        exact old
      obtain ⟨listed, second⟩ := now j (List.mem_of_mem_filter new)
      obtain ⟨kept, uncancelled⟩ := List.mem_filter.mp old'
      rcases settled.holds i kept with done | ⟨queued, full⟩
      · exact moved.past i done
      · have apart : i ≠ j := by
          rintro rfl
          have missing := (wf.waiting i listed).2.2.1
          omega
        rcases performed.settled wf queued full (by simpa using uncancelled) with done | ⟨queued', full'⟩
        · exact done
        · have two := Semaphore.held_twice wf' apart (held i queued' full') second
          omega

theorem chronicled_handed (reached : (chronicled W).Reachable (m, c)) : Handed m.s c := by
  generalize state : (m, c) = r at reached
  induction reached generalizing m c with
  | initial first =>
    subst state
    obtain ⟨rfl, rfl⟩ : m = new ∧ c = _ := first
    simp [Handed, Semaphore.Chronicle.kept]
  | @step r u a before _ stepped ih =>
    obtain ⟨t, step, rfl⟩ := System.observed_step stepped
    obtain ⟨rfl, rfl⟩ := Prod.mk.inj state
    have sound := reachable_sound before.of_observed
    have settled := Semaphore.chronicled_settled (by decide) (chronicled_semaphore before) sound.opened
    exact handed_kept sound settled (ih rfl) ((step_kept sound a).next step)

/-- One guard at a time, and the lock goes on in the order in which it was waited for. -/
theorem handed_over (reached : (chronicled W).Reachable (m, c)) :
    m.guards.length ≤ 1 ∧
    -- the calls that are not cancelled get the permit in the order in which they were queued, each its guard
    -- before the next one gets the permit
    c.kept c.queued = c.kept c.assigned ++ m.s.waiters.list ∧ Handed m.s c ∧
    -- and while one waits, a guard comes to life only for a call that has got the permit
    (∀ a t, m.step a = .next t → m.guards.length < t.guards.length → m.s.waiters.list = [] ∨
      ∃ i waker, a = .poll i waker ∧ i ∈ c.kept c.assigned) ∧
    -- try_lock and try_lock_owned
    (∀ owned, ∃ result t, m.tryAcquire owned = .ok (result, t) ∧
      (result = true ↔ m.guards = [] ∧ (∀ i, m.s.assigned i = 0) ∧ m.s.waiters.list = []) ∧
      t.guards.length = m.guards.length + result.toNat) ∧
    -- neither the unreachable!() nor an assertion of the semaphore is reached
    (∀ a fault, m.step a ≠ .failed fault) ∧
    (m.guards = [] → (∀ i < m.s.created, (m.s.acquires i).completed = true) → m.s.availablePermits = 1) := by
  have sound : Sound m := reachable_sound reached.of_observed
  have wf := sound.wellFormed
  have total := sound.total
  have below := chronicled_semaphore reached
  have unassigned : (∀ i, m.s.assigned i = 0) ↔ m.s.heldSum = 0 := by
    constructor
    · intro none
      apply Finset.sum_eq_zero
      intro i _
      rw [← Semaphore.assigned_eq wf, none]
    · intro none i
      by_cases made : i < m.s.created
      · rw [Semaphore.assigned_eq wf]
        exact (Finset.sum_eq_zero_iff.mp none) i (Finset.mem_range.mpr made)
      · rw [Semaphore.assigned, if_pos (wf.unmade i (by omega))]
  unfold Semaphore.balance at total
  refine ⟨by omega, (Semaphore.chronicled_ordered (by decide) below sound.opened).order, chronicled_handed reached,
    ?_, ?_, ?_, ?_⟩
  · intro a t stepped born
    rcases ((step_kept sound a).next stepped).born born with none | ⟨i, waker, rfl, queued, full⟩
    · exact .inl none
    · exact .inr ⟨i, waker, rfl, (Semaphore.chronicled_settled (by decide) below sound.opened).turn i queued full⟩
  · intro owned
    obtain ⟨result, t, ran, _, available, length⟩ := tryAcquire_kept sound owned
      (if owned then .tryLockOwned else .tryLock) (by cases owned <;> rfl)
    refine ⟨result, t, ran, ?_, length⟩
    rw [available, unassigned, ← List.length_eq_zero_iff]
    constructor
    · intro some
      refine ⟨by omega, by omega, ?_⟩
      by_contra waits
      have none := wf.busy waits
      omega
    · rintro ⟨free, none, _⟩
      omega
  · intro a
    exact (step_kept sound a).sound
  · intro free idle
    have none : m.s.heldSum = 0 := by
      rw [← unassigned]
      intro i
      by_cases made : i < m.s.created
      · rw [Semaphore.assigned, if_pos (idle i made)]
      · rw [Semaphore.assigned, if_pos (wf.unmade i (by omega))]
    rw [free, List.length_nil] at total
    omega

/-- A call is cancelled when the lock is already its own, which goes on to the next. -/
def exampleQueue : List (MutexAction Nat) :=
  [.tryLock, .lock, .poll 0 7, .lockOwned, .poll 1 8, .lock, .poll 2 9, .map .mutexGuard,
    .dropGuard .mappedMutexGuard, .cancel 0, .poll 1 8]

theorem exampleQueue_moves :
    ((chronicled Nat).run (new, ⟨[], [], []⟩) exampleQueue).map
      (fun r => (r.1.guards, r.2.kept r.2.queued, r.2.kept r.2.assigned)) =
        some ([.ownedMutexGuard], [1, 2], [1]) := by
  decide +kernel

theorem handed_over_run : ∃ m : Mutex Nat, m.guards = [.ownedMutexGuard] ∧ m.s.waiters.list = [2] := by
  have start : (chronicled Nat).Reachable (new, ⟨[], [], []⟩) := .initial ⟨rfl, rfl⟩
  obtain ⟨⟨m, c⟩, ran, moves⟩ := Option.map_eq_some_iff.mp exampleQueue_moves
  simp only [Prod.mk.injEq] at moves
  obtain ⟨guards, queued, assigned⟩ := moves
  have order := (handed_over (System.reachable_run _ start ran)).2.1
  exact ⟨m, guards, by simpa [queued, assigned] using order.symm⟩

end Handover

end Mutex

end Osaka.Sync
