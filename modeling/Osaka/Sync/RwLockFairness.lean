import Osaka.Sync.RwLockExclusion
import Osaka.Sync.SemaphoreFairness

set_option autoImplicit false

namespace Osaka.Sync

open Transitions

variable {W : Type}

namespace RwLock

variable {l t : RwLock W} {a : LockAction W} {g : Guard} {i maxReads : Nat}

section Beneath

def beneath (l : RwLock W) : LockAction W → Option (Action W)
  | .lock mode => some (.acquire (l.asked mode))
  | .poll i waker => some (.poll i waker)
  | .cancel i => some (.dropAcquire i)
  | .tryLock mode => some (.tryAcquire (l.asked mode))
  | .dropGuard g => some (.release g.permits)
  | .map _ | .tryMap _ _ => none
  | .downgrade g => some (.release (g.permits - 1))

theorem poll_ok [Wakers W] {waker : W} (ran : l.poll i waker = .ok t) : ∃ result wakers,
    l.s.poll i waker = .ok (result, t.s, wakers) ∧ (t.guards = l.guards ∨
      result = .ready (.ok ()) ∧ t.guards = l.guard (l.requests i) :: l.guards) := by
  unfold poll at ran
  split at ran
  next s wakers polled =>
    obtain rfl := Except.ok.inj ran
    exact ⟨_, wakers, polled, .inl rfl⟩
  next s wakers polled =>
    obtain rfl := Except.ok.inj ran
    exact ⟨_, wakers, polled, .inr ⟨rfl, rfl⟩⟩
  next => simp at ran
  next => simp at ran

theorem cancel_ok (ran : l.cancel i = .ok t) : t.guards = l.guards ∧ ∃ wakers, l.s.dropAcquire i = .ok (t.s, wakers) := by
  unfold cancel at ran
  split at ran
  next s wakers dropped =>
    obtain rfl := Except.ok.inj ran
    exact ⟨rfl, wakers, dropped⟩
  next => simp at ran

theorem tryLock_ok {mode : Mode} (ran : l.tryLock mode = .ok t) : ∃ result,
    l.s.tryAcquire (l.asked mode) = .ok (result, t.s) ∧ (t.guards = l.guards ∨
      result = .ok () ∧ t.guards = l.guard mode :: l.guards) := by
  unfold tryLock at ran
  split at ran
  next s tried =>
    obtain rfl := Except.ok.inj ran
    exact ⟨_, tried, .inr ⟨rfl, rfl⟩⟩
  next s tried =>
    obtain rfl := Except.ok.inj ran
    exact ⟨_, tried, .inl rfl⟩
  next => simp at ran
  next => simp at ran

theorem giveBack_ok {permits : Nat} {others : List Guard} (ran : l.giveBack g permits others = .ok t) :
    t.guards = others ++ l.guards.erase g ∧ ∃ wakers, l.s.release permits = .ok (t.s, wakers) := by
  unfold giveBack at ran
  split at ran
  next s wakers released =>
    obtain rfl := Except.ok.inj ran
    exact ⟨rfl, wakers, released⟩
  next => simp at ran

def downgraded : Guard → Option Guard
  | .writeGuard _ => some .readGuard
  | .ownedWriteGuard _ => some .ownedReadGuard
  | _ => none

theorem downgrade_ok {result : Except LockFault (RwLock W)} (downgrades : l.downgrade g = some result)
    (ran : result = .ok t) : ∃ read, downgraded g = some read ∧ l.giveBack g (g.permits - 1) [read] = .ok t := by
  cases g with
  | writeGuard permits | ownedWriteGuard permits =>
    simp only [downgrade, Option.some.injEq] at downgrades
    rw [← downgrades] at ran
    split at ran
    next => simp at ran
    next => exact ⟨_, rfl, ran⟩
  | _ => simp [downgrade] at downgrades

inductive Stepped [Wakers W] (l t : RwLock W) : LockAction W → Prop where
  | lock {mode : Mode} : t = l.lock mode → Stepped l t (.lock mode)
  | poll {i : Nat} {waker : W} {result : Acquired} {wakers : List W} : (l.s.acquires i).completed = false →
      l.s.poll i waker = .ok (result, t.s, wakers) →
      t.guards = l.guards ∨ result = .ready (.ok ()) ∧ t.guards = l.guard (l.requests i) :: l.guards →
      Stepped l t (.poll i waker)
  | cancel {i : Nat} {wakers : List W} : i < l.s.created → l.s.dropAcquire i = .ok (t.s, wakers) →
      t.guards = l.guards → Stepped l t (.cancel i)
  | tryLock {mode : Mode} {result : Except TryAcquireError Unit} : l.s.tryAcquire (l.asked mode) = .ok (result, t.s) →
      t.guards = l.guards ∨ result = .ok () ∧ t.guards = l.guard mode :: l.guards → Stepped l t (.tryLock mode)
  | dropGuard {g : Guard} {wakers : List W} : g ∈ l.guards → l.s.release g.permits = .ok (t.s, wakers) →
      t.guards = l.guards.erase g → Stepped l t (.dropGuard g)
  | map {g : Guard} : g ∈ l.guards → t = l.map g → Stepped l t (.map g)
  | tryMap {g : Guard} {found : Bool} : g ∈ l.guards → t = l.tryMap g found → Stepped l t (.tryMap g found)
  | downgrade {g read : Guard} {wakers : List W} : g ∈ l.guards → downgraded g = some read →
      l.s.release (g.permits - 1) = .ok (t.s, wakers) → t.guards = read :: l.guards.erase g →
      Stepped l t (.downgrade g)

variable [Wakers W]

theorem step_stepped (stepped : l.step a = .next t) : Stepped l t a := by
  cases a with
  | lock mode => exact .lock (by simpa [step, eq_comm] using stepped)
  | poll i waker =>
    simp only [step] at stepped
    split at stepped
    next => simp at stepped
    next unfinished =>
      obtain ⟨result, wakers, polled, guards⟩ := poll_ok (Outcome.attempt_next stepped)
      exact .poll (by simpa using unfinished) polled guards
  | cancel i =>
    simp only [step] at stepped
    split at stepped
    next made =>
      obtain ⟨guards, wakers, dropped⟩ := cancel_ok (Outcome.attempt_next stepped)
      exact .cancel made dropped guards
    next => simp at stepped
  | tryLock mode =>
    obtain ⟨result, tried, guards⟩ := tryLock_ok (Outcome.attempt_next stepped)
    exact .tryLock tried guards
  | dropGuard g =>
    simp only [step] at stepped
    split at stepped
    next alive =>
      obtain ⟨guards, wakers, released⟩ := giveBack_ok (Outcome.attempt_next stepped)
      exact .dropGuard alive released guards
    next => simp at stepped
  | map g =>
    simp only [step] at stepped
    split at stepped
    next alive => exact .map alive (by simpa [eq_comm] using stepped)
    next => simp at stepped
  | tryMap g found =>
    simp only [step] at stepped
    split at stepped
    next alive => exact .tryMap alive (by simpa [eq_comm] using stepped)
    next => simp at stepped
  | downgrade g =>
    simp only [step] at stepped
    split at stepped
    next alive =>
      split at stepped
      next result downgrades =>
        obtain ⟨read, reads, gives⟩ := downgrade_ok downgrades (Outcome.attempt_next stepped)
        obtain ⟨guards, wakers, released⟩ := giveBack_ok gives
        exact .downgrade alive reads released guards
      next => simp at stepped
    next => simp at stepped

omit [Wakers W] in
theorem Sound.asked_small (sound : Sound maxReads l) (mode : Mode) : l.asked mode < MAX_PERMIT := by
  have small := accepted_small sound.accepted
  have one : 1 < MAX_PERMIT := by decide
  cases mode <;> simp only [RwLock.asked] <;> omega

theorem Stepped.beneath (sound : Sound maxReads l) (stepped : Stepped l t a) :
    match l.beneath a with
    | some b => l.s.step b = .next t.s
    | none => t.s = l.s := by
  have small := accepted_small sound.accepted
  have total := sound.total
  have back {g : Guard} {permits : Nat} (alive : g ∈ l.guards) (most : permits ≤ g.permits) :
      l.s.allowed (.release permits : Action W) = true := by
    have erased := guarded_erase alive
    simp only [Semaphore.allowed, decide_eq_true_eq]
    omega
  cases stepped with
  | @lock mode same =>
    rw [same]
    exact Semaphore.step_next (by simpa [Semaphore.allowed] using (sound.asked_small mode).le) rfl
  | poll unfinished polled guards =>
    exact Semaphore.step_next (by simpa [Semaphore.allowed] using unfinished) (by rw [Semaphore.perform, polled]; rfl)
  | cancel made dropped guards =>
    exact Semaphore.step_next (by simpa [Semaphore.allowed] using made) (by rw [Semaphore.perform, dropped]; rfl)
  | @tryLock mode result tried guards =>
    exact Semaphore.step_next (by simpa [Semaphore.allowed] using sound.asked_small mode)
      (by rw [Semaphore.perform, tried]; rfl)
  | dropGuard alive released guards =>
    exact Semaphore.step_next (back alive (le_refl _)) (by rw [Semaphore.perform, released]; rfl)
  | map alive same | tryMap alive same =>
    rw [same]
    rfl
  | downgrade alive reads released guards =>
    exact Semaphore.step_next (back alive (Nat.sub_le _ _)) (by rw [Semaphore.perform, released]; rfl)

/-- The lock calls in the order in which they were queued, and in which they got their permits. -/
def observe (c : Semaphore.Chronicle) (l : RwLock W) (a : LockAction W) (t : RwLock W) : Semaphore.Chronicle :=
  match l.beneath a with
  | some b => c.observe l.s b t.s
  | none => c

def chronicled (W : Type) [Wakers W] (maxReads : Nat) :
    System (RwLock W × Semaphore.Chronicle) (LockAction W) LockFault :=
  (machine W maxReads).observed ⟨[], [], []⟩ observe

instance (maxReads : Nat) : DecidablePred (machine W maxReads).within := fun _ => inferInstanceAs (Decidable True)

instance (maxReads : Nat) : DecidablePred (chronicled W maxReads).within :=
  fun _ => inferInstanceAs (Decidable True)

theorem chronicled_semaphore {c : Semaphore.Chronicle} (admits : 1 ≤ maxReads)
    (reached : (chronicled W maxReads).Reachable (l, c)) : (Semaphore.chronicled W maxReads).Reachable (l.s, c) := by
  apply System.Reachable.simulates (fun r => (r.1.s, r.2)) _ _ reached
  · rintro ⟨l, c⟩ ⟨made, rfl⟩
    refine ⟨?_, rfl⟩
    rcases made with made | ⟨rfl, rfl⟩
    · unfold withMaxReaders at made
      split at made
      next =>
        obtain rfl := Option.some.inj made
        rfl
      next => simp at made
    · rfl
  · rintro ⟨l, c⟩ a r before _ stepped
    obtain ⟨t, step, rfl⟩ := System.observed_step stepped
    have sound := reachable_sound admits before.of_observed
    have below := (step_stepped step).beneath sound
    cases asks : l.beneath a with
    | none =>
      rw [asks] at below
      left
      simp only [observe, asks, below]
    | some b =>
      rw [asks] at below
      right
      refine ⟨trivial, b, ?_⟩
      simp only [Semaphore.chronicled, System.observed, Semaphore.machine, below, observe, asks]

end Beneath

section Granting

variable [Wakers W] {c : Semaphore.Chronicle}

theorem Stepped.grants (sound : Sound maxReads l) (admits : 1 ≤ maxReads) (settled : Semaphore.Settled l.s c)
    (stepped : Stepped l t a) (born : l.guards.length < t.guards.length) :
    l.s.waiters.list = [] ∨ ∃ i waker, a = .poll i waker ∧ i ∈ c.kept c.assigned := by
  have wf := sound.wellFormed
  have bound := sound.bound
  by_cases waits : l.s.waiters.list = []
  · exact .inl waits
  have none := wf.busy waits
  have exchanged {g h : Guard} (alive : g ∈ l.guards) (same : t.guards = h :: l.guards.erase g) : False := by
    have length := List.length_erase_of_mem alive
    have some := List.length_pos_of_mem alive
    rw [same, List.length_cons] at born
    omega
  cases stepped with
  | lock same =>
    rw [same] at born
    exact absurd born (lt_irrefl _)
  | @poll i waker result wakers unfinished polled guards =>
    rcases guards with same | ⟨rfl, guards⟩
    · rw [same] at born
      exact absurd born (lt_irrefl _)
    · obtain ⟨_, s, ran, made⟩ := Semaphore.poll_polled wf unfinished waker
      obtain ⟨rfl, rfl, -⟩ : Acquired.ready (.ok ()) = _ ∧ t.s = s ∧ wakers = [] := by simpa [polled] using ran
      cases made with
      | taken opened unqueued changed available =>
        have asked := sound.asked i unfinished
        have some : 1 ≤ l.asked (l.requests i) := by
          cases l.requests i <;> simp only [RwLock.asked] <;> omega
        omega
      | full opened queued full changed available => exact .inr ⟨i, waker, rfl, settled.turn i queued full⟩
  | cancel made dropped same =>
    rw [same] at born
    exact absurd born (lt_irrefl _)
  | @tryLock mode result tried guards =>
    rcases guards with same | ⟨rfl, guards⟩
    · rw [same] at born
      exact absurd born (lt_irrefl _)
    · obtain ⟨_, s, ran, made⟩ := Semaphore.tryAcquire_tried (s := l.s) (sound.asked_small mode)
      obtain ⟨rfl, rfl⟩ : Except.ok () = _ ∧ t.s = s := by simpa [tried] using ran
      cases made with
      | taken opened opened' waiters acquires created available =>
        have some : 1 ≤ l.asked mode := by
          cases mode <;> simp only [RwLock.asked] <;> omega
        omega
  | dropGuard alive released same =>
    rw [same, List.length_erase_of_mem alive] at born
    omega
  | map alive same | tryMap alive same => exact (exchanged alive (by rw [same]; rfl)).elim
  | downgrade alive reads released same => exact (exchanged alive same).elim

end Granting

section Downgrading

theorem downgraded_some {read : Guard} (reads : downgraded g = some read) :
    read.isRead = true ∧ read.permits = 1 ∧ g.isWrite = true ∧
      l.downgrade g = some (if g.permits = 0 then .error .underflow else l.giveBack g (g.permits - 1) [read]) := by
  cases g with
  | writeGuard permits | ownedWriteGuard permits =>
    obtain rfl := Option.some.inj reads
    exact ⟨rfl, rfl, rfl, rfl⟩
  | _ => simp [downgraded] at reads

theorem Sound.alone (sound : Sound maxReads l) (admits : 1 ≤ maxReads) (alive : g ∈ l.guards)
    (write : g.isWrite = true) : l.guards = [g] := by
  have exclusive := sound.exclusive admits
  have one : 0 < l.guards.countP Guard.isWrite := List.countP_pos_iff.mpr ⟨g, alive, write⟩
  have writers := exclusive.writers
  have readers := exclusive.apart one
  have all := List.length_eq_countP_add_countP Guard.isRead (l := l.guards)
  have same : l.guards.countP Guard.isWrite = l.guards.countP fun h => decide ¬h.isRead = true := by
    apply List.countP_congr
    intro h _
    simp [Guard.isWrite]
  obtain ⟨h, only⟩ : ∃ h, l.guards = [h] := List.length_eq_one_iff.mp (by omega)
  rw [only, List.mem_singleton] at alive
  rw [only, alive]

theorem read_tryMap (read : g.isRead = true) (found : Bool) : g.tryMap found = g := by
  cases g <;> cases found <;> first | rfl | simp [Guard.isRead] at read

variable [Wakers W]

theorem Stepped.keeps (stepped : Stepped l t a) (alive : g ∈ l.guards) (read : g.isRead = true)
    (other : ∀ h, a = .dropGuard h → h ≠ g) : g ∈ t.guards := by
  have grown {h : Guard} {guards : List Guard} (more : guards = l.guards ∨ guards = h :: l.guards) : g ∈ guards := by
    rcases more with same | same <;> simp [same, alive]
  have exchanged {h : Guard} (found : Bool) : g ∈ h.tryMap found :: l.guards.erase h := by
    by_cases same : g = h
    · rw [← same, read_tryMap read]
      exact List.mem_cons_self
    · exact List.mem_cons_of_mem _ ((List.mem_erase_of_ne same).mpr alive)
  cases stepped with
  | lock same =>
    rw [same]
    exact alive
  | poll unfinished polled guards => exact grown (guards.imp id And.right)
  | cancel made dropped same =>
    rw [same]
    exact alive
  | tryLock tried guards => exact grown (guards.imp id And.right)
  | dropGuard living released same =>
    rw [same]
    exact (List.mem_erase_of_ne (other _ rfl).symm).mpr alive
  | map living same =>
    rw [same]
    exact exchanged true
  | @tryMap h found living same =>
    rw [same]
    exact exchanged found
  | @downgrade h other wakers living reads released same =>
    have write := (downgraded_some (l := l) reads).2.2.1
    have apart : g ≠ h := by
      rintro rfl
      simp [Guard.isWrite, read] at write
    rw [same]
    exact List.mem_cons_of_mem _ ((List.mem_erase_of_ne apart).mpr alive)

theorem run_keeps {actions : List (LockAction W)} (alive : g ∈ l.guards) (read : g.isRead = true)
    (ran : (machine W maxReads).run l actions = some t) (other : .dropGuard g ∉ actions) : g ∈ t.guards := by
  induction actions generalizing l with
  | nil =>
    obtain rfl : l = t := Option.some.inj ran
    exact alive
  | cons a rest ih =>
    obtain ⟨u, _, stepped, ran⟩ := (machine W maxReads).run_cons ran
    rw [List.mem_cons, not_or] at other
    apply ih _ ran other.2
    apply (step_stepped stepped).keeps alive read
    rintro h rfl rfl
    exact other.1 rfl

omit [Wakers W] in
theorem Sound.balance_eq (sound : Sound maxReads l) :
    l.s.availablePermits + ∑ i ∈ Finset.range l.s.created, l.s.assigned i = l.s.balance := by
  have total : ∑ i ∈ Finset.range l.s.created, l.s.assigned i = l.s.heldSum :=
    Finset.sum_congr rfl fun i _ => Semaphore.assigned_eq sound.wellFormed i
  rw [total]
  rfl

/-- What is taken comes back, and nobody overtakes. -/
theorem released_in_order {c : Semaphore.Chronicle} (admits : 1 ≤ maxReads)
    (reached : (chronicled W maxReads).Reachable (l, c)) :
    -- a downgrade leaves one permit with the read guard, and no writer for as long as that is alive
    (∀ g ∈ l.guards, ∀ read, downgraded g = some read → ∃ t, l.step (.downgrade g) = .next t ∧
      read.isRead = true ∧ read.permits = 1 ∧ t.guards = [read] ∧
      t.s.availablePermits + ∑ i ∈ Finset.range t.s.created, t.s.assigned i + 1 = maxReads ∧
      ∀ actions u, (machine W maxReads).run t actions = some u →
        (.dropGuard read ∉ actions → read ∈ u.guards) ∧ (read ∈ u.guards → ∀ h ∈ u.guards, h.isWrite = false)) ∧
    -- the calls that are not cancelled get their permits in the order in which they were queued
    c.kept c.queued = c.kept c.assigned ++ l.s.waiters.list ∧
    -- and while one waits, a guard comes to life only for a call that has got them
    (∀ a t, l.step a = .next t → l.guards.length < t.guards.length → l.s.waiters.list = [] ∨
      ∃ i waker, a = .poll i waker ∧ i ∈ c.kept c.assigned) ∧
    -- each permit is available, assigned to a pending call or held by a guard
    l.s.availablePermits + ∑ i ∈ Finset.range l.s.created, l.s.assigned i + l.guarded = maxReads ∧
    (l.guards = [] → (∀ i < l.s.created, (l.s.acquires i).completed = true) → l.s.availablePermits = maxReads) ∧
    ∀ a fault, l.step a ≠ .failed fault := by
  have reached' : (machine W maxReads).Reachable l := reached.of_observed
  have sound := reachable_sound admits reached'
  have below := chronicled_semaphore admits reached
  have bound := sound.bound
  have total := sound.total
  have small : maxReads < MAX_PERMIT := by
    rw [← bound]
    exact accepted_small sound.accepted
  refine ⟨?_, (Semaphore.chronicled_ordered small below sound.opened).order, ?_, ?_, ?_, ?_⟩
  · intro g alive read reads
    obtain ⟨isRead, one, write, downgrades⟩ := downgraded_some (l := l) reads
    have enabled : l.step (.downgrade g) ≠ .disabled := by
      simp only [step, if_pos alive, downgrades]
      exact Outcome.attempt_enabled fun _ => by simp
    obtain ⟨t, stepped, sound'⟩ := (step_kept sound admits (.downgrade g)).taken enabled
    have guards : t.guards = [read] := by
      cases step_stepped stepped with
      | downgrade living reads' released same =>
        obtain rfl : read = _ := Option.some.inj (reads.symm.trans reads')
        rw [same, sound.alone admits alive write]
        simp
    have total' := sound'.total
    rw [← sound'.balance_eq] at total'
    have after : (machine W maxReads).Reachable t := reached'.step (a := .downgrade g) trivial stepped
    refine ⟨t, stepped, isRead, one, guards, ?_, ?_⟩
    · simpa [guarded, guards, one, sound'.bound] using total'
    · intro actions u ran
      have exclusive := (reachable_sound admits (System.reachable_run _ after ran)).exclusive admits
      refine ⟨run_keeps (by simp [guards]) isRead ran, fun living h member => ?_⟩
      by_contra writes
      have writers : 0 < u.guards.countP Guard.isWrite := List.countP_pos_iff.mpr ⟨h, member, by simpa using writes⟩
      have readers : 0 < u.guards.countP Guard.isRead := List.countP_pos_iff.mpr ⟨read, living, isRead⟩
      have none := exclusive.apart writers
      omega
  · intro a t stepped born
    exact (step_stepped stepped).grants sound admits (Semaphore.chronicled_settled small below sound.opened) born
  · rw [sound.balance_eq, total, bound]
  · intro none idle
    have unassigned : ∑ i ∈ Finset.range l.s.created, l.s.assigned i = 0 := by
      apply Finset.sum_eq_zero
      intro i member
      rw [Semaphore.assigned, if_pos (idle i (Finset.mem_range.mp member))]
    have balance := sound.balance_eq
    simp only [guarded, none, List.map_nil, List.sum_nil] at total
    omega
  · intro a
    exact (step_kept sound admits a).sound

/-- A reader and a writer queue behind a writer, which is downgraded. -/
def exampleQueue : List (LockAction Nat) :=
  [.tryLock .write, .lock .read, .poll 0 7, .lock .writeOwned, .poll 1 8, .downgrade (.writeGuard 2), .poll 0 9]

def exampleLock : RwLock Nat := ⟨2, .new 2, fun _ => .read, []⟩

theorem exampleQueue_moves :
    ((chronicled Nat 2).run (exampleLock, ⟨[], [], []⟩) exampleQueue).map
      (fun r => (r.1.guards, r.2.kept r.2.queued, r.2.kept r.2.assigned)) =
        some ([.readGuard, .readGuard], [0, 1], [0]) := by
  decide +kernel

theorem released_in_order_run :
    ∃ l : RwLock Nat, l.guards = [.readGuard, .readGuard] ∧ l.s.waiters.list = [1] ∧ l.s.availablePermits = 0 := by
  have start : (chronicled Nat 2).Reachable (exampleLock, ⟨[], [], []⟩) := .initial ⟨.inl rfl, rfl⟩
  obtain ⟨⟨l, c⟩, ran, moves⟩ := Option.map_eq_some_iff.mp exampleQueue_moves
  simp only [Prod.mk.injEq] at moves
  obtain ⟨guards, queued, assigned⟩ := moves
  obtain ⟨_, order, _, total, _⟩ := released_in_order (by decide) (System.reachable_run _ start ran)
  have waiting : l.s.waiters.list = [1] := by simpa [queued, assigned] using order.symm
  refine ⟨l, guards, waiting, ?_⟩
  simp only [guarded, guards, List.map_cons, List.map_nil, List.sum_cons, List.sum_nil, Guard.permits] at total
  omega

end Downgrading

end RwLock

end Osaka.Sync
