import Mathlib.Algebra.Order.BigOperators.Group.Finset
import Osaka.Sync.SemaphoreSteps

set_option autoImplicit false

namespace Osaka.Sync

open Transitions

variable {W : Type}

inductive Action (W : Type) where
  | acquire (numPermits : Nat)
  | poll (i : Nat) (waker : W)
  | dropAcquire (i : Nat)
  | tryAcquire (numPermits : Nat)
  | release (added : Nat)
  | close

inductive Answer where
  | none
  | acquired (result : Acquired)
  | tried (result : Except TryAcquireError Unit)

namespace Semaphore

variable {s t : Semaphore W} {a : Action W}

/-- An Acquire that has completed is not polled again, and the total of the permits stays below the maximum. -/
def allowed (s : Semaphore W) : Action W → Bool
  | .acquire n => decide (n ≤ MAX_PERMIT)
  | .poll i _ => !(s.acquires i).completed
  | .dropAcquire i => decide (i < s.created)
  -- try_acquire panics on more, before it has changed anything.
  | .tryAcquire n => decide (n < MAX_PERMIT)
  | .release n => decide (s.balance + n < MAX_PERMIT)
  | .close => true

variable [Wakers W]

def perform (s : Semaphore W) : Action W → Except Fault (Answer × Semaphore W × List W)
  | .acquire n => .ok (.none, s.acquire n, [])
  | .poll i waker => (s.poll i waker).map fun (result, t, wakers) => (.acquired result, t, wakers)
  | .dropAcquire i => (s.dropAcquire i).map fun (t, wakers) => (.none, t, wakers)
  | .tryAcquire n => (s.tryAcquire n).map fun (result, t) => (.tried result, t, [])
  | .release n => (s.release n).map fun (t, wakers) => (.none, t, wakers)
  | .close => .ok (.none, s.close.1, s.close.2)

def step (s : Semaphore W) (a : Action W) : Outcome (Semaphore W) Fault :=
  if s.allowed a then Outcome.attempt (s.perform a) fun (_, t, _) => .next t else .disabled

omit [Wakers W] in
inductive Performed (s t : Semaphore W) : Action W → Answer → List W → Prop where
  | acquire {n : Nat} : n ≤ MAX_PERMIT → t = s.acquire n → Performed s t (.acquire n) .none []
  | poll {i : Nat} {waker : W} {result : Acquired} : (s.acquires i).completed = false →
      Polled s t i waker result → Performed s t (.poll i waker) (.acquired result) []
  | dropAcquire {i : Nat} {served rest : List Nat} {wakers : List W} : i < s.created →
      Released (s.cancelled i) (s.acquires i).held served rest t wakers →
      Performed s t (.dropAcquire i) .none wakers
  | tryAcquire {n : Nat} {result : Except TryAcquireError Unit} : Tried s t n result →
      Performed s t (.tryAcquire n) (.tried result) []
  | release {n : Nat} {served rest : List Nat} {wakers : List W} : s.balance + n < MAX_PERMIT →
      Released s n served rest t wakers → Performed s t (.release n) .none wakers
  | close {wakers : List W} : Shut s t wakers → Performed s t .close .none wakers

theorem perform_performed (wf : s.WellFormed) (small : s.balance < MAX_PERMIT) (allowed : s.allowed a = true) :
    ∃ answer t wakers, s.perform a = .ok (answer, t, wakers) ∧ Performed s t a answer wakers := by
  cases a with
  | acquire n => exact ⟨_, _, _, rfl, .acquire (by simpa [Semaphore.allowed] using allowed) rfl⟩
  | poll i waker =>
    have unfinished : (s.acquires i).completed = false := by simpa [Semaphore.allowed] using allowed
    obtain ⟨result, t, ran, polled⟩ := poll_polled wf unfinished waker
    exact ⟨_, t, _, by rw [perform, ran]; rfl, .poll unfinished polled⟩
  | dropAcquire i =>
    have made : i < s.created := by simpa [Semaphore.allowed] using allowed
    obtain ⟨served, rest, t, wakers, ran, released⟩ := dropAcquire_released wf made small
    exact ⟨_, t, _, by rw [perform, ran]; rfl, .dropAcquire made released⟩
  | tryAcquire n =>
    obtain ⟨result, t, ran, tried⟩ := tryAcquire_tried (s := s) (n := n) (by simpa [Semaphore.allowed] using allowed)
    exact ⟨_, t, _, by rw [perform, ran]; rfl, .tryAcquire tried⟩
  | release n =>
    have fits : s.balance + n < MAX_PERMIT := by simpa [Semaphore.allowed] using allowed
    obtain ⟨served, rest, t, wakers, ran, released⟩ := release_released n wf fits
    exact ⟨_, t, _, by rw [perform, ran]; rfl, .release fits released⟩
  | close => exact ⟨_, _, _, rfl, .close (close_shut wf.formed)⟩

def granted (s : Semaphore W) : Action W → Answer → Nat
  | .poll i _, .acquired (.ready (.ok ())) => (s.acquires i).numPermits
  | .tryAcquire n, .tried (.ok ()) => n
  | _, _ => 0

def added : Action W → Nat
  | .release n => n
  | _ => 0

section Steps

omit [Wakers W]

variable {answer : Answer} {wakers : List W}

theorem Performed.wellFormed (wf : s.WellFormed) (performed : Performed s t a answer wakers) : t.WellFormed := by
  cases performed with
  | acquire asked same =>
    rw [same]
    exact acquire_wellFormed wf asked
  | poll unfinished polled => exact polled.wellFormed wf unfinished
  | dropAcquire made released => exact released.wellFormed (cancelled_wellFormed wf)
  | tryAcquire tried => exact tried.wellFormed wf
  | release small released => exact released.wellFormed wf
  | close shut => exact shut.wellFormed wf

theorem Performed.balance [Wakers W] (wf : s.WellFormed) (performed : Performed s t a answer wakers) :
    t.balance + s.granted a answer = s.balance + added a := by
  cases performed with
  | acquire asked same =>
    rw [same, acquire_balance]
    rfl
  | @poll i waker result unfinished polled =>
    have balance := polled.balance wf.formed unfinished
    change _ = s.balance + 0
    rw [Nat.add_zero, ← balance]
    cases polled <;> rfl
  | dropAcquire made released =>
    have back := cancelled_balance made
    have balance := released.balance
    simp only [granted, added]
    omega
  | tryAcquire tried =>
    have balance := tried.balance
    change _ = s.balance + 0
    rw [Nat.add_zero, ← balance]
    cases tried <;> rfl
  | release small released => exact released.balance
  | close shut => exact shut.balance

theorem Performed.small [Wakers W] (wf : s.WellFormed) (small : s.balance < MAX_PERMIT)
    (performed : Performed s t a answer wakers) : t.balance < MAX_PERMIT := by
  have balance := performed.balance wf
  cases performed with
  | release fits released =>
    simp only [added] at balance
    omega
  | _ =>
    simp only [added] at balance
    omega

theorem Performed.opened (performed : Performed s t a answer wakers) (opened : t.isClosed = false) :
    s.isClosed = false := by
  cases performed with
  | acquire asked same =>
    rw [same] at opened
    exact opened
  | poll unfinished polled =>
    cases polled with
    | closed closed same =>
      rw [same] at opened
      exact opened
    | taken opened | full opened | waiting opened | joined opened => exact opened
  | dropAcquire made released =>
    rw [released.closed] at opened
    exact opened
  | tryAcquire tried =>
    cases tried with
    | closed closed same =>
      rw [same] at opened
      exact opened
    | noPermits opened | taken opened => exact opened
  | release small released =>
    rw [released.closed] at opened
    exact opened
  | close shut =>
    rw [shut.closed] at opened
    exact absurd opened (by decide)

end Steps

section Reaching

structure Sound (s : Semaphore W) : Prop where
  wellFormed : s.WellFormed
  small : s.balance < MAX_PERMIT

theorem step_kept (sound : s.Sound) :
    (s.step a).Kept fun t => ∃ answer wakers, s.perform a = .ok (answer, t, wakers) ∧ Performed s t a answer wakers := by
  unfold step
  split
  next allowed =>
    obtain ⟨answer, t, wakers, ran, performed⟩ := perform_performed sound.wellFormed sound.small allowed
    rw [ran]
    exact ⟨answer, wakers, rfl, performed⟩
  next => trivial

theorem step_next {answer : Answer} {wakers : List W} (allowed : s.allowed a = true)
    (ran : s.perform a = .ok (answer, t, wakers)) : s.step a = .next t := by
  rw [step, if_pos allowed, ran]
  rfl

def machine (W : Type) [Wakers W] (permits : Nat) : System (Semaphore W) (Action W) Fault where
  initial s := s = new permits
  within _ := True
  step s a := s.step a

theorem reachable_sound {permits : Nat} (small : permits < MAX_PERMIT) (reached : (machine W permits).Reachable s) :
    s.Sound := by
  apply System.Reachable.invariant _ _ reached
  · rintro _ rfl
    exact ⟨new_wellFormed permits small.le, by rw [new_balance permits small.le]; exact small⟩
  · intro s a sound _
    apply (step_kept sound).mono
    rintro t ⟨answer, wakers, _, performed⟩
    exact ⟨performed.wellFormed sound.wellFormed, performed.small sound.wellFormed sound.small⟩

end Reaching

section Conservation

def assigned (s : Semaphore W) (i : Nat) : Nat :=
  if (s.acquires i).completed then 0 else (s.acquires i).numPermits - (s.acquires i).node.state

omit [Wakers W] in
theorem assigned_eq (wf : s.WellFormed) (i : Nat) : s.assigned i = (s.acquires i).held := by
  unfold assigned Acquire.held
  cases completed : (s.acquires i).completed with
  | true =>
    have unqueued := wf.done i completed
    simp [unqueued]
  | false =>
    cases queued : (s.acquires i).queued with
    | true => simp
    | false =>
      have fresh := wf.fresh i queued completed
      simp [fresh]

omit [Wakers W] in
theorem held_twice {i j : Nat} (wf : s.WellFormed) (apart : i ≠ j)
    (first : 1 ≤ (s.acquires i).held) (second : 1 ≤ (s.acquires j).held) : 2 ≤ s.heldSum := by
  have made (k : Nat) (held : 1 ≤ (s.acquires k).held) : k < s.created := by
    by_contra unmade
    have unqueued := wf.done k (wf.unmade k (by omega))
    simp [Acquire.held, unqueued] at held
  have pair : ({i, j} : Finset Nat) ⊆ Finset.range s.created := by
    intro k member
    rcases Finset.mem_insert.mp member with rfl | last
    · exact Finset.mem_range.mpr (made k first)
    · rw [Finset.mem_singleton.mp last]
      exact Finset.mem_range.mpr (made j second)
  have part : ∑ k ∈ {i, j}, (s.acquires k).held ≤ s.heldSum := Finset.sum_le_sum_of_subset pair
  rw [Finset.sum_pair apart] at part
  omega

/-- The permits passed to release, and those granted by an acquire or a try_acquire, so far. -/
structure Ledger where
  released : Nat
  granted : Nat

def Ledger.observe (l : Ledger) (s : Semaphore W) (a : Action W) (_ : Semaphore W) : Ledger :=
  match s.perform a with
  | .ok (answer, _, _) => ⟨l.released + added a, l.granted + s.granted a answer⟩
  | .error _ => l

def ledgered (W : Type) [Wakers W] (permits : Nat) : System (Semaphore W × Ledger) (Action W) Fault :=
  (machine W permits).observed ⟨0, 0⟩ Ledger.observe

instance (permits : Nat) : DecidablePred (ledgered W permits).within := fun _ => inferInstanceAs (Decidable True)

theorem ledgered_reachable (W : Type) [Wakers W] (permits : Nat) :
    (ledgered W permits).Reachable (new permits, ⟨0, 0⟩) :=
  .initial ⟨rfl, rfl⟩

theorem ledgered_balance {permits : Nat} (small : permits < MAX_PERMIT) {r : Semaphore W × Ledger}
    (reached : (ledgered W permits).Reachable r) : r.1.balance + r.2.granted = permits + r.2.released := by
  apply System.Reachable.watched (P := fun s l => s.balance + l.granted = permits + l.released) _ _ reached
  · rintro _ rfl
    rw [new_balance permits small.le]
  · intro s l a t before total _ stepped
    have sound := reachable_sound small before
    obtain ⟨answer, wakers, ran, performed⟩ := (step_kept sound).next stepped
    have moved := performed.balance sound.wellFormed
    simp only [Ledger.observe, ran]
    omega

/-- No permit is lost and none is made. -/
theorem permits_conserved {permits : Nat} (small : permits < MAX_PERMIT) {s : Semaphore W} {l : Ledger}
    (reached : (ledgered W permits).Reachable (s, l)) :
    s.availablePermits + ∑ i ∈ Finset.range s.created, s.assigned i + l.granted = permits + l.released ∧
    -- what has been handed out or dropped holds nothing more, and the sum is over all Acquires
    (∀ i, s.created ≤ i → (s.acquires i).completed = true) ∧
    -- dropping an Acquire, in whatever state, gives back what it has been assigned and has not handed out
    (∀ i < s.created, ∃ t wakers, s.dropAcquire i = .ok (t, wakers) ∧ t.created = s.created ∧
      t.assigned i = 0 ∧
      t.availablePermits + ∑ j ∈ (Finset.range s.created).erase i, t.assigned j =
        s.availablePermits + ∑ j ∈ (Finset.range s.created).erase i, s.assigned j + s.assigned i) ∧
    -- and no assertion fails
    ∀ a fault, s.step a ≠ .failed fault := by
  have sound : s.Sound := reachable_sound small reached.of_observed
  have wf := sound.wellFormed
  have total (t : Semaphore W) (after : t.WellFormed) :
      ∑ i ∈ Finset.range t.created, t.assigned i = t.heldSum :=
    Finset.sum_congr rfl fun i _ => assigned_eq after i
  refine ⟨?_, wf.unmade, ?_, fun a => (step_kept sound).sound⟩
  · rw [total s wf]
    exact ledgered_balance small reached
  · intro i made
    obtain ⟨served, rest, t, wakers, ran, released⟩ := dropAcquire_released wf made sound.small
    have after := released.wellFormed (cancelled_wellFormed wf)
    have created : t.created = s.created := released.created
    have gone : t.assigned i = 0 := by
      have completed : (t.acquires i).completed = true := by
        rw [(released.same i).2.1, (cancelled_changed s i).apply, if_pos rfl]
      rw [assigned, if_pos completed]
    refine ⟨t, wakers, ran, created, gone, ?_⟩
    have back := cancelled_balance made
    have balance := released.balance
    have sum := total s wf
    have sum' := total t after
    rw [created] at sum'
    rw [← Finset.sum_erase_add _ _ (Finset.mem_range.mpr made)] at sum sum'
    unfold Semaphore.balance at back balance
    omega

/-- Two of three permits are taken, and the one left and one that is released go to the next waiter. -/
def exampleRun : List (Action Nat) := [.acquire 2, .poll 0 7, .acquire 3, .poll 1 8, .release 1]

theorem exampleRun_counts :
    ((ledgered Nat 3).run (new 3, ⟨0, 0⟩) exampleRun).map
      (fun r => (r.1.availablePermits, r.2.released, r.2.granted)) = some (0, 1, 2) := by
  decide +kernel

theorem permits_conserved_run :
    ∃ s : Semaphore Nat, s.availablePermits = 0 ∧ ∑ i ∈ Finset.range s.created, s.assigned i = 2 := by
  obtain ⟨⟨s, l⟩, ran, counts⟩ := Option.map_eq_some_iff.mp exampleRun_counts
  have reached := System.reachable_run _ (ledgered_reachable Nat 3) ran
  simp only [Prod.mk.injEq] at counts
  obtain ⟨available, released, granted⟩ := counts
  have total := (permits_conserved (by decide) reached).1
  exact ⟨s, available, by omega⟩

end Conservation

end Semaphore

end Osaka.Sync
