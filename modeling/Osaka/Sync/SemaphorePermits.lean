import Osaka.Sync.SemaphoreCeiling

set_option autoImplicit false

namespace Osaka.Sync

open Traces

variable {W : Type}

/-- A `SemaphorePermit` or an `OwnedSemaphorePermit`. -/
structure SemaphorePermit where
  permits : Nat
  deriving DecidableEq

/-- A semaphore with the permits that are alive, by the order in which they were made. The futures of
`acquire_many` and of `acquire_many_owned` are its Acquires. -/
structure PermitSemaphore (W : Type) where
  llSem : Semaphore W
  permits : Nat → Option SemaphorePermit
  made : Nat

inductive PermitAction (W : Type) where
  | acquireMany (n : Nat)
  | poll (i : Nat) (waker : W)
  | dropFuture (i : Nat)
  | tryAcquireMany (n : Nat)
  | addPermits (n : Nat)
  | dropPermit (k : Nat)
  | forget (k : Nat)
  | close

namespace PermitSemaphore

variable (m : PermitSemaphore W)

def new (permits : Nat) : PermitSemaphore W := ⟨.new permits, fun _ => none, 0⟩

def constNew (permits : Nat) : PermitSemaphore W := ⟨.constNew permits, fun _ => none, 0⟩

-- Ok(SemaphorePermit { sem: self, permits: n })
def hands (n : Nat) : PermitSemaphore W :=
  { m with permits := Function.update m.permits m.made (some ⟨n⟩), made := m.made + 1 }

def inner : PermitAction W → Option (Action W)
  | .acquireMany n => some (.acquire n)
  | .poll i waker => some (.poll i waker)
  | .dropFuture i => some (.dropAcquire i)
  | .tryAcquireMany n => some (.tryAcquire n)
  | .addPermits n => some (.release n)
  | .dropPermit k => (m.permits k).map fun permit => .release permit.permits
  -- forget sets the permits to 0 before the drop
  | .forget _ => some (.release 0)
  | .close => some .close

def granted (llSem : Semaphore W) : PermitAction W → Except Fault Answer → Option Nat
  | .poll i _, .ok (.acquired (.ready (.ok ()))) => some (llSem.acquires i).numPermits
  | .tryAcquireMany n, .ok (.tried (.ok ())) => some n
  | _, _ => none

variable [Wakers W]

def answer (a : PermitAction W) : Option (Except Fault Answer) :=
  match m.inner a with
  | some call => if m.llSem.callable call then some (m.llSem.answer call) else none
  | none => none

/-- The call itself, before a permit is handed out. -/
def calls (a : PermitAction W) (call : Action W) : PermitSemaphore W :=
  match a with
  | .dropPermit k | .forget k =>
    { m with llSem := m.llSem.call call, permits := Function.update m.permits k none }
  | _ => { m with llSem := m.llSem.call call }

def step (a : PermitAction W) : PermitSemaphore W :=
  match m.inner a with
  | none => m
  | some call =>
    match (m.answer a).bind (granted m.llSem a) with
    | some n => (m.calls a call).hands n
    | none => m.calls a call

/-- A request that is answered Ok has taken what it asks for, no more than the maximum, and what a permit holds
goes back as a whole. -/
structure Exact (m : PermitSemaphore W) (a : PermitAction W) : Prop where
  polled : ∀ i waker, a = .poll i waker → m.answer a = some (.ok (.acquired (.ready (.ok ())))) →
    (m.llSem.acquires i).numPermits ≤ MAX_PERMIT ∧
      -- with what it had been assigned before
      (m.step a).llSem.availablePermits + (m.llSem.acquires i).numPermits =
        m.llSem.availablePermits + (m.llSem.acquires i).held ∧
      (m.step a).llSem.balance + (m.llSem.acquires i).numPermits = m.llSem.balance ∧
      (m.step a).permits m.made = some ⟨(m.llSem.acquires i).numPermits⟩
  tried : ∀ n, a = .tryAcquireMany n → m.answer a = some (.ok (.tried (.ok ()))) →
    n ≤ MAX_PERMIT ∧ (m.step a).llSem.availablePermits + n = m.llSem.availablePermits ∧
      (m.step a).llSem.balance + n = m.llSem.balance ∧ (m.step a).permits m.made = some ⟨n⟩
  dropped : ∀ k permit, a = .dropPermit k → m.permits k = some permit →
    m.answer a = some (.ok .none) ∧ (m.step a).llSem.balance = m.llSem.balance + permit.permits

omit [Wakers W] in
/-- No more is asked for than the maximum, or so far it is not given; and what the waiters leave of a dropped
permit fits. -/
def Within (m : PermitSemaphore W) : PermitAction W → Prop
  | .poll i _ => (m.llSem.acquires i).completed = true ∨ (m.llSem.acquires i).numPermits ≤ MAX_PERMIT ∨
      m.llSem.isClosed = true ∨
        if (m.llSem.acquires i).queued then 0 < (m.llSem.acquires i).node.state
        -- the shift loses the highest bit
        else m.llSem.availablePermits < (m.llSem.acquires i).numPermits % 2 ^ 63
  | .dropPermit k => ∀ permit, m.permits k = some permit →
      permit.permits - m.llSem.missing < MAX_PERMIT ∧
        m.llSem.availablePermits + (permit.permits - m.llSem.missing) < 2 ^ 63
  | _ => True

structure Sound (m : PermitSemaphore W) : Prop where
  steady : m.llSem.Steady
  words : ∀ k permit, m.permits k = some permit → permit.permits < 2 ^ 64

section Inner

variable {s : Semaphore W} {i : Nat} {waker : W}

omit [Wakers W] in
theorem callable_poll : s.callable (.poll i waker) = true ↔ (s.acquires i).completed = false := by
  simp [Semaphore.callable]

theorem granted_iff (formed : s.Formed) (unfinished : (s.acquires i).completed = false) :
    s.answer (.poll i waker) = .ok (.acquired (.ready (.ok ()))) ↔
      s.isClosed = false ∧
        if (s.acquires i).queued then (s.acquires i).node.state = 0
        else (s.acquires i).numPermits % 2 ^ 63 ≤ s.availablePermits := by
  have answered {result : Acquired} {t : Semaphore W} (ran : s.poll i waker = .ok (result, t, [])) :
      s.answer (.poll i waker) = .ok (.acquired result) := by
    rw [Semaphore.answer, Semaphore.perform, ran]
    rfl
  cases closed : s.isClosed with
  | true => simp [answered (Semaphore.poll_closed closed i waker)]
  | false =>
    cases queued : (s.acquires i).queued with
    | true =>
      by_cases full : (s.acquires i).node.state = 0
      · simp [answered (Semaphore.poll_full formed closed queued full waker), full]
      · have listed := (formed.unserved i queued (by omega)).resolve_right (by rw [← formed.closed, closed]; decide)
        simp [answered (Semaphore.poll_waiting formed closed listed waker), full]
    | false =>
      by_cases enough : (s.acquires i).numPermits % 2 ^ 63 ≤ s.availablePermits
      · simpa [answered (Semaphore.poll_taken closed queued enough waker)] using enough
      · have joins := answered (Semaphore.poll_joined formed closed queued unfinished (by omega) waker)
        simpa [joins] using enough

theorem granted_exact (steady : s.Steady) (unfinished : (s.acquires i).completed = false)
    (possible : (s.acquires i).numPermits ≤ MAX_PERMIT)
    (granted : s.answer (.poll i waker) = .ok (.acquired (.ready (.ok ())))) :
    (s.call (.poll i waker)).availablePermits + (s.acquires i).numPermits =
        s.availablePermits + (s.acquires i).held ∧
      (s.call (.poll i waker)).balance + (s.acquires i).numPermits = s.balance := by
  have bound : MAX_PERMIT = 2305843009213693951 := rfl
  have called := Semaphore.call_called steady (a := .poll i waker) (callable_poll.mpr unfinished)
  rw [granted] at called
  cases called with
  | poll _ polled =>
    have balance := polled.balance steady.formed unfinished
    rw [if_pos rfl] at balance
    refine ⟨?_, balance⟩
    cases polled with
    | taken opened unqueued changed available => simp [Acquire.held, unqueued, available]
    | full opened queued full changed available => simp [Acquire.held, queued, full, available]
  | wrapped _ wrapped => exact absurd wrapped.many (by omega)

end Inner

section Steps

variable {m} {a : PermitAction W}

theorem step_none (dead : m.inner a = none) : m.step a = m := by rw [step, dead]

theorem calls_llSem (m : PermitSemaphore W) (a : PermitAction W) (call : Action W) :
    (m.calls a call).llSem = m.llSem.call call ∧ (m.calls a call).made = m.made := by
  cases a <;> exact ⟨rfl, rfl⟩

theorem step_llSem {call : Action W} (asks : m.inner a = some call) : (m.step a).llSem = m.llSem.call call := by
  rw [step, asks]
  dsimp only
  split
  next => exact (calls_llSem m a call).1
  next => exact (calls_llSem m a call).1

theorem answer_eq {call : Action W} {result : Except Fault Answer} (asks : m.inner a = some call) :
    m.answer a = some result ↔ m.llSem.callable call = true ∧ m.llSem.answer call = result := by
  rw [answer, asks]
  by_cases callable : m.llSem.callable call = true <;> simp [callable]

theorem step_hands {n : Nat} {result : Except Fault Answer} (answered : m.answer a = some result)
    (grants : granted m.llSem a result = some n) : (m.step a).permits m.made = some ⟨n⟩ := by
  cases asks : m.inner a with
  | none => simp [answer, asks] at answered
  | some call =>
    rw [step, asks]
    dsimp only
    rw [answered, Option.bind_some, grants]
    simp only [hands, (calls_llSem m a call).2, Function.update_self]

theorem step_permits {k : Nat} {permit : SemaphorePermit} (alive : (m.step a).permits k = some permit) :
    m.permits k = some permit ∨
      ∃ result, m.answer a = some result ∧ granted m.llSem a result = some permit.permits := by
  cases asks : m.inner a with
  | none =>
    rw [step_none asks] at alive
    exact Or.inl alive
  | some call =>
    have old (kept : (m.calls a call).permits k = some permit) : m.permits k = some permit := by
      cases a with
      | dropPermit j | forget j =>
        simp only [calls, Function.update_apply] at kept
        split at kept
        next => cases kept
        next => exact kept
      | _ => exact kept
    unfold step at alive
    rw [asks] at alive
    dsimp only at alive
    cases grants : (m.answer a).bind (granted m.llSem a) with
    | none =>
      rw [grants] at alive
      exact Or.inl (old alive)
    | some n =>
      obtain ⟨result, answered, grants'⟩ := Option.bind_eq_some_iff.mp grants
      rw [grants] at alive
      simp only [hands, Function.update_apply] at alive
      split at alive
      next =>
        obtain rfl := Option.some.inj alive
        exact Or.inr ⟨result, answered, grants'⟩
      next => exact Or.inl (old alive)

theorem Sound.step (sound : m.Sound) (a : PermitAction W) : (m.step a).Sound := by
  cases asks : m.inner a with
  | none =>
    rw [step_none asks]
    exact sound
  | some call =>
    refine ⟨by rw [step_llSem asks]; exact Semaphore.call_steady sound.steady call, ?_⟩
    intro k permit alive
    rcases step_permits alive with old | ⟨result, answered, grants⟩
    · exact sound.words k permit old
    · have callable := ((answer_eq asks).mp answered).1
      unfold granted at grants
      split at grants
      next i waker =>
        rw [← Option.some.inj grants]
        exact sound.steady.asked i
      next n =>
        obtain rfl : Action.tryAcquire n = call := Option.some.inj asks
        rw [← Option.some.inj grants]
        simpa [Semaphore.callable] using callable
      next => cases grants

theorem exact_poll (sound : m.Sound) (i : Nat) (waker : W) : m.Exact (.poll i waker) ↔ m.Within (.poll i waker) := by
  have asks : m.inner (.poll i waker) = some (.poll i waker) := rfl
  cases completed : (m.llSem.acquires i).completed with
  | true =>
    refine iff_of_true ⟨?_, nofun, nofun⟩ (Or.inl completed)
    rintro _ _ ⟨rfl, rfl⟩ granted
    have callable := ((answer_eq asks).mp granted).1
    rw [callable_poll, completed] at callable
    cases callable
  | false =>
    have answers : m.answer (.poll i waker) = some (.ok (.acquired (.ready (.ok ())))) ↔
        m.llSem.answer (.poll i waker) = .ok (.acquired (.ready (.ok ()))) :=
      (answer_eq asks).trans (and_iff_right (callable_poll.mpr completed))
    have grants := @granted_iff _ _ _ _ waker sound.steady.formed completed
    constructor
    · intro exact'
      by_cases granted : m.answer (.poll i waker) = some (.ok (.acquired (.ready (.ok ()))))
      · exact Or.inr (Or.inl (exact'.polled i waker rfl granted).1)
      · rw [answers, grants] at granted
        refine Or.inr (Or.inr ?_)
        cases closed : m.llSem.isClosed with
        | true => exact Or.inl rfl
        | false =>
          have waits := fun given => granted ⟨closed, given⟩
          refine Or.inr ?_
          split
          next queued =>
            rw [if_pos queued] at waits
            exact Nat.pos_of_ne_zero waits
          next unqueued =>
            rw [if_neg unqueued] at waits
            exact Nat.lt_of_not_le waits
    · intro within
      refine ⟨?_, nofun, nofun⟩
      rintro _ _ ⟨rfl, rfl⟩ granted
      have given := grants.mp (answers.mp granted)
      have possible : (m.llSem.acquires i).numPermits ≤ MAX_PERMIT := by
        rcases within with done | possible | closed | waits
        · rw [completed] at done
          cases done
        · exact possible
        · rw [closed] at given
          exact absurd given.1 (by decide)
        · obtain ⟨_, given⟩ := given
          split at given
          next queued =>
            rw [if_pos queued] at waits
            omega
          next unqueued =>
            rw [if_neg unqueued] at waits
            omega
      obtain ⟨taken, removed⟩ := granted_exact sound.steady completed possible (answers.mp granted)
      rw [step_llSem asks]
      exact ⟨possible, taken, removed, step_hands granted rfl⟩

theorem exact_tryAcquireMany (sound : m.Sound) (n : Nat) : m.Exact (.tryAcquireMany n) := by
  have asks : m.inner (.tryAcquireMany n) = some (.tryAcquire n) := rfl
  refine ⟨nofun, ?_, nofun⟩
  rintro _ ⟨rfl⟩ granted
  obtain ⟨callable, answered⟩ := (answer_eq asks).mp granted
  have called := Semaphore.call_called sound.steady callable
  rw [answered] at called
  cases called with
  | tryAcquire tried =>
    have balance := tried.balance
    rw [if_pos rfl] at balance
    have small : n < MAX_PERMIT := by
      by_contra big
      have panics : m.llSem.answer (.tryAcquire n) = .error .tooMany := by
        rw [Semaphore.answer, Semaphore.perform, Semaphore.tryAcquire, if_neg big]
        rfl
      rw [panics] at answered
      cases answered
    rw [step_llSem asks]
    refine ⟨small.le, ?_, balance, step_hands granted rfl⟩
    cases tried with
    | taken opened opened' waiters acquires created available => exact available

theorem exact_dropPermit (sound : m.Sound) (k : Nat) : m.Exact (.dropPermit k) ↔ m.Within (.dropPermit k) := by
  have drops (permit : SemaphorePermit) (alive : m.permits k = some permit) :
      (m.answer (.dropPermit k) = some (.ok .none) ∧
        (m.step (.dropPermit k)).llSem.balance = m.llSem.balance + permit.permits) ↔
      permit.permits - m.llSem.missing < MAX_PERMIT ∧
        m.llSem.availablePermits + (permit.permits - m.llSem.missing) < 2 ^ 63 := by
    have asks : m.inner (.dropPermit k) = some (.release permit.permits) := by simp [inner, alive]
    have callable : m.llSem.callable (.release permit.permits) = true := decide_eq_true (sound.words k permit alive)
    rw [answer_eq asks, step_llSem asks, and_iff_right callable]
    generalize answered : m.llSem.answer (.release permit.permits) = answer
    have called := Semaphore.call_called sound.steady callable
    rw [answered] at called
    cases called with
    | gave _ done conserved fits available =>
      change _ = (m.llSem.availablePermits + (permit.permits - m.llSem.missing)) % 2 ^ 63 at available
      change _ + (permit.permits - m.llSem.missing) = m.llSem.heldSum + permit.permits at conserved
      change permit.permits - m.llSem.missing < MAX_PERMIT at fits
      refine and_congr (iff_of_true rfl fits) ?_
      unfold Semaphore.balance
      omega
    | panicked _ done spent many state =>
      change MAX_PERMIT ≤ permit.permits - m.llSem.missing at many
      constructor
      · rintro ⟨returned, _⟩
        cases returned
      · rintro ⟨fits, _⟩
        omega
  constructor
  · intro exact' permit alive
    exact (drops permit alive).mp (exact'.dropped k permit rfl alive)
  · intro within
    refine ⟨nofun, nofun, ?_⟩
    rintro _ permit ⟨rfl⟩ alive
    exact (drops permit alive).mpr (within permit alive)

theorem exact_iff (sound : m.Sound) : m.Exact a ↔ m.Within a := by
  cases a with
  | poll i waker => exact exact_poll sound i waker
  | tryAcquireMany n => exact iff_of_true (exact_tryAcquireMany sound n) trivial
  | dropPermit k => exact exact_dropPermit sound k
  | _ => exact iff_of_true ⟨nofun, nofun, nofun⟩ trivial

end Steps

/-- Every request and every permit comes to what it says, exactly as long as no more than the maximum is given out
and what is given back fits. -/
theorem exact_iff_within {permits : Nat} {m : PermitSemaphore W}
    (made : m = new permits ∧ permits < MAX_PERMIT ∨ m = constNew permits) (actions : List (PermitAction W)) :
    Each (fun m a => m.step a) Exact m actions ↔ Each (fun m a => m.step a) Within m actions := by
  apply each_iff actions (fun m a sound _ => Sound.step sound a) (fun m a sound => exact_iff sound)
  rcases made with ⟨rfl, small⟩ | rfl
  · exact ⟨Semaphore.new_steady permits small.le, nofun⟩
  · exact ⟨Semaphore.new_steady _ Nat.and_le_right, nofun⟩

/-- Two permits of three are taken by a waiter, who gets the one left with one more. -/
theorem exact_iff_within_waiter : Each (fun m a => m.step a) Exact (new 3 : PermitSemaphore Nat)
    [.tryAcquireMany 2, .acquireMany 2, .poll 0 7, .dropPermit 0, .poll 0 7, .dropPermit 1] := by
  refine (@exact_iff_within _ _ 3 _ (Or.inl ⟨rfl, by decide⟩) _).mpr ⟨trivial, trivial, ?_, ?_, ?_, ?_, trivial⟩
  · exact Or.inr (Or.inl (by decide))
  · rintro _ ⟨rfl⟩
    decide
  · exact Or.inr (Or.inl (by decide))
  · rintro _ ⟨rfl⟩
    decide

/-- The shift leaves nothing of 2 ^ 63 permits, and so they are handed out by a semaphore that has none. Dropping
them panics. -/
theorem none_granted_as_many :
    ((new 0 : PermitSemaphore Nat).step (.acquireMany (2 ^ 63))).answer (.poll 0 7) =
        some (.ok (.acquired (.ready (.ok ())))) ∧
      (((new 0 : PermitSemaphore Nat).step (.acquireMany (2 ^ 63))).step (.poll 0 7)).permits 0 = some ⟨2 ^ 63⟩ ∧
      (((new 0 : PermitSemaphore Nat).step (.acquireMany (2 ^ 63))).step (.poll 0 7)).answer (.dropPermit 0) =
        some (.error .tooMany) ∧
      ¬Each (fun m a => m.step a) Exact (new 0 : PermitSemaphore Nat) [.acquireMany (2 ^ 63), .poll 0 7] := by
  refine ⟨rfl, rfl, rfl, ?_⟩
  rintro ⟨_, exact', _⟩
  have possible := (exact'.polled 0 7 rfl rfl).1
  exact absurd possible (by decide)

end PermitSemaphore

end Osaka.Sync
