import Osaka.Shared.Traces
import Osaka.Sync.SemaphoreRuns

set_option autoImplicit false

namespace Osaka.Sync

open Traces

variable {W : Type}

namespace Semaphore

-- Semaphore::const_new clamps where new asserts.
def constNew (permits : Nat) : Semaphore W := new (permits &&& MAX_PERMIT)

section Calls

def before (s : Semaphore W) : Action W → Semaphore W
  | .dropAcquire i => s.cancelled i
  | _ => s

def given (s : Semaphore W) : Action W → Nat
  | .release n => n
  | .dropAcquire i => (s.acquires i).held
  | _ => 0

def surplus (s : Semaphore W) (a : Action W) : Nat := s.given a - (s.before a).missing

def adds : Action W → Bool
  | .release _ | .dropAcquire _ => true
  | _ => false

def closes : Action W → Bool
  | .close => true
  | _ => false

/-- The counts are words; a call that has returned is not polled again. -/
def callable (s : Semaphore W) : Action W → Bool
  | .acquire n | .tryAcquire n | .release n => decide (n < 2 ^ 64)
  | .poll i _ => !(s.acquires i).completed
  | .dropAcquire i => decide (i < s.created)
  | .close => true

def unwound (s : Semaphore W) (a : Action W) : Semaphore W :=
  if adds a then (s.before a).addPermitsUnwound (s.given a) else s

variable [Wakers W]

def answer (s : Semaphore W) (a : Action W) : Except Fault Answer := (s.perform a).map fun (answer, _, _) => answer

/-- The semaphore after a call, also where that has panicked. -/
def call (s : Semaphore W) (a : Action W) : Semaphore W :=
  if s.callable a then
    match s.perform a with
    | .ok (_, t, _) => t
    | .error _ => s.unwound a
  else s

omit [Wakers W] in
inductive Called (s t : Semaphore W) : Action W → Except Fault Answer → Prop where
  | acquire {n : Nat} : n < 2 ^ 64 → t = s.acquire n → Called s t (.acquire n) (.ok .none)
  | poll {i : Nat} {waker : W} {result : Acquired} : (s.acquires i).completed = false → Polled s t i waker result →
      Called s t (.poll i waker) (.ok (.acquired result))
  | wrapped {i : Nat} {waker : W} : (s.acquires i).completed = false → Wrapped s t i →
      Called s t (.poll i waker) (.ok (.acquired (.ready (.ok ()))))
  | gave {a : Action W} {served rest : List Nat} {wakers : List W} : adds a = true →
      Served (s.before a) served rest t wakers → t.heldSum + s.surplus a = (s.before a).heldSum + s.given a →
      s.surplus a < MAX_PERMIT → t.availablePermits = (s.availablePermits + s.surplus a) % 2 ^ 63 →
      Called s t a (.ok .none)
  | panicked {a : Action W} {served rest : List Nat} {wakers : List W} : adds a = true →
      Served (s.before a) served rest t wakers → (rest ≠ [] → s.surplus a = 0) → MAX_PERMIT ≤ s.surplus a →
      t.state = s.state → Called s t a (.error .tooMany)
  | tryAcquire {n : Nat} {result : Except TryAcquireError Unit} : Tried s t n result →
      Called s t (.tryAcquire n) (.ok (.tried result))
  | refused {n : Nat} : MAX_PERMIT ≤ n → t = s → Called s t (.tryAcquire n) (.error .tooMany)
  | close {wakers : List W} : Shut s t wakers → Called s t .close (.ok .none)

structure Steady (s : Semaphore W) : Prop where
  formed : s.Formed
  asked : ∀ i, (s.acquires i).numPermits < 2 ^ 64

variable {s t : Semaphore W} {a : Action W}

omit [Wakers W] in
theorem before_formed (formed : s.Formed) (a : Action W) : (s.before a).Formed := by
  cases a with
  | dropAcquire i => exact cancelled_formed formed
  | _ => exact formed

omit [Wakers W] in
theorem before_state (s : Semaphore W) (a : Action W) : (s.before a).state = s.state := by
  cases a <;> rfl

theorem perform_adds (formed : s.Formed) (adding : adds a = true) :
    s.perform a = ((s.before a).addPermitsLocked (s.given a)).map fun (t, wakers) => (.none, t, wakers) := by
  cases a with
  | release n =>
    change (s.release n).map _ = (s.addPermitsLocked n).map _
    rw [release]
    split
    next none => rw [addPermitsLocked, if_pos none]
    next => rfl
  | dropAcquire i => rw [perform, dropAcquire_eq formed, before, given]
  | _ => exact Bool.noConfusion adding

theorem adds_called (formed : s.Formed) (callable : s.callable a = true) (adding : adds a = true) :
    Called s (s.call a) a (s.answer a) := by
  have performs := perform_adds formed adding
  obtain ⟨served, rest, wakers, t, done, conserved, spent, fits | fails⟩ :=
    addPermitsLocked_cases (s.given a) (before_formed formed a)
  · obtain ⟨fits, ran, available⟩ := fits
    have same : (s.before a).availablePermits = s.availablePermits := by
      rw [availablePermits, before_state, availablePermits]
    rw [ran] at performs
    rw [call, if_pos callable, answer, performs]
    exact .gave adding done conserved fits (by rw [← same]; exact available)
  · obtain ⟨many, ran, unwound, state⟩ := fails
    rw [ran] at performs
    rw [call, if_pos callable, answer, performs]
    simp only [Except.map, Semaphore.unwound, adding, if_true, unwound]
    exact .panicked adding done spent many (state.trans (before_state s a))

theorem call_called (steady : s.Steady) (callable : s.callable a = true) : Called s (s.call a) a (s.answer a) := by
  have formed := steady.formed
  cases a with
  | acquire n =>
    rw [call, if_pos callable]
    exact .acquire (by simpa [Semaphore.callable] using callable) rfl
  | poll i waker =>
    have unfinished : (s.acquires i).completed = false := by simpa [Semaphore.callable] using callable
    obtain ⟨result, t, ran, polled | ⟨granted, wrapped⟩⟩ := poll_cases formed unfinished (steady.asked i) waker
    · rw [call, if_pos callable, answer, perform, ran]
      exact .poll unfinished polled
    · rw [call, if_pos callable, answer, perform, ran, granted]
      exact .wrapped unfinished wrapped
  | dropAcquire i => exact adds_called formed callable rfl
  | tryAcquire n =>
    by_cases small : n < MAX_PERMIT
    · obtain ⟨result, t, ran, tried⟩ := tryAcquire_tried (s := s) small
      rw [call, if_pos callable, answer, perform, ran]
      exact .tryAcquire tried
    · have panics : s.perform (.tryAcquire n) = .error .tooMany := by
        rw [perform, tryAcquire, if_neg small]
        rfl
      rw [call, if_pos callable, answer, panics]
      exact .refused (by omega) rfl
  | release n => exact adds_called formed callable rfl
  | close =>
    rw [call, if_pos callable]
    exact .close (close_shut formed)

omit [Wakers W] in
theorem Called.steady {answer : Except Fault Answer} (steady : s.Steady) (called : Called s t a answer) : t.Steady := by
  have formed := steady.formed
  have served {served rest : List Nat} {wakers : List W} (done : Served (s.before a) served rest t wakers) :
      t.Steady := by
    refine ⟨done.formed (before_formed formed a), fun j => ?_⟩
    rw [(done.same j).2.2.1]
    cases a with
    | dropAcquire i =>
      rw [before, (cancelled_changed s i).apply]
      split
      next => exact steady.asked i
      next => exact steady.asked j
    | _ => exact steady.asked j
  cases called with
  | acquire small same =>
    rw [same]
    refine ⟨acquire_formed formed _, fun j => ?_⟩
    rw [acquire_acquires]
    split
    next => exact small
    next => exact steady.asked j
  | poll unfinished polled =>
    refine ⟨polled.formed formed unfinished, fun j => ?_⟩
    rw [polled.same j]
    exact steady.asked j
  | @wrapped i waker unfinished wrapped =>
    refine ⟨wrapped.formed formed unfinished, fun j => ?_⟩
    rw [wrapped.changed.apply]
    split
    next => exact steady.asked i
    next => exact steady.asked j
  | gave adding done | panicked adding done => exact served done
  | tryAcquire tried =>
    refine ⟨tried.formed formed, fun j => ?_⟩
    rw [tried.same]
    exact steady.asked j
  | refused many same =>
    rw [same]
    exact steady
  | close shut =>
    refine ⟨shut.formed formed, fun j => ?_⟩
    rw [(shut.same j).2.2.1]
    exact steady.asked j

theorem call_steady (steady : s.Steady) (a : Action W) : (s.call a).Steady := by
  by_cases callable : s.callable a = true
  · exact (call_called steady callable).steady steady
  · rw [call, if_neg callable]
    exact steady

omit [Wakers W] in
theorem new_steady (permits : Nat) (small : permits ≤ MAX_PERMIT) : (new permits : Semaphore W).Steady :=
  ⟨(new_wellFormed permits small).formed, fun _ => Nat.two_pow_pos 64⟩

end Calls

section Ceiling

variable [Wakers W]

/-- The available permits stay at or below the maximum, their count and the closed bit are kept apart, and what
would exceed the maximum is refused as a whole. -/
structure Ceiling (s : Semaphore W) (a : Action W) : Prop where
  bounded : (s.call a).availablePermits ≤ MAX_PERMIT
  closed : (s.call a).isClosed = true ↔ s.isClosed = true ∨ s.callable a = true ∧ closes a = true
  added : s.callable a = true → adds a = true → ∀ answer, s.answer a = .ok answer →
    (s.call a).availablePermits = s.availablePermits + s.surplus a
  taken : adds a = false → (s.call a).availablePermits ≤ s.availablePermits
  refused : s.callable a = true → MAX_PERMIT < s.availablePermits + s.surplus a →
    s.answer a = .error .tooMany ∧ s.call a = s.before a

omit [Wakers W] in
/-- What an action adds fits below the maximum, or is too much by itself and nobody waits for it. -/
def Fits (s : Semaphore W) (a : Action W) : Prop :=
  s.callable a = true →
    s.availablePermits + s.surplus a ≤ MAX_PERMIT ∨ MAX_PERMIT ≤ s.surplus a ∧ (s.before a).waiters.list = []

variable {s t : Semaphore W} {a : Action W}

omit [Wakers W] in
theorem surplus_eq_zero (taking : adds a = false) : s.surplus a = 0 := by
  cases a with
  | release | dropAcquire => exact Bool.noConfusion taking
  | _ => exact Nat.zero_sub _

omit [Wakers W] in
theorem Polled.taking {i : Nat} {waker : W} {result : Acquired} (polled : Polled s t i waker result) :
    t.isClosed = s.isClosed ∧ t.availablePermits ≤ s.availablePermits := by
  cases polled with
  | closed closed same => simp [same]
  | taken opened unqueued changed available => exact ⟨changed.closed, by omega⟩
  | full opened queued full changed available | waiting opened listed changed available =>
    exact ⟨changed.closed, available.le⟩
  | joined opened unqueued short changed available => exact ⟨changed.closed, by omega⟩

omit [Wakers W] in
theorem Tried.taking {n : Nat} {result : Except TryAcquireError Unit} (tried : Tried s t n result) :
    t.isClosed = s.isClosed ∧ t.availablePermits ≤ s.availablePermits := by
  cases tried with
  | closed closed same | noPermits opened short same => simp [same]
  | taken opened opened' waiters acquires created available => exact ⟨opened'.trans opened.symm, by omega⟩

omit [Wakers W] in
theorem Called.taking {answer : Except Fault Answer} (called : Called s t a answer) (taking : adds a = false) :
    t.availablePermits ≤ s.availablePermits ∧ (t.isClosed = true ↔ s.isClosed = true ∨ closes a = true) := by
  cases called with
  | acquire small same =>
    have available : t.availablePermits = s.availablePermits := by rw [same]; rfl
    have closed : t.isClosed = s.isClosed := by rw [same]; rfl
    exact ⟨available.le, by simp [closed, closes]⟩
  | poll unfinished polled =>
    obtain ⟨closed, less⟩ := polled.taking
    exact ⟨less, by simp [closed, closes]⟩
  | wrapped unfinished wrapped =>
    have taken := wrapped.taken
    exact ⟨by omega, by simp [wrapped.changed.closed, closes]⟩
  | gave adding | panicked adding =>
    rw [taking] at adding
    exact Bool.noConfusion adding
  | tryAcquire tried =>
    obtain ⟨closed, less⟩ := tried.taking
    exact ⟨less, by simp [closed, closes]⟩
  | refused many same => exact ⟨by rw [same], by simp [same, closes]⟩
  | close shut => exact ⟨shut.available.le, by simp [shut.closed, closes]⟩

omit [Wakers W] in
theorem before_closed (s : Semaphore W) (a : Action W) : (s.before a).isClosed = s.isClosed := by
  rw [isClosed, before_state, isClosed]

omit [Wakers W] in
theorem Served.alone {served rest : List Nat} {wakers : List W} (done : Served s served rest t wakers)
    (nobody : s.waiters.list = []) (state : t.state = s.state) : t = s := by
  have split := done.split
  rw [nobody] at split
  obtain ⟨rfl, rfl⟩ := List.append_eq_nil_iff.mp split.symm
  have waiters : t.waiters = s.waiters := by rw [done.waiters, ← nobody]
  have acquires : t.acquires = s.acquires := funext fun j => done.kept j (List.not_mem_nil) (by simp)
  have created := done.created
  cases s
  cases t
  simp only at waiters acquires created state
  rw [waiters, acquires, created, state]

theorem ceiling_taking (steady : s.Steady) (callable : s.callable a = true) (taking : adds a = false)
    (bounded : s.availablePermits ≤ MAX_PERMIT) : s.Ceiling a := by
  obtain ⟨less, closed⟩ := (call_called steady callable).taking taking
  constructor
  · exact less.trans bounded
  · simpa only [callable, true_and] using closed
  · intro _ adding
    rw [taking] at adding
    exact Bool.noConfusion adding
  · exact fun _ => less
  · intro _ above
    rw [surplus_eq_zero taking] at above
    omega

theorem ceiling_adding (steady : s.Steady) (callable : s.callable a = true) (adding : adds a = true)
    (bounded : s.availablePermits ≤ MAX_PERMIT) : s.Ceiling a ↔ s.Fits a := by
  have bound : MAX_PERMIT = 2305843009213693951 := rfl
  have other : closes a = false := by cases a <;> simp [adds, closes] at adding ⊢
  have closed {served rest : List Nat} {wakers : List W} (done : Served (s.before a) served rest (s.call a) wakers) :
      (s.call a).isClosed = true ↔ s.isClosed = true ∨ s.callable a = true ∧ closes a = true := by
    rw [done.closed, before_closed]
    simp [other]
  generalize answered : s.answer a = answer
  have called := call_called steady callable
  rw [answered] at called
  cases called with
  | gave _ done conserved fits available =>
    constructor
    · intro ceiling _
      by_contra exceeds
      have above : MAX_PERMIT < s.availablePermits + s.surplus a := by
        by_contra within
        exact exceeds (Or.inl (by omega))
      have refused := (ceiling.refused callable above).1
      rw [answered] at refused
      cases refused
    · intro within
      have fits' : s.availablePermits + s.surplus a ≤ MAX_PERMIT := by
        rcases within callable with fits' | ⟨many, _⟩
        · exact fits'
        · omega
      rw [Nat.mod_eq_of_lt (by omega)] at available
      constructor
      · omega
      · exact closed done
      · exact fun _ _ _ _ => available
      · intro taking
        rw [adding] at taking
        exact Bool.noConfusion taking
      · intro _ above
        omega
  | panicked _ done spent many state =>
    have same : (s.call a).availablePermits = s.availablePermits := by rw [availablePermits, state, availablePermits]
    constructor
    · intro ceiling _
      by_cases above : MAX_PERMIT < s.availablePermits + s.surplus a
      · refine Or.inr ⟨many, ?_⟩
        have unchanged := (ceiling.refused callable above).2
        have list : (s.call a).waiters.list = (s.before a).waiters.list := by rw [unchanged]
        rw [done.waiters] at list
        rw [← list]
        by_contra waits
        have none := spent waits
        omega
      · exact Or.inl (by omega)
    · intro within
      constructor
      · exact same.trans_le bounded
      · exact closed done
      · intro _ _ _ returned
        rw [answered] at returned
        cases returned
      · intro taking
        rw [adding] at taking
        exact Bool.noConfusion taking
      · intro _ above
        refine ⟨answered, ?_⟩
        rcases within callable with fits | ⟨_, nobody⟩
        · omega
        · exact done.alone nobody (state.trans (before_state s a).symm)
  | _ => exact Bool.noConfusion adding

theorem ceiling_iff (steady : s.Steady) (bounded : s.availablePermits ≤ MAX_PERMIT) : s.Ceiling a ↔ s.Fits a := by
  by_cases callable : s.callable a = true
  · cases adding : adds a with
    | true => exact ceiling_adding steady callable adding bounded
    | false =>
      refine iff_of_true (ceiling_taking steady callable adding bounded) fun _ => Or.inl ?_
      rw [surplus_eq_zero adding]
      exact bounded
  · refine iff_of_true ?_ fun called => absurd called callable
    have same : s.call a = s := by rw [call, if_neg callable]
    constructor
    · rw [same]
      exact bounded
    · simp [same, callable]
    · exact fun called => absurd called callable
    · exact fun _ => by rw [same]
    · exact fun called => absurd called callable

/-- The documented maximum holds exactly as long as what is left for the word fits below it. -/
theorem ceiling_iff_fits {permits : Nat} {s : Semaphore W}
    (made : s = new permits ∧ permits < MAX_PERMIT ∨ s = constNew permits) (actions : List (Action W)) :
    Each call Ceiling s actions ↔ Each call Fits s actions := by
  obtain ⟨n, small, rfl⟩ : ∃ n, n ≤ MAX_PERMIT ∧ s = new n := by
    rcases made with ⟨rfl, small⟩ | rfl
    · exact ⟨permits, small.le, rfl⟩
    · exact ⟨permits &&& MAX_PERMIT, Nat.and_le_right, rfl⟩
  apply each_iff (Q := fun s : Semaphore W => s.Steady ∧ s.availablePermits ≤ MAX_PERMIT) actions
  · rintro s a ⟨steady, _⟩ ceiling
    exact ⟨call_steady steady a, ceiling.bounded⟩
  · rintro s a ⟨steady, bounded⟩
    exact ceiling_iff steady bounded
  · exact ⟨new_steady n small, ((new_word n small).1).trans_le small⟩

/-- A full semaphore takes three of its permits back, and refuses more. -/
theorem ceiling_iff_fits_full : Each call Ceiling (constNew (2 ^ 64 - 1) : Semaphore Nat)
    [.tryAcquire 3, .release 3, .acquire 5, .release MAX_PERMIT] := by
  refine (@ceiling_iff_fits _ _ (2 ^ 64 - 1) _ (Or.inr rfl) _).mpr ⟨?_, ?_, ?_, ?_, trivial⟩
  · exact fun _ => Or.inl (by decide)
  · exact fun _ => Or.inl (by decide)
  · exact fun _ => Or.inl (by decide)
  · exact fun _ => Or.inr (by decide)

/-- The permits added are below the maximum, and so the sum is not looked at. -/
theorem added_past_ceiling :
    (new 2 : Semaphore Nat).answer (.release (MAX_PERMIT - 1)) = .ok .none ∧
      ((new 2 : Semaphore Nat).call (.release (MAX_PERMIT - 1))).availablePermits = MAX_PERMIT + 1 ∧
      ¬Each call Ceiling (new 2 : Semaphore Nat) [.release (MAX_PERMIT - 1)] := by
  have above : ((new 2 : Semaphore Nat).call (.release (MAX_PERMIT - 1))).availablePermits = MAX_PERMIT + 1 := by
    decide
  refine ⟨rfl, above, ?_⟩
  rintro ⟨ceiling, _⟩
  have bounded := ceiling.bounded
  omega

end Ceiling

end Semaphore

end Osaka.Sync
