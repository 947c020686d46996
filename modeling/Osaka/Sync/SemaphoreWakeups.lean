import Osaka.Sync.SemaphoreRuns

set_option autoImplicit false

namespace Osaka.Sync.Semaphore

open Transitions

variable {W : Type} {s t : Semaphore W} {a : Action W} {answer : Answer} {wakers : List W}

/-- What has been asked of the semaphore, and which wakers it has woken. -/
structure Vigil (W : Type) where
  -- the waker given at the most recent poll of an Acquire, if that poll answered Pending
  asked : Nat → Option W
  -- the wakers woken since that poll
  woken : Nat → List W

def Vigil.first : Vigil W := ⟨fun _ => none, fun _ => []⟩

def Vigil.note (v : Vigil W) : Action W → Answer → Vigil W
  | .poll i waker, .acquired .pending =>
    { asked := Function.update v.asked i (some waker), woken := Function.update v.woken i [] }
  | .poll i _, _ | .dropAcquire i, _ => { v with asked := Function.update v.asked i none }
  | _, _ => v

def Vigil.observe [Wakers W] (v : Vigil W) (s : Semaphore W) (a : Action W) (_ : Semaphore W) : Vigil W :=
  match s.perform a with
  | .ok (answer, _, wakers) => { v.note a answer with woken := fun i => (v.note a answer).woken i ++ wakers }
  | .error _ => v

/-- Who has been told to wait is either in the queue, with the waker given last, or has been woken. -/
structure Attended (s : Semaphore W) (v : Vigil W) (i : Nat) (waker : W) : Prop where
  queued : (s.acquires i).queued = true
  attended : i ∈ s.waiters.list ∧ (s.acquires i).node.waker = some waker ∨ waker ∈ v.woken i

def Watched (s : Semaphore W) (v : Vigil W) : Prop := ∀ i waker, v.asked i = some waker → s.Attended v i waker

section Steps

variable {v : Vigil W}

structure Kept (s t : Semaphore W) (wakers : List W) (i : Nat) : Prop where
  queued : (t.acquires i).queued = (s.acquires i).queued
  stays : i ∈ s.waiters.list → i ∈ t.waiters.list ∧ (t.acquires i).node.waker = (s.acquires i).node.waker ∨
    ∀ waker, (s.acquires i).node.waker = some waker → waker ∈ wakers

theorem Kept.attended {i : Nat} {waker : W} (kept : Kept s t wakers i) (attended : s.Attended v i waker) :
    t.Attended { v with woken := fun i => v.woken i ++ wakers } i waker := by
  obtain ⟨queued, ⟨listed, stored⟩ | woken⟩ := attended
  · rcases kept.stays listed with ⟨listed', stored'⟩ | now
    · exact ⟨kept.queued.trans queued, .inl ⟨listed', stored'.trans stored⟩⟩
    · exact ⟨kept.queued.trans queued, .inr (List.mem_append_right _ (now waker stored))⟩
  · exact ⟨kept.queued.trans queued, .inr (List.mem_append_left _ woken)⟩

theorem Released.kept_waiter {n : Nat} {served rest : List Nat} (released : Released s n served rest t wakers)
    (i : Nat) : Kept s t wakers i := by
  constructor
  · exact (released.same i).1
  · intro listed
    rw [released.split] at listed
    rcases List.mem_append.mp listed with before | behind
    · right
      intro waker stored
      rw [released.wakers]
      exact List.mem_filterMap.mpr ⟨i, before, stored⟩
    · rcases released.cases i with kept | ⟨before, full⟩ | ⟨_, missing, _, _, front⟩
      · exact .inl ⟨by rw [released.waiters]; exact behind, by rw [kept]⟩
      · right
        intro waker stored
        rw [released.wakers]
        exact List.mem_filterMap.mpr ⟨i, before, stored⟩
      · exact .inl ⟨by rw [released.waiters]; exact behind, by rw [front]⟩

theorem Polled.kept_waiter {i j : Nat} {waker : W} {result : Acquired} (polled : Polled s t i waker result)
    (other : j ≠ i) : Kept s t [] j := by
  cases polled with
  | closed closed same =>
    rw [same]
    exact ⟨rfl, fun listed => .inl ⟨listed, rfl⟩⟩
  | taken opened unqueued changed available | full opened queued full changed available
  | waiting opened listed changed available | joined opened unqueued short changed available =>
    have same : t.acquires j = s.acquires j := by rw [changed.apply, if_neg other]
    refine ⟨by rw [same], fun listed => .inl ⟨?_, by rw [same]⟩⟩
    rw [changed.waiters]
    simp [listed]

theorem Shut.kept_waiter (shut : Shut s t wakers) (i : Nat) : Kept s t wakers i := by
  constructor
  · exact (shut.same i).1
  · intro listed
    right
    intro waker stored
    rw [shut.wakers]
    exact List.mem_filterMap.mpr ⟨i, listed, stored⟩

theorem dropped_waiter {i j n : Nat} {served rest : List Nat} (other : j ≠ i)
    (released : Released (s.cancelled i) n served rest t wakers) : Kept s t wakers j := by
  have same : (s.cancelled i).acquires j = s.acquires j := by
    rw [(cancelled_changed s i).apply, if_neg other]
  obtain ⟨queued, stays⟩ := released.kept_waiter j
  rw [same] at queued stays
  refine ⟨queued, fun listed => stays ?_⟩
  rw [(cancelled_changed s i).waiters]
  exact (List.mem_erase_of_ne other).mpr listed

theorem Polled.attended {i : Nat} {waker : W} (wf : s.WellFormed) (polled : Polled s t i waker .pending) :
    (t.acquires i).queued = true ∧ i ∈ t.waiters.list ∧ (t.acquires i).node.waker = some waker := by
  cases polled with
  | waiting opened listed changed available =>
    rw [changed.apply, if_pos rfl, changed.waiters]
    exact ⟨(wf.waiting i listed).2.1, listed, rfl⟩
  | joined opened unqueued short changed available =>
    rw [changed.apply, if_pos rfl, changed.waiters]
    exact ⟨rfl, by simp, rfl⟩

theorem Performed.watched (wf : s.WellFormed) (performed : Performed s t a answer wakers) (watched : Watched s v) :
    Watched t { v.note a answer with woken := fun i => (v.note a answer).woken i ++ wakers } := by
  intro j stored asked
  cases performed with
  | @acquire n allowed same =>
    have before := watched j stored asked
    have made : j < s.created := by
      by_contra beyond
      have completed := wf.unmade j (by omega)
      have unqueued := wf.done j completed
      rw [before.queued] at unqueued
      exact absurd unqueued (by decide)
    have kept : Kept s t [] j := by
      rw [same]
      constructor
      · rw [acquire_acquires, if_neg made.ne]
      · intro listed
        rw [acquire_acquires, if_neg made.ne]
        exact .inl ⟨listed, rfl⟩
    exact kept.attended before
  | @poll i waker result unfinished polled =>
    by_cases same : j = i
    · subst same
      cases result with
      | ready result => simp [Vigil.note] at asked
      | pending =>
        obtain ⟨queued, listed, given⟩ := polled.attended wf
        obtain rfl : waker = stored := by simpa [Vigil.note] using asked
        exact ⟨queued, .inl ⟨listed, given⟩⟩
    · have kept := polled.kept_waiter same
      cases result with
      | ready result =>
        obtain ⟨queued, attended⟩ := watched j stored (by simpa [Vigil.note, same] using asked)
        exact kept.attended ⟨queued, attended⟩
      | pending =>
        have before := watched j stored (by simpa [Vigil.note, same] using asked)
        obtain ⟨queued, attended⟩ := kept.attended before
        refine ⟨queued, ?_⟩
        simpa [Vigil.note, same] using attended
  | @dropAcquire i served rest wakers made released =>
    by_cases same : j = i
    · simp [Vigil.note, same] at asked
    · obtain ⟨queued, attended⟩ := watched j stored (by simpa [Vigil.note, same] using asked)
      exact (dropped_waiter same released).attended ⟨queued, attended⟩
  | tryAcquire tried =>
    have before := watched j stored asked
    have kept : Kept s t [] j := by
      cases tried with
      | closed closed same | noPermits opened short same =>
        rw [same]
        exact ⟨rfl, fun listed => .inl ⟨listed, rfl⟩⟩
      | taken opened opened' waiters acquires created available =>
        exact ⟨by rw [acquires], fun listed => .inl ⟨by rw [waiters]; exact listed, by rw [acquires]⟩⟩
    exact kept.attended before
  | release small released => exact (released.kept_waiter j).attended (watched j stored asked)
  | close shut => exact (shut.kept_waiter j).attended (watched j stored asked)

theorem Performed.stays_closed (performed : Performed s t a answer wakers) (closed : s.isClosed = true) :
    t.isClosed = true := by
  by_contra opened
  rw [performed.opened (by simpa using opened)] at closed
  exact absurd closed (by decide)

end Steps

section Runs

variable [Wakers W]

def watched (W : Type) [Wakers W] (permits : Nat) : System (Semaphore W × Vigil W) (Action W) Fault :=
  (machine W permits).observed .first Vigil.observe

instance (permits : Nat) : DecidablePred (watched W permits).within := fun _ => inferInstanceAs (Decidable True)

theorem watched_reachable (W : Type) [Wakers W] (permits : Nat) :
    (watched W permits).Reachable (new permits, .first) :=
  .initial ⟨rfl, rfl⟩

theorem watched_kept {permits : Nat} (small : permits < MAX_PERMIT) {r : Semaphore W × Vigil W}
    (reached : (watched W permits).Reachable r) : Watched r.1 r.2 := by
  apply System.Reachable.watched _ _ reached
  · rintro _ rfl i waker asked
    simp [Vigil.first] at asked
  · intro s v a t before watched _ stepped
    have sound := reachable_sound small before
    obtain ⟨answer, wakers, ran, performed⟩ := (step_kept sound).next stepped
    have after := performed.watched sound.wellFormed watched
    simpa only [Vigil.observe, ran] using after

/-- No wakeup is lost, and closing is for good. -/
theorem woken_and_closed {permits : Nat} (small : permits < MAX_PERMIT) {v : Vigil W}
    (reached : (watched W permits).Reachable (s, v)) :
    -- an Acquire that has been told to wait, and need not any more, has been woken since
    (∀ i waker, v.asked i = some waker → (s.acquires i).node.state = 0 ∨ s.isClosed = true →
      waker ∈ v.woken i) ∧
    s.close.1.isClosed = true ∧
    (s.isClosed = true → s.waiters.list = [] ∧
      (∀ i waker, s.poll i waker = .ok (.ready (.error ()), s, [])) ∧
      (∀ n < MAX_PERMIT, s.tryAcquire n = .ok (.error .closed, s)) ∧
      ∀ a t, s.step a = .next t → t.isClosed = true) := by
  have sound : s.Sound := reachable_sound small reached.of_observed
  have wf := sound.wellFormed
  refine ⟨?_, (close_shut wf.formed).closed, ?_⟩
  · intro i waker asked free
    have known : Watched s v := watched_kept small reached
    obtain ⟨queued, ⟨listed, _⟩ | woken⟩ := known i waker asked
    · have missing := (wf.waiting i listed).2.2.1
      rcases free with full | closed
      · omega
      · rw [wf.empty (wf.closed ▸ closed)] at listed
        simp at listed
    · exact woken
  · intro closed
    refine ⟨wf.empty (wf.closed ▸ closed), poll_closed closed, ?_, ?_⟩
    · intro n fits
      obtain ⟨result, t, ran, tried⟩ := tryAcquire_tried (s := s) fits
      cases tried with
      | closed closed same => rw [ran, same]
      | noPermits opened | taken opened =>
        rw [closed] at opened
        exact absurd opened (by decide)
    · intro a t stepped
      obtain ⟨answer, wakers, _, performed⟩ := (step_kept sound).next stepped
      exact performed.stays_closed closed

/-- A waiter that is polled again with another waker is served before it is polled a third time. -/
def exampleWait : List (Action Nat) := [.acquire 1, .poll 0 7, .poll 0 8, .release 1]

theorem exampleWait_asked :
    ((watched Nat 0).run (new 0, .first) exampleWait).map
      (fun r => (r.2.asked 0, (r.1.acquires 0).node.state)) = some (some 8, 0) := by
  decide +kernel

theorem woken_and_closed_run : ∃ v : Vigil Nat, v.asked 0 = some 8 ∧ 8 ∈ v.woken 0 := by
  obtain ⟨⟨s, v⟩, ran, polls⟩ := Option.map_eq_some_iff.mp exampleWait_asked
  have reached := System.reachable_run _ (watched_reachable Nat 0) ran
  obtain ⟨asked, served⟩ := Prod.mk.inj polls
  exact ⟨v, asked, (woken_and_closed (by decide) reached).1 0 8 asked (.inl served)⟩

end Runs

end Osaka.Sync.Semaphore
