import Osaka.Sync.SemaphoreRuns

set_option autoImplicit false

namespace Osaka.Sync

open Transitions

variable {W : Type}

namespace Semaphore

variable {s t : Semaphore W} {a : Action W} {answer : Answer} {wakers : List W}

section Moving

def nowAssigned (s t : Semaphore W) : List Nat :=
  s.waiters.list.filter fun i => (t.acquires i).queued && decide ((t.acquires i).node.state = 0)

def nowQueued (s t : Semaphore W) : List Nat := t.waiters.list.filter fun i => i ∉ s.waiters.list

def nowCancelled (s : Semaphore W) : Action W → List Nat
  | .dropAcquire i => if (s.acquires i).completed then [] else [i]
  | _ => []

def Over (s : Semaphore W) (i : Nat) : Prop := i < s.created ∧ (s.acquires i).completed = true

/-- How the queue of an open semaphore moves: waiters leave at the front, fully assigned, or are cancelled. -/
structure Moved (s t : Semaphore W) (gone served rest joined : List Nat) : Prop where
  queue : s.waiters.list.filter (fun i => i ∉ gone) = served ++ rest
  after : t.waiters.list = rest ++ joined
  joined : ∀ i ∈ joined, i ∉ s.waiters.list ∧ (s.acquires i).completed = false
  served : ∀ i ∈ served, (t.acquires i).queued = true ∧ (t.acquires i).node.state = 0
  rest : ∀ i ∈ rest, 0 < (t.acquires i).node.state
  gone : ∀ i ∈ gone, (t.acquires i).queued = false ∧ t.Over i
  past : ∀ i, s.Over i → t.Over i

theorem filter_none (list : List Nat) : list.filter (fun i => i ∉ ([] : List Nat)) = list := by simp

theorem Moved.still {joined : List Nat} (list : t.waiters.list = s.waiters.list ++ joined)
    (apart : ∀ i ∈ joined, i ∉ s.waiters.list ∧ (s.acquires i).completed = false)
    (waiting : ∀ i ∈ s.waiters.list, 0 < (t.acquires i).node.state) (past : ∀ i, s.Over i → t.Over i) :
    Moved s t [] [] s.waiters.list joined := by
  constructor
  · exact filter_none _
  · exact list
  · exact apart
  · simp
  · exact waiting
  · simp
  · exact past

theorem Released.moved {n : Nat} {served rest : List Nat} (wf : s.WellFormed)
    (released : Released s n served rest t wakers) : Moved s t [] served rest [] := by
  have after := released.wellFormed wf
  have list : t.waiters.list = rest := by rw [released.waiters]
  constructor
  · rw [filter_none, released.split]
  · rw [list, List.append_nil]
  · simp
  · intro i member
    have listed : i ∈ s.waiters.list := by
      rw [released.split]
      exact List.mem_append_left rest member
    rw [released.full i member]
    exact ⟨(wf.waiting i listed).2.1, rfl⟩
  · intro i member
    exact (after.waiting i (by rw [list]; exact member)).2.2.1
  · simp
  · rintro i ⟨made, completed⟩
    exact ⟨by rw [released.created]; exact made, by rw [(released.same i).2.1, completed]⟩

theorem Polled.moved {i : Nat} {waker : W} {result : Acquired} (wf : s.WellFormed)
    (unfinished : (s.acquires i).completed = false) (polled : Polled s t i waker result) :
    ∃ joined, Moved s t [] [] s.waiters.list joined := by
  have missing : ∀ i ∈ s.waiters.list, 0 < (s.acquires i).node.state := fun i listed => (wf.waiting i listed).2.2.1
  cases polled with
  | closed closed same =>
    rw [same]
    exact ⟨[], .still (by simp) (by simp) missing fun _ past => past⟩
  | taken opened unqueued changed available | full opened queued full changed available
  | waiting opened listed changed available =>
    refine ⟨[], .still ?_ (by simp) ?_ ?_⟩
    · rw [changed.waiters, List.append_nil]
    · intro j listed
      rw [changed.apply]
      split
      next same =>
        rw [← same]
        exact missing j listed
      next => exact missing j listed
    · rintro j ⟨made, completed⟩
      refine ⟨by rw [changed.created]; exact made, ?_⟩
      rw [changed.apply]
      split
      next same => grind -linarith
      next => exact completed
  | joined opened unqueued short changed available =>
    have unlisted : i ∉ s.waiters.list := by
      intro listed
      have queued := (wf.waiting i listed).2.1
      rw [unqueued] at queued
      exact absurd queued (by decide)
    refine ⟨[i], .still ?_ ?_ ?_ ?_⟩
    · rw [changed.waiters]
    · simpa using ⟨unlisted, unfinished⟩
    · intro j listed
      have other : j ≠ i := fun same => unlisted (same ▸ listed)
      rw [changed.apply, if_neg other]
      exact missing j listed
    · rintro j ⟨made, completed⟩
      refine ⟨by rw [changed.created]; exact made, ?_⟩
      have other : j ≠ i := by
        rintro rfl
        simp [unfinished] at completed
      rw [changed.apply, if_neg other]
      exact completed

theorem dropped_moved {i : Nat} {served rest : List Nat} (wf : s.WellFormed) (made : i < s.created)
    (released : Released (s.cancelled i) (s.acquires i).held served rest t wakers) :
    Moved s t (s.nowCancelled (.dropAcquire i : Action W)) served rest [] := by
  have moved := released.moved (cancelled_wellFormed wf)
  have changed := cancelled_changed s i
  have gone : (t.acquires i).queued = false ∧ t.Over i := by
    obtain ⟨queued, completed, _, _⟩ := released.same i
    rw [changed.apply, if_pos rfl] at queued completed
    exact ⟨queued, by rw [released.created]; exact made, completed⟩
  constructor
  · rw [← moved.queue, filter_none, changed.waiters]
    change _ = s.waiters.list.erase i
    cases completed : (s.acquires i).completed with
    | false =>
      rw [wf.nodup.erase_eq_filter]
      simp [nowCancelled, completed, bne, beq_eq_decide]
    | true =>
      have unlisted : i ∉ s.waiters.list := by
        intro listed
        have queued := (wf.waiting i listed).2.1
        rw [wf.done i completed] at queued
        exact absurd queued (by decide)
      rw [List.erase_of_not_mem unlisted]
      simp [nowCancelled, completed]
  · exact moved.after
  · simp
  · exact moved.served
  · exact moved.rest
  · intro j member
    obtain rfl : j = i := by
      rw [nowCancelled] at member
      split at member
      next => simp at member
      next => simpa using member
    exact gone
  · rintro j ⟨made, completed⟩
    apply moved.past
    refine ⟨made, ?_⟩
    rw [changed.apply]
    split
    next => rfl
    next => exact completed

theorem Performed.moved (wf : s.WellFormed) (opened : t.isClosed = false)
    (performed : Performed s t a answer wakers) :
    ∃ served rest joined, Moved s t (s.nowCancelled a) served rest joined ∧
      wakers = served.filterMap fun i => (s.acquires i).node.waker := by
  have missing : ∀ i ∈ s.waiters.list, 0 < (s.acquires i).node.state := fun i listed => (wf.waiting i listed).2.2.1
  cases performed with
  | @acquire n asked same =>
    refine ⟨[], s.waiters.list, [], .still (by rw [same, List.append_nil]; rfl) (by simp) ?_ ?_, rfl⟩
    · intro i listed
      have made := (wf.waiting i listed).1
      rw [same, acquire_acquires, if_neg made.ne]
      exact missing i listed
    · rintro i ⟨made, completed⟩
      refine ⟨by rw [same]; exact Nat.lt_succ_of_lt made, ?_⟩
      rw [same, acquire_acquires, if_neg made.ne]
      exact completed
  | poll unfinished polled =>
    obtain ⟨joined, moved⟩ := polled.moved wf unfinished
    exact ⟨_, _, _, moved, rfl⟩
  | @dropAcquire i served rest wakers made released =>
    have stored : ∀ j, ((s.cancelled i).acquires j).node.waker = (s.acquires j).node.waker := by
      intro j
      rw [(cancelled_changed s i).apply]
      split
      next same => rw [same]
      next => rfl
    refine ⟨_, _, _, dropped_moved wf made released, ?_⟩
    rw [released.wakers]
    simp only [stored]
  | tryAcquire tried =>
    refine ⟨[], s.waiters.list, [], ?_, rfl⟩
    cases tried with
    | closed closed same | noPermits opened short same =>
      rw [same]
      exact .still (by simp) (by simp) missing fun _ past => past
    | taken opened opened' waiters acquires created available =>
      have past : ∀ i, s.Over i → t.Over i := by
        intro i past
        rwa [Over, created, acquires]
      exact .still (by rw [waiters, List.append_nil]) (by simp) (by rw [acquires]; exact missing) past
  | release small released => exact ⟨_, _, _, released.moved wf, released.wakers⟩
  | close shut =>
    rw [shut.closed] at opened
    exact absurd opened (by decide)

theorem Moved.nowAssigned {gone served rest joined : List Nat} (moved : Moved s t gone served rest joined) :
    s.nowAssigned t = served := by
  have split : s.nowAssigned t = (s.waiters.list.filter fun i => i ∉ gone).filter fun i =>
      (t.acquires i).queued && decide ((t.acquires i).node.state = 0) := by
    rw [List.filter_filter, Semaphore.nowAssigned]
    apply List.filter_congr
    intro i _
    by_cases member : i ∈ gone
    · simp [(moved.gone i member).1]
    · simp [member]
  have all : served.filter (fun i => (t.acquires i).queued && decide ((t.acquires i).node.state = 0)) = served := by
    rw [List.filter_eq_self]
    intro i member
    simpa using moved.served i member
  have none : rest.filter (fun i => (t.acquires i).queued && decide ((t.acquires i).node.state = 0)) = [] := by
    rw [List.filter_eq_nil_iff]
    intro i member
    simp [(moved.rest i member).ne']
  rw [split, moved.queue, List.filter_append, all, none, List.append_nil]

theorem Moved.nowQueued {gone served rest joined : List Nat} (moved : Moved s t gone served rest joined) :
    s.nowQueued t = joined := by
  have none : rest.filter (fun i => i ∉ s.waiters.list) = [] := by
    rw [List.filter_eq_nil_iff]
    intro i member
    have listed : i ∈ s.waiters.list.filter fun i => i ∉ gone := by
      rw [moved.queue]
      exact List.mem_append_right served member
    simpa using (List.mem_filter.mp listed).1
  have all : joined.filter (fun i => i ∉ s.waiters.list) = joined := by
    rw [List.filter_eq_self]
    intro i member
    simpa using (moved.joined i member).1
  rw [Semaphore.nowQueued, moved.after, List.filter_append, none, all, List.nil_append]

theorem Performed.settled (wf : s.WellFormed) (performed : Performed s t a answer wakers) {i : Nat}
    (queued : (s.acquires i).queued = true) (full : (s.acquires i).node.state = 0)
    (kept : i ∉ s.nowCancelled a) :
    t.Over i ∨ (t.acquires i).queued = true ∧ (t.acquires i).node.state = 0 := by
  have made : i < s.created := by
    by_contra unmade
    rw [wf.done i (wf.unmade i (by omega))] at queued
    exact absurd queued (by decide)
  have unlisted : i ∉ s.waiters.list := by
    intro listed
    have missing := (wf.waiting i listed).2.2.1
    omega
  have released {u : Semaphore W} {n : Nat} {served rest : List Nat} {wakers : List W}
      (same : u.acquires i = s.acquires i) (gives : Released u n served rest t wakers) :
      (t.acquires i).queued = true ∧ (t.acquires i).node.state = 0 := by
    have both := gives.same i
    rw [same] at both
    exact ⟨by rw [both.1, queued], by omega⟩
  cases performed with
  | acquire asked same =>
    rw [same, acquire_acquires]
    rw [if_neg made.ne]
    exact .inr ⟨queued, full⟩
  | @poll j waker result unfinished polled =>
    cases polled with
    | closed closed same =>
      rw [same]
      exact .inr ⟨queued, full⟩
    | taken opened unqueued changed available | full opened queued' full' changed available =>
      by_cases same : i = j
      · exact .inl ⟨by rw [changed.created]; exact made, by rw [changed.apply, if_pos same]⟩
      · rw [changed.apply, if_neg same]
        exact .inr ⟨queued, full⟩
    | waiting opened listed changed available =>
      have other : i ≠ j := fun same => unlisted (same ▸ listed)
      rw [changed.apply, if_neg other]
      exact .inr ⟨queued, full⟩
    | joined opened unqueued short changed available =>
      have other : i ≠ j := by
        rintro rfl
        rw [queued] at unqueued
        exact absurd unqueued (by decide)
      rw [changed.apply, if_neg other]
      exact .inr ⟨queued, full⟩
  | @dropAcquire j served rest wakers made' gives =>
    have other : i ≠ j := by
      rintro rfl
      have completed : (s.acquires i).completed = true := by simpa [nowCancelled] using kept
      rw [wf.done i completed] at queued
      exact absurd queued (by decide)
    have same : (s.cancelled j).acquires i = s.acquires i := by
      rw [(cancelled_changed s j).apply, if_neg other]
    exact .inr (released same gives)
  | tryAcquire tried =>
    cases tried with
    | closed closed same | noPermits opened short same =>
      rw [same]
      exact .inr ⟨queued, full⟩
    | taken opened opened' waiters acquires created available =>
      rw [acquires]
      exact .inr ⟨queued, full⟩
  | release small gives => exact .inr (released rfl gives)
  | close shut =>
    obtain ⟨queued', _, _, state⟩ := shut.same i
    exact .inr ⟨by rw [queued', queued], by rw [state, full]⟩

theorem Performed.joins (performed : Performed s t a answer wakers) {i : Nat}
    (unqueued : (s.acquires i).queued = false) (queued : (t.acquires i).queued = true) :
    0 < (t.acquires i).node.state := by
  have released {u : Semaphore W} {n : Nat} {served rest : List Nat} {wakers : List W}
      (before : (u.acquires i).queued = false) (gives : Released u n served rest t wakers) :
      0 < (t.acquires i).node.state := by
    rw [(gives.same i).1, before] at queued
    exact absurd queued (by decide)
  cases performed with
  | acquire asked same =>
    rw [same, acquire_acquires] at queued
    grind -linarith [Acquire.new]
  | @poll j waker result unfinished polled =>
    cases polled with
    | closed closed same => grind -linarith
    | taken opened unqueued' changed available | full opened queued' full' changed available
    | waiting opened listed changed available => grind -linarith [changed.apply]
    | joined opened unqueued' short changed available =>
      rw [changed.apply] at queued ⊢
      by_cases same : i = j
      · rw [if_pos same]
        change 0 < (s.acquires j).numPermits - s.availablePermits
        omega
      · rw [if_neg same, unqueued] at queued
        exact absurd queued (by decide)
  | @dropAcquire j served rest wakers made gives =>
    apply released _ gives
    rw [(cancelled_changed s j).apply]
    split
    next => rfl
    next => exact unqueued
  | tryAcquire tried =>
    cases tried with
    | closed closed same | noPermits opened short same => grind -linarith
    | taken opened opened' waiters acquires created available => grind -linarith
  | release small gives => exact released unqueued gives
  | close shut =>
    rw [(shut.same i).1, unqueued] at queued
    exact absurd queued (by decide)

end Moving

section Chronicle

/-- The waiters in the order in which they were queued, and in which they were fully assigned. -/
structure Chronicle where
  queued : List Nat
  assigned : List Nat
  cancelled : List Nat

def Chronicle.observe (c : Chronicle) (s : Semaphore W) (a : Action W) (t : Semaphore W) : Chronicle :=
  { queued := c.queued ++ s.nowQueued t
    assigned := c.assigned ++ s.nowAssigned t
    cancelled := c.cancelled ++ s.nowCancelled a }

def Chronicle.kept (c : Chronicle) (list : List Nat) : List Nat := list.filter fun i => i ∉ c.cancelled

theorem Chronicle.kept_observe (c : Chronicle) (s : Semaphore W) (a : Action W) (t : Semaphore W) (list : List Nat) :
    (c.observe s a t).kept list = (c.kept list).filter fun i => i ∉ s.nowCancelled a := by
  rw [Chronicle.kept, Chronicle.kept, List.filter_filter]
  apply List.filter_congr
  intro i _
  simp only [Chronicle.observe, List.mem_append, not_or, Bool.decide_and, Bool.and_comm]

structure Ordered (s : Semaphore W) (c : Chronicle) : Prop where
  past : ∀ i ∈ c.cancelled, s.Over i
  order : c.kept c.queued = c.kept c.assigned ++ s.waiters.list

theorem Moved.ordered {c : Chronicle} {served rest joined : List Nat} (wf : s.WellFormed) (wf' : t.WellFormed)
    (moved : Moved s t (s.nowCancelled a) served rest joined) (ordered : Ordered s c) :
    Ordered t (c.observe s a t) := by
  have later := c.kept_observe s a t
  have fresh (list : List Nat) (unfinished : ∀ i ∈ list, (s.acquires i).completed = false) : c.kept list = list := by
    rw [Chronicle.kept, List.filter_eq_self]
    intro i member
    rw [decide_eq_true_iff]
    intro cancelled
    have completed := (ordered.past i cancelled).2
    rw [unfinished i member] at completed
    exact absurd completed (by decide)
  have waiting (i : Nat) (member : i ∈ served) : i ∈ s.waiters.list ∧ i ∉ s.nowCancelled a := by
    have listed : i ∈ s.waiters.list.filter fun i => i ∉ s.nowCancelled a := by
      rw [moved.queue]
      exact List.mem_append_left rest member
    simpa using List.mem_filter.mp listed
  have joins : (c.kept joined).filter (fun i => i ∉ s.nowCancelled a) = joined := by
    rw [fresh joined fun i member => (moved.joined i member).2, List.filter_eq_self]
    intro i member
    rw [decide_eq_true_iff]
    intro gone
    have queued := (wf'.waiting i (by rw [moved.after]; exact List.mem_append_right rest member)).2.1
    rw [(moved.gone i gone).1] at queued
    exact absurd queued (by decide)
  have leaves : (c.kept served).filter (fun i => i ∉ s.nowCancelled a) = served := by
    rw [fresh served fun i member => ?_, List.filter_eq_self]
    · intro i member
      exact decide_eq_true (waiting i member).2
    · by_contra completed
      have queued := (wf.waiting i (waiting i member).1).2.1
      rw [wf.done i (by simpa using completed)] at queued
      exact absurd queued (by decide)
  have append (list more : List Nat) : c.kept (list ++ more) = c.kept list ++ c.kept more := List.filter_append ..
  constructor
  · intro i member
    rcases List.mem_append.mp member with before | now
    · exact moved.past i (ordered.past i before)
    · exact (moved.gone i now).2
  · rw [later, later]
    simp only [Chronicle.observe, moved.nowQueued, moved.nowAssigned, append, List.filter_append, joins, leaves,
      ordered.order, moved.queue, moved.after, List.append_assoc]

def chronicled (W : Type) [Wakers W] (permits : Nat) : System (Semaphore W × Chronicle) (Action W) Fault :=
  (machine W permits).observed ⟨[], [], []⟩ Chronicle.observe

instance (permits : Nat) [Wakers W] : DecidablePred (chronicled W permits).within :=
  fun _ => inferInstanceAs (Decidable True)

theorem chronicled_reachable (W : Type) [Wakers W] (permits : Nat) :
    (chronicled W permits).Reachable (new permits, ⟨[], [], []⟩) :=
  .initial ⟨rfl, rfl⟩

variable [Wakers W]

theorem chronicled_ordered {permits : Nat} (small : permits < MAX_PERMIT) {r : Semaphore W × Chronicle}
    (reached : (chronicled W permits).Reachable r) : r.1.isClosed = false → Ordered r.1 r.2 := by
  apply System.Reachable.watched (P := fun s c => s.isClosed = false → Ordered s c) _ _ reached
  · rintro _ rfl _
    exact ⟨by simp, rfl⟩
  · intro s c a t before ordered _ stepped opened
    have sound := reachable_sound small before
    obtain ⟨answer, wakers, ran, performed⟩ := (step_kept sound).next stepped
    obtain ⟨served, rest, joined, moved, _⟩ := performed.moved sound.wellFormed opened
    have opened' : s.isClosed = false := performed.opened opened
    exact moved.ordered sound.wellFormed (performed.wellFormed sound.wellFormed) (ordered opened')

structure Settled (s : Semaphore W) (c : Chronicle) : Prop where
  turn : ∀ i, (s.acquires i).queued = true → (s.acquires i).node.state = 0 → i ∈ c.kept c.assigned
  holds : ∀ i ∈ c.kept c.assigned, s.Over i ∨ (s.acquires i).queued = true ∧ (s.acquires i).node.state = 0

omit [Wakers W] in
theorem Chronicle.mem_kept {c : Chronicle} {list : List Nat} {i : Nat} :
    i ∈ c.kept list ↔ i ∈ list ∧ i ∉ c.cancelled := by
  simp [Chronicle.kept]

omit [Wakers W] in
theorem Performed.settle {c : Chronicle} (wf : s.WellFormed) (performed : Performed s t a answer wakers)
    (opened : t.isClosed = false) (ordered : Ordered s c) (settled : Settled s c) :
    Settled t (c.observe s a t) := by
  have wf' := performed.wellFormed wf
  have opened' := performed.opened opened
  obtain ⟨served, rest, joined, moved, _⟩ := performed.moved wf opened
  have past := (moved.ordered wf wf' ordered).past
  constructor
  · intro i queued full
    have uncancelled : i ∉ (c.observe s a t).cancelled := by
      intro cancelled
      rw [wf'.done i (past i cancelled).2] at queued
      exact absurd queued (by decide)
    rw [Chronicle.mem_kept]
    refine ⟨?_, uncancelled⟩
    simp only [Chronicle.observe, List.mem_append, not_or] at uncancelled ⊢
    cases before : (s.acquires i).queued with
    | false =>
      have missing := performed.joins before queued
      omega
    | true =>
      by_cases missing : 0 < (s.acquires i).node.state
      · have listed := (wf.unserved i before missing).resolve_right (by rw [← wf.closed, opened']; decide)
        right
        simpa [Semaphore.nowAssigned] using ⟨listed, queued, full⟩
      · left
        exact (Chronicle.mem_kept.mp (settled.turn i before (by omega))).1
  · intro i member
    obtain ⟨assigned, uncancelled⟩ := Chronicle.mem_kept.mp member
    simp only [Chronicle.observe, List.mem_append, not_or] at assigned uncancelled
    rcases assigned with before | now
    · rcases settled.holds i (Chronicle.mem_kept.mpr ⟨before, uncancelled.1⟩) with done | ⟨queued, full⟩
      · exact .inl (moved.past i done)
      · exact performed.settled wf queued full uncancelled.2
    · right
      simpa using (List.mem_filter.mp now).2

theorem chronicled_settled {permits : Nat} (small : permits < MAX_PERMIT) {r : Semaphore W × Chronicle}
    (reached : (chronicled W permits).Reachable r) (opened : r.1.isClosed = false) : Settled r.1 r.2 := by
  have both : r.1.isClosed = false → Ordered r.1 r.2 ∧ Settled r.1 r.2 := by
    apply System.Reachable.watched (P := fun s c => s.isClosed = false → Ordered s c ∧ Settled s c) _ _ reached
    · rintro _ rfl _
      exact ⟨⟨by simp, rfl⟩, ⟨by simp [new], by simp [Chronicle.kept]⟩⟩
    · intro s c a t before holds _ stepped opened
      have sound := reachable_sound small before
      obtain ⟨answer, wakers, ran, performed⟩ := (step_kept sound).next stepped
      obtain ⟨served, rest, joined, moved, _⟩ := performed.moved sound.wellFormed opened
      obtain ⟨ordered, settled⟩ := holds (performed.opened opened)
      exact ⟨moved.ordered sound.wellFormed (performed.wellFormed sound.wellFormed) ordered,
        performed.settle sound.wellFormed opened ordered settled⟩
  exact (both opened).2

end Chronicle

section Barging

theorem pair_apart {older younger : Nat} {served rest : List Nat} (nodup : (served ++ rest).Nodup)
    (order : [older, younger].Sublist (served ++ rest)) (waits : older ∈ rest) :
    younger ∉ served ∧ rest.head? ≠ some younger := by
  obtain ⟨_, behind, apart⟩ := List.nodup_append.mp nodup
  have order' : [older, younger].Sublist rest := by
    obtain ⟨front, back, split, front', back'⟩ := List.sublist_append_iff.mp order
    cases front with
    | nil =>
      rw [split]
      exact back'
    | cons first front =>
      obtain ⟨rfl, _⟩ := List.cons.inj split
      exact absurd rfl (apart older (front'.subset (by simp)) older waits)
  refine ⟨fun before => apart younger before younger (order'.subset (by simp)) rfl, ?_⟩
  cases rest with
  | nil => simp
  | cons first rest =>
    obtain ⟨fresh, _⟩ := List.nodup_cons.mp behind
    intro front
    obtain rfl : first = younger := by simpa using front
    cases order' with
    | cons _ later => exact fresh (later.subset (by simp))
    | cons_cons _ later => exact fresh (later.subset (by simp))

theorem Released.younger {n older younger : Nat} {served rest : List Nat} (wf : s.WellFormed)
    (released : Released s n served rest t wakers) (order : [older, younger].Sublist s.waiters.list)
    (waits : older ∈ t.waiters.list) : t.acquires younger = s.acquires younger := by
  have nodup := wf.nodup
  rw [released.split] at order nodup
  rw [released.waiters] at waits
  obtain ⟨unserved, behind⟩ := pair_apart nodup order waits
  exact released.kept younger unserved behind

/-- While an older waiter stays in the queue, a younger one is assigned nothing. -/
theorem Performed.younger {older younger : Nat} (wf : s.WellFormed) (performed : Performed s t a answer wakers)
    (order : [older, younger].Sublist s.waiters.list) (waits : older ∈ t.waiters.list) :
    (t.acquires younger).node.state = (s.acquires younger).node.state := by
  have listed : younger ∈ s.waiters.list := order.subset (by simp)
  obtain ⟨made, queued, missing, _⟩ := wf.waiting younger listed
  cases performed with
  | acquire asked same => rw [same, acquire_acquires, if_neg made.ne]
  | poll unfinished polled =>
    cases polled with
    | closed closed same => rw [same]
    | taken opened unqueued changed available | full opened queued full changed available
    | waiting opened listed changed available | joined opened unqueued short changed available =>
      rw [changed.apply]
      grind -linarith
  | @dropAcquire i served rest wakers made released =>
    have changed := cancelled_changed s i
    have wf' := cancelled_wellFormed (i := i) wf
    have before : ((s.cancelled i).acquires younger).node.state = (s.acquires younger).node.state := by
      rw [changed.apply]
      grind -linarith
    rw [← before]
    by_cases same : younger = i
    · have unlisted : younger ∉ (s.cancelled i).waiters.list := by
        rw [changed.waiters, same]
        exact wf.nodup.not_mem_erase
      rw [released.split, List.mem_append, not_or] at unlisted
      rw [released.kept younger unlisted.1 fun first => unlisted.2 (List.mem_of_head? first)]
    · have kept : older ≠ i := by
        rintro rfl
        have member : older ∈ (s.cancelled older).waiters.list := by
          rw [released.split]
          rw [released.waiters] at waits
          exact List.mem_append_right served waits
        rw [changed.waiters] at member
        exact wf.nodup.not_mem_erase member
      have order' : [older, younger].Sublist (s.cancelled i).waiters.list := by
        rw [changed.waiters]
        have erased := order.erase i
        rwa [List.erase_of_not_mem (by simp [Ne.symm kept, Ne.symm same])] at erased
      rw [released.younger wf' order' waits]
  | tryAcquire tried =>
    cases tried with
    | closed closed same | noPermits opened short same => rw [same]
    | taken opened opened' waiters acquires created available => rw [acquires]
  | release small released => rw [released.younger wf order waits]
  | close shut => rw [(shut.same younger).2.2.2]

variable [Wakers W]

/-- First come, first served: what `semaphore.rs` says of fairness, over all runs. -/
theorem first_come_first_served {permits : Nat} (small : permits < MAX_PERMIT) {c : Chronicle}
    (reached : (chronicled W permits).Reachable (s, c)) (opened : s.isClosed = false) :
    -- whoever waits, waits for permits that are not there, and only the oldest has got a part of its own
    (s.waiters.list ≠ [] → s.availablePermits = 0) ∧
    (∀ i ∈ s.waiters.list.tail, (s.acquires i).node.state = (s.acquires i).numPermits) ∧
    -- waiters that are not cancelled are fully assigned in the order in which they were queued
    c.kept c.queued = c.kept c.assigned ++ s.waiters.list ∧
    -- and while one waits, nobody else obtains a permit
    (s.waiters.list ≠ [] → ∀ n, 1 ≤ n → n < MAX_PERMIT → s.tryAcquire n = .ok (.error .noPermits, s)) ∧
    (s.waiters.list ≠ [] → ∀ i waker, (s.acquires i).completed = false → (s.acquires i).queued = false →
      1 ≤ (s.acquires i).numPermits → ∃ t, s.poll i waker = .ok (.pending, t, []) ∧
        t.waiters.list = s.waiters.list ++ [i] ∧ (t.acquires i).node.state = (s.acquires i).numPermits) ∧
    (∀ a t, s.step a = .next t → ∀ older younger, [older, younger].Sublist s.waiters.list →
      older ∈ t.waiters.list → (t.acquires younger).node.state = (s.acquires younger).node.state) ∧
    -- those that a cancellation does not serve keep their order
    (∀ i t, s.step (.dropAcquire i) = .next t → t.waiters.list <:+ s.waiters.list.erase i) ∧
    -- those that a step serves are woken in this order, too
    (∀ a answer t wakers, s.allowed a = true → s.perform a = .ok (answer, t, wakers) → t.isClosed = false →
      wakers = (s.nowAssigned t).filterMap fun i => (s.acquires i).node.waker) := by
  have sound : s.Sound := reachable_sound small reached.of_observed
  have wf := sound.wellFormed
  refine ⟨wf.busy, wf.partly, (chronicled_ordered small reached opened).order, ?_, ?_, ?_, ?_, ?_⟩
  · intro busy n some fits
    have none := wf.busy busy
    obtain ⟨result, t, ran, tried⟩ := tryAcquire_tried (s := s) fits
    cases tried with
    | closed closed same =>
      rw [opened] at closed
      exact absurd closed (by decide)
    | noPermits opened short same => rw [ran, same]
    | taken opened opened' waiters acquires created available => omega
  · intro busy i waker unfinished unqueued some
    have none := wf.busy busy
    obtain ⟨result, t, ran, polled⟩ := poll_polled wf unfinished waker
    cases polled with
    | closed closed same =>
      rw [opened] at closed
      exact absurd closed (by decide)
    | taken opened unqueued changed available => omega
    | full opened queued full changed available =>
      rw [unqueued] at queued
      exact absurd queued (by decide)
    | waiting opened listed changed available =>
      have queued := (wf.waiting i listed).2.1
      rw [unqueued] at queued
      exact absurd queued (by decide)
    | joined opened unqueued short changed available =>
      refine ⟨t, ran, by rw [changed.waiters], ?_⟩
      rw [changed.apply, if_pos rfl, none]
      rfl
  · intro a t stepped older younger order waits
    obtain ⟨answer, wakers, _, performed⟩ := (step_kept sound).next stepped
    exact performed.younger wf order waits
  · intro i t stepped
    obtain ⟨answer, wakers, _, performed⟩ := (step_kept sound).next stepped
    cases performed with
    | @dropAcquire i served rest wakers made released =>
      have queue : s.waiters.list.erase i = served ++ rest := released.split
      rw [released.waiters, queue]
      exact List.suffix_append served rest
  · intro a answer t wakers allowed ran opened'
    obtain ⟨_, _, _, ran', performed⟩ := perform_performed wf sound.small allowed
    obtain ⟨rfl, rfl, rfl⟩ : _ = answer ∧ _ = t ∧ _ = wakers := by simpa [ran] using ran'.symm
    obtain ⟨served, rest, joined, moved, woken⟩ := performed.moved wf opened'
    rw [moved.nowAssigned, woken]

/-- The first in the queue is cancelled when it has a part, which serves the next. -/
def exampleQueue : List (Action Nat) :=
  [.acquire 2, .acquire 1, .acquire 1, .poll 0 7, .poll 1 8, .poll 2 9, .dropAcquire 0]

theorem exampleQueue_moves :
    ((chronicled Nat 1).run (new 1, ⟨[], [], []⟩) exampleQueue).map
      (fun r => (r.1.isClosed, r.2.kept r.2.queued, r.2.kept r.2.assigned)) = some (false, [1, 2], [1]) := by
  decide +kernel

theorem first_come_first_served_run : ∃ s : Semaphore Nat, s.waiters.list = [2] ∧ s.availablePermits = 0 := by
  obtain ⟨⟨s, c⟩, ran, moves⟩ := Option.map_eq_some_iff.mp exampleQueue_moves
  have reached := System.reachable_run _ (chronicled_reachable Nat 1) ran
  simp only [Prod.mk.injEq] at moves
  obtain ⟨opened, queued, assigned⟩ := moves
  obtain ⟨busy, _, order, _⟩ := first_come_first_served (by decide) reached opened
  have waiting : s.waiters.list = [2] := by simpa [queued, assigned] using order.symm
  exact ⟨s, waiting, busy (by simp [waiting])⟩

end Barging

end Semaphore

end Osaka.Sync
