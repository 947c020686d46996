import Osaka.Sync.OnceCell

set_option autoImplicit false

namespace Osaka.Sync

open Transitions

variable {T W : Type}

namespace Semaphore

section Easing

variable {s t u : Semaphore W} {i n : Nat} {waker : W} {wakers : List W} {gone later served rest : List Nat}

/-- What becomes of the Acquires in a step that queues none of them: some are done with, the others keep their
place. -/
structure Eased (s t : Semaphore W) (gone : List Nat) : Prop where
  list : t.waiters.list.Sublist s.waiters.list
  asked : ∀ i, (t.acquires i).numPermits = (s.acquires i).numPermits
  finished : ∀ i ∈ gone, (t.acquires i).queued = false
  same : ∀ i, i ∉ gone → (t.acquires i).queued = (s.acquires i).queued ∧
    (t.acquires i).completed = (s.acquires i).completed
  stored : ∀ i ∈ t.waiters.list, (t.acquires i).node.waker = (s.acquires i).node.waker

theorem Eased.refl (s : Semaphore W) : Eased s s [] := by
  constructor <;> simp

theorem Eased.trans (first : Eased s t gone) (second : Eased t u later)
    (finished : ∀ i ∈ gone, i ∉ later → (u.acquires i).queued = false) : Eased s u (gone ++ later) := by
  constructor
  · exact second.list.trans first.list
  · intro i
    rw [second.asked, first.asked]
  · intro i member
    by_cases last : i ∈ later
    · exact second.finished i last
    · exact finished i ((List.mem_append.mp member).resolve_right last) last
  · intro i kept
    have apart : i ∉ gone ∧ i ∉ later := by simpa using kept
    have before := first.same i apart.1
    have after := second.same i apart.2
    exact ⟨after.1.trans before.1, after.2.trans before.2⟩
  · intro i listed
    rw [second.stored i listed, first.stored i (second.list.subset listed)]

theorem Released.eased (wf : s.WellFormed) (released : Released s n served rest t wakers) : Eased s t [] := by
  have list : t.waiters.list = rest := by rw [released.waiters]
  have nodup := wf.nodup
  rw [released.split] at nodup
  constructor
  · rw [list, released.split]
    exact List.sublist_append_right served rest
  · exact fun i => (released.same i).2.2.1
  · simp
  · exact fun i _ => ⟨(released.same i).1, (released.same i).2.1⟩
  · intro i listed
    rw [list] at listed
    rcases released.cases i with kept | ⟨before, _⟩ | ⟨_, missing, _, _, front⟩
    · rw [kept]
    · exact absurd rfl ((List.nodup_append.mp nodup).2.2 i before i listed)
    · rw [front]

theorem dropped_eased (wf : s.WellFormed) (released : Released (s.cancelled i) n served rest t wakers) :
    Eased s t [i] := by
  have changed := cancelled_changed s i
  have eased := released.eased (cancelled_wellFormed wf)
  constructor
  · apply eased.list.trans
    rw [changed.waiters]
    exact List.erase_sublist
  · intro j
    rw [eased.asked, changed.apply]
    split
    next same => rw [same]
    next => rfl
  · intro j member
    rw [List.mem_singleton.mp member, (eased.same i (by simp)).1, changed.apply, if_pos rfl]
  · intro j other
    have apart : j ≠ i := by simpa using other
    have same := eased.same j (by simp)
    rwa [changed.apply, if_neg apart] at same
  · intro j listed
    rw [eased.stored j listed, changed.apply]
    split
    next same => rw [same]
    next => rfl

theorem Changed.eased (changed : Changed s i { s.acquires i with queued := false, completed := true } s.waiters.list t) :
    Eased s t [i] := by
  constructor
  · rw [changed.waiters]
  · intro j
    rw [changed.apply]
    split
    next same => rw [same]
    next => rfl
  · intro j member
    rw [List.mem_singleton.mp member, changed.apply, if_pos rfl]
  · intro j other
    have apart : j ≠ i := by simpa using other
    rw [changed.apply, if_neg apart]
    exact ⟨rfl, rfl⟩
  · intro j _
    rw [changed.apply]
    split
    next same => rw [same]
    next => rfl

theorem Shut.eased (shut : Shut s t wakers) : Eased s t [] := by
  have list : t.waiters.list = [] := by rw [shut.waiters]
  constructor
  · rw [list]
    exact List.nil_sublist _
  · exact fun i => (shut.same i).2.2.1
  · simp
  · exact fun i _ => ⟨(shut.same i).1, (shut.same i).2.1⟩
  · simp [list]

theorem Tried.eased {result : Except TryAcquireError Unit} (tried : Tried s t n result) : Eased s t [] := by
  cases tried with
  | closed closed same | noPermits opened short same =>
    rw [same]
    exact .refl s
  | taken opened opened' waiters acquires created available =>
    constructor <;> simp [waiters, acquires]

theorem Polled.done [Wakers W] {result : Except Unit Unit} (wf : s.WellFormed)
    (unfinished : (s.acquires i).completed = false) (small : s.balance < MAX_PERMIT) (polled : Polled s t i waker (.ready result)) :
    ∃ u wakers, t.dropAcquire i = .ok (u, wakers) ∧ s.Follows u ∧ Eased s u [i] ∧
      u.balance + (if result = .ok () then (s.acquires i).numPermits else 0) = s.balance := by
  have follows := polled.follows wf unfinished
  have balance := polled.balance wf.formed unfinished
  have made : i < t.created := by
    rw [follows.created]
    exact made_of wf.formed unfinished
  have small' : t.balance < MAX_PERMIT := by omega
  obtain ⟨served, rest, u, wakers, ran, released⟩ := dropAcquire_released follows.wellFormed made small'
  have back := cancelled_balance made
  have after := released.balance
  have follows' := dropped_follows follows.wellFormed released
  have eased := dropped_eased follows.wellFormed released
  refine ⟨u, wakers, ran, ?_, ?_, ?_⟩
  · constructor
    · exact follows'.wellFormed
    · rw [follows'.closed, follows.closed]
    · rw [follows'.created, follows.created]
    · intro j
      rw [follows'.asked, follows.asked]
    · exact fun j incomplete => follows.unfinished j (follows'.unfinished j incomplete)
  · cases polled with
    | closed closed same =>
      rw [same] at eased
      exact eased
    | taken opened unqueued changed available | full opened queued full changed available =>
      have both := changed.eased.trans eased (by simp)
      constructor
      · exact both.list
      · exact both.asked
      · exact fun j member => both.finished j (List.mem_append_left _ member)
      · exact fun j other => both.same j (by simpa using other)
      · exact both.stored
  · simp only [Acquired.ready.injEq] at balance
    omega

theorem Released.passes (wf : s.WellFormed) (none : s.balance = 0)
    (asked : ∀ i ∈ s.waiters.list, (s.acquires i).numPermits = 1) (released : Released s 1 served rest t wakers) :
    (∀ i later, s.waiters.list = i :: later → 0 < t.assigned i ∧ wakers = (s.acquires i).node.waker.toList) ∧
    (s.waiters.list = [] → t.availablePermits = 1) := by
  have wf' := released.wellFormed wf
  have split := released.split
  have nodup := wf.nodup
  rw [split] at nodup
  have balance := released.balance
  rw [none] at balance
  unfold Semaphore.balance at none balance
  have empty (i : Nat) : (s.acquires i).held = 0 := by
    by_cases made : i < s.created
    · have sum : s.heldSum = 0 := by omega
      exact (Finset.sum_eq_zero_iff.mp sum) i (Finset.mem_range.mpr made)
    · simp [Acquire.held, wf.done i (wf.unmade i (by omega))]
  have one (i : Nat) (member : i ∈ served) : (t.acquires i).held = 1 := by
    have listed : i ∈ s.waiters.list := by
      rw [split]
      exact List.mem_append_left rest member
    rw [released.full i member]
    simp [Acquire.held, (wf.waiting i listed).2.1, asked i listed]
  have unserved (i : Nat) (apart : i ∉ served) : (t.acquires i).held = 0 := by
    rcases released.cases i with kept | ⟨member, _⟩ | ⟨first, missing, some, most, front⟩
    · rw [kept, empty]
    · exact absurd member apart
    · have listed : i ∈ s.waiters.list := by
        rw [split]
        exact List.mem_append_right served (List.mem_of_head? first)
      rw [front]
      simp only [Acquire.held, asked i listed]
      split <;> omega
  constructor
  · intro i later list
    cases served with
    | nil =>
      have waits : rest ≠ [] := by
        rw [List.nil_append] at split
        rw [← split, list]
        exact List.cons_ne_nil i later
      have sum : t.heldSum = 0 := Finset.sum_eq_zero fun j _ => unserved j (by simp)
      have busy := released.busy waits
      omega
    | cons j others =>
      obtain rfl : i = j := by
        rw [list] at split
        exact (List.cons.inj split).1
      have first := one i (by simp)
      refine ⟨by rw [assigned_eq wf']; omega, ?_⟩
      rw [released.wakers]
      cases others with
      | nil => cases stored : (s.acquires i).node.waker <;> simp [stored]
      | cons k others =>
        have apart : i ≠ k := by
          rintro rfl
          simp at nodup
        have two := held_twice wf' apart first.ge (one k (by simp)).ge
        omega
  · intro list
    rw [list] at split
    have nobody : served = [] := (List.append_eq_nil_iff.mp split.symm).1
    have sum : t.heldSum = 0 := Finset.sum_eq_zero fun j _ => unserved j (by simp [nobody])
    omega

end Easing

end Semaphore

namespace OnceCell

variable {m t : OnceCell T W} {s : Semaphore W} {c : Nat} {call : OnceCall} {gone : List Nat}

section Soundness

/-- Where the one permit is. -/
inductive Permit (m : OnceCell T W) : Prop where
  -- with the semaphore, or assigned to a call that waits for it
  | there : m.valueSet = false → m.semaphore.balance = 1 → (∀ c, m.calls c ≠ .initialising) → Permit m
  | taken (c : Nat) : m.valueSet = false → m.semaphore.balance = 0 → (∀ d, m.calls d = .initialising ↔ d = c) →
      Permit m
  -- forgotten
  | gone : m.valueSet = true → m.semaphore.balance = 0 → (∀ c, m.calls c ≠ .initialising) → Permit m

structure Sound (m : OnceCell T W) : Prop where
  wellFormed : m.semaphore.WellFormed
  present : m.value.isSome = m.valueSet
  closed : m.semaphore.isClosed = m.valueSet
  permit : Permit m
  waits : ∀ c i, m.calls c = .acquiring i → (m.semaphore.acquires i).completed = false ∧
    (m.semaphore.acquires i).numPermits = 1
  own : ∀ c d i, m.calls c = .acquiring i → m.calls d = .acquiring i → c = d
  owned : ∀ i, (m.semaphore.acquires i).queued = true → ∃ c, m.calls c = .acquiring i
  -- The Acquires are queued in the order in which they are made.
  turn : m.semaphore.waiters.list.Pairwise (· < ·)
  unmade : ∀ c, m.made ≤ c → m.calls c = .finished

def Queued (m : OnceCell T W) : Prop := ∀ c i, m.calls c = .acquiring i → (m.semaphore.acquires i).queued = true

structure Goes (m t : OnceCell T W) (gone : List Nat) : Prop where
  eased : m.semaphore.Eased t.semaphore gone
  calls : ∀ d i, t.calls d = .acquiring i ↔ m.calls d = .acquiring i ∧ i ∉ gone
  finished : ∀ d, m.calls d = .finished → t.calls d = .finished
  called : ∀ d, t.calls d = .called → m.calls d = .called
  made : t.made = m.made

theorem Goes.sound (goes : Goes m t gone) (sound : Sound m) (wf : t.semaphore.WellFormed)
    (present : t.value.isSome = t.valueSet) (closed : t.semaphore.isClosed = t.valueSet) (permit : Permit t) :
    Sound t := by
  constructor
  · exact wf
  · exact present
  · exact closed
  · exact permit
  · intro d i waiting
    obtain ⟨before, kept⟩ := (goes.calls d i).mp waiting
    rw [(goes.eased.same i kept).2, goes.eased.asked]
    exact sound.waits d i before
  · intro d e i first second
    exact sound.own d e i ((goes.calls d i).mp first).1 ((goes.calls e i).mp second).1
  · intro i queued
    have kept : i ∉ gone := by
      intro member
      rw [goes.eased.finished i member] at queued
      exact absurd queued (by decide)
    rw [(goes.eased.same i kept).1] at queued
    obtain ⟨d, waiting⟩ := sound.owned i queued
    exact ⟨d, (goes.calls d i).mpr ⟨waiting, kept⟩⟩
  · exact sound.turn.sublist goes.eased.list
  · intro d beyond
    rw [goes.made] at beyond
    exact goes.finished d (sound.unmade d beyond)

theorem Goes.queued (goes : Goes m t gone)
    (queued : ∀ d i, m.calls d = .acquiring i → i ∉ gone → (m.semaphore.acquires i).queued = true) : Queued t := by
  intro d i waiting
  obtain ⟨before, kept⟩ := (goes.calls d i).mp waiting
  rw [(goes.eased.same i kept).1]
  exact queued d i before kept

theorem Permit.same (permit : Permit m) (valueSet : t.valueSet = m.valueSet)
    (balance : t.semaphore.balance = m.semaphore.balance)
    (initialising : ∀ d, t.calls d = .initialising ↔ m.calls d = .initialising) : Permit t := by
  cases permit with
  | there unset one idle =>
    exact .there (valueSet.trans unset) (balance.trans one) fun d => (initialising d).not.mpr (idle d)
  | taken c unset none only =>
    exact .taken c (valueSet.trans unset) (balance.trans none) fun d => (initialising d).trans (only d)
  | gone set none idle =>
    exact .gone (valueSet.trans set) (balance.trans none) fun d => (initialising d).not.mpr (idle d)

theorem Sound.small (sound : Sound m) : m.semaphore.balance + 1 < MAX_PERMIT := by
  have bound : 2 < MAX_PERMIT := by decide
  cases sound.permit with
  | there unset one idle => omega
  | taken c unset none only => omega
  | gone set none idle => omega

theorem Sound.initialising (sound : Sound m) (runs : m.calls c = .initialising) :
    m.valueSet = false ∧ m.semaphore.balance = 0 ∧ ∀ d, m.calls d = .initialising ↔ d = c := by
  cases sound.permit with
  | there unset one idle => exact absurd runs (idle c)
  | taken d unset none only =>
    obtain rfl := (only c).mp runs
    exact ⟨unset, none, only⟩
  | gone set none idle => exact absurd runs (idle c)

theorem setCall_calls (sound : Sound m) (leaves : call = .initialising ∨ call = .finished)
    (own : ∀ i, m.calls c = .acquiring i ↔ i ∈ gone) (d i : Nat) :
    Function.update m.calls c call d = .acquiring i ↔ m.calls d = .acquiring i ∧ i ∉ gone := by
  by_cases same : d = c
  · rw [same, Function.update_self]
    constructor
    · intro waiting
      rcases leaves with rfl | rfl <;> simp at waiting
    · rintro ⟨waiting, kept⟩
      exact absurd ((own i).mp waiting) kept
  · rw [Function.update_of_ne same]
    refine ⟨fun waiting => ⟨waiting, fun member => same ?_⟩, And.left⟩
    exact sound.own d c i waiting ((own i).mpr member)

theorem setCall_finished (left : m.calls c ≠ .finished) (d : Nat) (finished : m.calls d = .finished) :
    Function.update m.calls c call d = .finished := by
  rw [Function.update_of_ne]
  · exact finished
  · rintro rfl
    exact left finished

theorem setCall_called (leaves : call = .initialising ∨ call = .finished) (d : Nat)
    (called : Function.update m.calls c call d = .called) : m.calls d = .called := by
  rw [Function.update_apply] at called
  split at called
  next => rcases leaves with rfl | rfl <;> simp at called
  next => exact called

theorem Sound.goes (sound : Sound m) (left : m.calls c ≠ .finished) (leaves : call = .initialising ∨ call = .finished)
    (own : ∀ i, m.calls c = .acquiring i ↔ i ∈ gone) (eased : m.semaphore.Eased s gone) (value : Option T)
    (valueSet : Bool) :
    Goes m { m with value := value, valueSet := valueSet, semaphore := s, calls := Function.update m.calls c call }
      gone :=
  ⟨eased, setCall_calls sound leaves own, setCall_finished left, setCall_called leaves, rfl⟩

end Soundness

section Operations

variable {i : Nat} {waker : W} {a : OnceAction T W} {answer : OnceAnswer T} {wakers : List W}

inductive Reached (m t : OnceCell T W) (c i : Nat) (waker : W) : OnceAnswer T → Prop where
  | waits : (m.semaphore.acquires i).held = 0 → t.calls = m.calls → t.made = m.made →
      (t.semaphore.acquires i).queued = true →
      (t.semaphore.acquires i).node.waker = some waker →
      (∀ j, j ≠ i → t.semaphore.acquires j = m.semaphore.acquires j) →
      (∀ j ∈ t.semaphore.waiters.list, j ∈ m.semaphore.waiters.list ∨ j = i) → Reached m t c i waker .pending
  | begins : Goes m t [i] → t.calls c = .initialising → Reached m t c i waker .begun
  | finds (value : T) : (m.semaphore.acquires i).held = 0 → Goes m t [i] → t.value = some value →
      Reached m t c i waker (.value value)

theorem Sound.held_none (sound : Sound m) (none : m.semaphore.balance = 0) (i : Nat) :
    (m.semaphore.acquires i).held = 0 := by
  have wf := sound.wellFormed
  unfold Semaphore.balance at none
  by_cases made : i < m.semaphore.created
  · have sum : m.semaphore.heldSum = 0 := by omega
    exact (Finset.sum_eq_zero_iff.mp sum) i (Finset.mem_range.mpr made)
  · simp [Acquire.held, wf.done i (wf.unmade i (by omega))]

theorem Sound.value_iff (sound : Sound m) : m.valueSet = true ↔ ∃ value, m.value = some value := by
  rw [← sound.present, Option.isSome_iff_exists]

theorem Sound.empty (sound : Sound m) (unset : m.valueSet = false) : m.value = none := by
  have present := sound.present
  rw [unset] at present
  simpa using present

theorem Sound.set_balance (sound : Sound m) (set : m.valueSet = true) : m.semaphore.balance = 0 := by
  cases sound.permit with
  | there unset one idle => exact absurd set (by simp [unset])
  | taken c unset none only => exact none
  | gone set none idle => exact none

theorem polled_sound (sound : Sound m) (waiting : m.calls c = .acquiring i)
    (last : (m.semaphore.acquires i).queued = false → ∀ j ∈ m.semaphore.waiters.list, j < i)
    (polled : m.semaphore.Polled s i waker .pending) :
    Sound { m with semaphore := s } ∧ Reached m { m with semaphore := s } c i waker .pending := by
  obtain ⟨unfinished, asked⟩ := sound.waits c i waiting
  have wf := sound.wellFormed
  have follows := polled.follows wf unfinished
  have balance : s.balance = m.semaphore.balance := by simpa using polled.balance wf.formed unfinished
  have attended := polled.attended wf
  obtain ⟨a, list, changed, queued, going, order, unheld⟩ : ∃ a list, m.semaphore.Changed i a list s ∧
      a.completed = false ∧ (∀ j ∈ list, j ∈ m.semaphore.waiters.list ∨ j = i) ∧ list.Pairwise (· < ·) ∧
      (m.semaphore.acquires i).held = 0 := by
    cases polled with
    | waiting opened listed changed available =>
      have missing := (wf.waiting i listed).2.2.1
      refine ⟨_, _, changed, unfinished, fun j member => .inl member, sound.turn, ?_⟩
      simp only [Acquire.held, asked]
      split <;> omega
    | joined opened unqueued short changed available =>
      refine ⟨_, _, changed, unfinished, ?_, ?_, by simp [Acquire.held, unqueued]⟩
      · intro j member
        simpa using member
      · rw [List.pairwise_append]
        exact ⟨sound.turn, List.pairwise_singleton _ i, fun j member k same => by
          rw [List.mem_singleton.mp same]
          exact last unqueued j member⟩
  have waiters : s.waiters.list = list := by rw [changed.waiters]
  constructor
  · constructor
    · exact follows.wellFormed
    · exact sound.present
    · exact follows.closed.trans sound.closed
    · exact sound.permit.same rfl balance fun _ => Iff.rfl
    · intro d j other
      refine ⟨?_, (follows.asked j).trans (sound.waits d j other).2⟩
      change (s.acquires j).completed = false
      rw [changed.apply]
      split
      next => exact queued
      next => exact (sound.waits d j other).1
    · exact sound.own
    · intro j queued
      by_cases same : j = i
      · exact ⟨c, same ▸ waiting⟩
      · change (s.acquires j).queued = true at queued
        rw [changed.apply, if_neg same] at queued
        exact sound.owned j queued
    · change s.waiters.list.Pairwise _
      rw [waiters]
      exact order
    · exact sound.unmade
  · refine .waits unheld rfl rfl attended.1 attended.2.2 ?_ ?_
    · intro j other
      exact (changed.apply j).trans (if_neg other)
    · intro j listed
      exact going j (waiters ▸ listed)

theorem pollAcquire_ok [Wakers W] (sound : Sound m) (waiting : m.calls c = .acquiring i)
    (last : (m.semaphore.acquires i).queued = false → ∀ j ∈ m.semaphore.waiters.list, j < i) (waker : W) :
    ∃ answer t wakers, m.pollAcquire c i waker = .ok (answer, t, wakers) ∧ Sound t ∧ t.value = m.value ∧
      Reached m t c i waker answer := by
  obtain ⟨unfinished, asked⟩ := sound.waits c i waiting
  have wf := sound.wellFormed
  have small := sound.small
  have left : m.calls c ≠ .finished := by simp [waiting]
  have own (j : Nat) : m.calls c = .acquiring j ↔ j ∈ [i] := by
    rw [waiting, List.mem_singleton, OnceCall.acquiring.injEq]
    exact eq_comm
  obtain ⟨result, s, ran, polled⟩ := Semaphore.poll_polled wf unfinished waker
  unfold pollAcquire
  rw [ran]
  cases result with
  | pending =>
    obtain ⟨sound', reached⟩ := polled_sound sound waiting last polled
    exact ⟨_, _, _, rfl, sound', rfl, reached⟩
  | ready result =>
    obtain ⟨u, wakers, dropped, follows, eased, balance⟩ := polled.done wf unfinished (by omega)
    simp only [dropped]
    cases result with
    | ok granted =>
      have taken : u.balance + 1 = m.semaphore.balance := by simpa [asked] using balance
      obtain ⟨unset, one, idle⟩ : m.valueSet = false ∧ m.semaphore.balance = 1 ∧ ∀ d, m.calls d ≠ .initialising := by
        cases sound.permit with
        | there unset one idle => exact ⟨unset, one, idle⟩
        | taken d unset none only | gone set none idle => omega
      have goes : Goes m ({ m with semaphore := u }.setCall c .initialising) [i] :=
        sound.goes left (by simp) own eased m.value m.valueSet
      have empty : ¬initialized { m with semaphore := u } = true := by simp [initialized, unset]
      rw [if_neg empty]
      refine ⟨_, _, _, rfl, goes.sound sound follows.wellFormed sound.present (follows.closed.trans sound.closed) ?_,
        rfl, .begins goes (Function.update_self ..)⟩
      refine .taken c unset (by change u.balance = 0; omega) fun d => ?_
      change Function.update m.calls c .initialising d = _ ↔ _
      by_cases same : d = c
      · simp [same]
      · simp [idle d, same]
    | error refused =>
      have closed : m.semaphore.isClosed = true := by
        cases polled with
        | closed closed same => exact closed
      have set : m.valueSet = true := by rw [← sound.closed, closed]
      obtain ⟨value, stored⟩ := sound.value_iff.mp set
      have goes : Goes m ({ m with semaphore := u }.setCall c .finished) [i] :=
        sound.goes left (by simp) own eased m.value m.valueSet
      have same : u.balance = m.semaphore.balance := by simpa using balance
      have full : initialized { m with semaphore := u } = true := set
      have found : getUnchecked { m with semaphore := u } = .ok value := by simp [getUnchecked, stored]
      dsimp only
      rw [if_pos full, found]
      refine ⟨.value value, _, _, rfl, ?_, rfl, .finds value (sound.held_none (sound.set_balance set) i) goes stored⟩
      apply goes.sound sound follows.wellFormed sound.present (follows.closed.trans sound.closed)
      refine sound.permit.same rfl same fun d => ?_
      change Function.update m.calls c .finished d = _ ↔ _
      by_cases here : d = c
      · simp [here, waiting]
      · rw [Function.update_of_ne here]

theorem called_sound (sound : Sound m) (called : m.calls c = .called) :
    Sound ({ m with semaphore := m.semaphore.acquire 1 }.setCall c (.acquiring m.semaphore.created)) := by
  have one : 1 ≤ MAX_PERMIT := by decide
  have wf := sound.wellFormed
  have older (d i : Nat) (waiting : m.calls d = .acquiring i) : i ≠ m.semaphore.created :=
    (Semaphore.made_of wf.formed (sound.waits d i waiting).1).ne
  have unmade : c < m.made := by
    by_contra beyond
    rw [sound.unmade c (by omega)] at called
    exact absurd called (by simp)
  have calls (d i : Nat) : Function.update m.calls c (.acquiring m.semaphore.created) d = .acquiring i →
      d = c ∧ i = m.semaphore.created ∨ d ≠ c ∧ m.calls d = .acquiring i := by
    intro waiting
    by_cases same : d = c
    · rw [same, Function.update_self, OnceCall.acquiring.injEq] at waiting
      exact .inl ⟨same, waiting.symm⟩
    · rw [Function.update_of_ne same] at waiting
      exact .inr ⟨same, waiting⟩
  constructor
  · exact Semaphore.acquire_wellFormed wf one
  · exact sound.present
  · exact sound.closed
  · refine sound.permit.same rfl (Semaphore.acquire_balance m.semaphore 1) fun d => ?_
    change Function.update m.calls c _ d = _ ↔ _
    by_cases same : d = c
    · simp [same, called]
    · rw [Function.update_of_ne same]
  · intro d i waiting
    change ((m.semaphore.acquire 1).acquires i).completed = false ∧ ((m.semaphore.acquire 1).acquires i).numPermits = 1
    rw [Semaphore.acquire_acquires]
    rcases calls d i waiting with ⟨_, rfl⟩ | ⟨_, before⟩
    · rw [if_pos rfl]
      exact ⟨rfl, rfl⟩
    · rw [if_neg (older d i before)]
      exact sound.waits d i before
  · intro d e i first second
    rcases calls d i first with ⟨rfl, new⟩ | ⟨_, before⟩
    · rcases calls e i second with ⟨rfl, _⟩ | ⟨_, before'⟩
      · rfl
      · exact absurd new (older e i before')
    · rcases calls e i second with ⟨rfl, new⟩ | ⟨_, before'⟩
      · exact absurd new (older d i before)
      · exact sound.own d e i before before'
  · intro i queued
    change ((m.semaphore.acquire 1).acquires i).queued = true at queued
    rw [Semaphore.acquire_acquires] at queued
    split at queued
    next => exact absurd queued (by simp [Acquire.new])
    next =>
      obtain ⟨d, waiting⟩ := sound.owned i queued
      refine ⟨d, ?_⟩
      change Function.update m.calls c _ d = _
      rw [Function.update_of_ne]
      · exact waiting
      · rintro rfl
        simp [called] at waiting
  · exact sound.turn
  · intro d beyond
    change Function.update m.calls c _ d = _
    rw [Function.update_of_ne]
    · exact sound.unmade d beyond
    · rintro rfl
      exact absurd unmade (by change m.made ≤ d at beyond; omega)

theorem shut_sound (sound : Sound m) {u : Semaphore W} (wf : s.WellFormed) (none : s.balance = 0)
    (eased : m.semaphore.Eased s []) (shut : s.Shut u wakers) {calls : Nat → OnceCall}
    (own : ∀ d i, calls d = .acquiring i ↔ m.calls d = .acquiring i) (finished : ∀ d, m.calls d = .finished → calls d = .finished)
    (called : ∀ d, calls d = .called → m.calls d = .called) (idle : ∀ d, calls d ≠ .initialising) (value : T) :
    Goes m { m with value := some value, valueSet := true, semaphore := u, calls := calls } [] ∧
    Sound { m with value := some value, valueSet := true, semaphore := u, calls := calls } := by
  have goes : Goes m { m with value := some value, valueSet := true, semaphore := u, calls := calls } [] :=
    ⟨eased.trans shut.eased (by simp), by simpa using own, finished, called, rfl⟩
  refine ⟨goes, goes.sound sound (shut.wellFormed wf) rfl shut.closed ?_⟩
  exact .gone rfl (shut.balance.trans none) idle

theorem setValue_ok (wf : m.semaphore.WellFormed) (value : T) :
    ∃ u wakers, m.setValue value = .ok (value, { m with value := some value, valueSet := true, semaphore := u }, wakers) ∧
      m.semaphore.Shut u wakers :=
  ⟨_, _, rfl, Semaphore.close_shut wf.formed⟩

theorem giveUp_ok (sound : Sound m) (runs : m.calls c = .initialising) :
    ∃ u wakers served rest, m.giveUp c = .ok ({ m with semaphore := u }.setCall c .finished, wakers) ∧
      m.semaphore.Released 1 served rest u wakers ∧ Goes m ({ m with semaphore := u }.setCall c .finished) [] ∧
      Sound ({ m with semaphore := u }.setCall c .finished) := by
  have wf := sound.wellFormed
  obtain ⟨unset, none, only⟩ := sound.initialising runs
  obtain ⟨served, rest, u, wakers, ran, released⟩ := Semaphore.release_released 1 wf sound.small
  have goes : Goes m ({ m with semaphore := u }.setCall c .finished) [] :=
    sound.goes (by simp [runs]) (by simp) (by simp [runs]) (released.eased wf) m.value m.valueSet
  have balance := released.balance
  refine ⟨u, wakers, served, rest, by rw [giveUp, ran], released, goes, ?_⟩
  apply goes.sound sound (released.wellFormed wf) sound.present (released.closed.trans sound.closed)
  refine .there unset (by change u.balance = 1; omega) fun d => ?_
  change Function.update m.calls c .finished d ≠ _
  by_cases same : d = c
  · simp [same]
  · rw [Function.update_of_ne same]
    exact (only d).not.mpr same

theorem dropAcquire_ok (sound : Sound m) {i : Nat} (waiting : m.calls c = .acquiring i) :
    ∃ u wakers served rest, m.semaphore.dropAcquire i = .ok (u, wakers) ∧
      (m.semaphore.cancelled i).Released (m.semaphore.acquires i).held served rest u wakers ∧
      Goes m ({ m with semaphore := u }.setCall c .finished) [i] ∧ Sound ({ m with semaphore := u }.setCall c .finished) := by
  have wf := sound.wellFormed
  have small := sound.small
  have made := Semaphore.made_of wf.formed (sound.waits c i waiting).1
  have back := Semaphore.cancelled_balance made
  have own (j : Nat) : m.calls c = .acquiring j ↔ j ∈ [i] := by
    rw [waiting, List.mem_singleton, OnceCall.acquiring.injEq]
    exact eq_comm
  obtain ⟨served, rest, u, wakers, ran, released⟩ := Semaphore.dropAcquire_released wf made (by omega)
  have balance := released.balance
  have goes : Goes m ({ m with semaphore := u }.setCall c .finished) [i] :=
    sound.goes (by simp [waiting]) (by simp) own (Semaphore.dropped_eased wf released) m.value m.valueSet
  have follows := Semaphore.dropped_follows wf released
  refine ⟨u, wakers, served, rest, ran, released, goes, ?_⟩
  apply goes.sound sound follows.wellFormed sound.present (follows.closed.trans sound.closed)
  refine sound.permit.same rfl (by change u.balance = _; omega) fun d => ?_
  change Function.update m.calls c .finished d = _ ↔ _
  by_cases same : d = c
  · simp [same, waiting]
  · rw [Function.update_of_ne same]

end Operations

end OnceCell

end Osaka.Sync
