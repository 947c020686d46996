import Osaka.Sync.BroadcastRing

set_option autoImplicit false

namespace Osaka.Sync.Broadcast

open Transitions

variable {T W : Type} {s t : Broadcast T W} {r : Nat} {sent : List T} {cursor : Nat → Nat}

section Waiters

structure Listed (s : Broadcast T W) : Prop where
  nodup : s.tail.waiters.Nodup
  listed : ∀ r ∈ s.tail.waiters, (s.receivers r).dropped = false ∧ (s.receivers r).borrowed = true ∧
    (s.receivers r).waiter.queued = true ∧ (s.receivers r).waiter.waker ≠ none
  unlisted : ∀ r, (s.receivers r).waiter.queued = true → r ∈ s.tail.waiters

theorem Listed.idle (listed : Listed s) (idle : (s.receivers r).borrowed = false) :
    (s.receivers r).waiter.queued = false ∧ r ∉ s.tail.waiters := by
  have unlisted : r ∉ s.tail.waiters := by
    intro member
    rw [(listed.listed r member).2.1] at idle
    exact absurd idle (by decide)
  refine ⟨?_, unlisted⟩
  by_contra queued
  exact unlisted (listed.unlisted r (by simpa using queued))

structure Notified (s t : Broadcast T W) (wakers : List W) : Prop where
  alike : Alike s t
  rxCnt : t.tail.rxCnt = s.tail.rxCnt
  numTx : t.numTx = s.numTx
  waiters : t.tail.waiters = []
  woken : ∀ r ∈ s.tail.waiters, t.receivers r = { s.receivers r with waiter := ⟨false, none⟩ }
  kept : ∀ r, r ∉ s.tail.waiters → t.receivers r = s.receivers r
  wakers : wakers = s.tail.waiters.filterMap fun r => (s.receivers r).waiter.waker

theorem notifyRx_ok {list : List Nat} (nodup : list.Nodup)
    (queued : ∀ r ∈ list, (s.receivers r).waiter.queued = true ∧ (s.receivers r).waiter.waker ≠ none) :
    ∃ t, s.notifyRx list = .ok (t, list.filterMap fun r => (s.receivers r).waiter.waker) ∧ Alike s t ∧
      t.tail.rxCnt = s.tail.rxCnt ∧ t.numTx = s.numTx ∧ t.tail.waiters = [] ∧
      (∀ r ∈ list, t.receivers r = { s.receivers r with waiter := ⟨false, none⟩ }) ∧
      ∀ r, r ∉ list → t.receivers r = s.receivers r := by
  induction list generalizing s with
  | nil => exact ⟨_, rfl, ⟨rfl, rfl, rfl, rfl, rfl, rfl, fun _ => rfl, fun _ => rfl⟩, rfl, rfl, rfl, by simp, fun _ _ => rfl⟩
  | cons i rest ih =>
    obtain ⟨fresh, nodup⟩ := List.nodup_cons.mp nodup
    let u := s.setReceiver i { s.receivers i with waiter := ⟨false, none⟩ }
    have others (r : Nat) (other : r ≠ i) : u.receivers r = s.receivers r := Function.update_of_ne other _ _
    have self : u.receivers i = { s.receivers i with waiter := ⟨false, none⟩ } := Function.update_self ..
    have apart (r : Nat) (member : r ∈ rest) : r ≠ i := fun same => fresh (same ▸ member)
    have alike : Alike s u := by
      refine ⟨rfl, rfl, rfl, rfl, rfl, rfl, ?_, ?_⟩
      all_goals
        intro r
        by_cases same : r = i
        · rw [same, self]
        · rw [others r same]
    obtain ⟨first, stored⟩ := queued i (by simp)
    obtain ⟨waker, given⟩ := Option.ne_none_iff_exists'.mp stored
    obtain ⟨t, ran, alike', rxCnt, numTx, waiters, woken, kept⟩ := ih (s := u) nodup (by
      intro r member
      rw [others r (apart r member)]
      exact queued r (List.mem_cons_of_mem i member))
    refine ⟨t, ?_, alike.trans alike', rxCnt, numTx, waiters, ?_, ?_⟩
    · have same : rest.filterMap (fun r => (u.receivers r).waiter.waker) =
          rest.filterMap fun r => (s.receivers r).waiter.waker := by
        apply List.filterMap_congr
        intro r member
        rw [others r (apart r member)]
      simp only [notifyRx, first, given, if_true]
      change (u.notifyRx rest).map _ = _
      rw [ran, same]
      simp [Except.map, given]
    · intro r member
      rcases List.mem_cons.mp member with rfl | later
      · rw [kept r fresh, self]
      · rw [woken r later, others r (apart r later)]
    · intro r outside
      rw [List.mem_cons, not_or] at outside
      rw [kept r outside.2, others r outside.1]

theorem notifyRx_notified (listed : Listed s) :
    ∃ t wakers, s.notifyRx s.tail.waiters = .ok (t, wakers) ∧ Notified s t wakers := by
  obtain ⟨t, ran, alike, rxCnt, numTx, waiters, woken, kept⟩ :=
    notifyRx_ok listed.nodup fun r member => (listed.listed r member).2.2
  exact ⟨t, _, ran, alike, rxCnt, numTx, waiters, woken, kept, rfl⟩

theorem Notified.listed {wakers : List W} (listed : Listed s) (notified : Notified s t wakers) : Listed t := by
  constructor
  · rw [notified.waiters]
    exact List.nodup_nil
  · simp [notified.waiters]
  · intro r queued
    by_cases member : r ∈ s.tail.waiters
    · rw [notified.woken r member] at queued
      exact absurd queued (by simp)
    · rw [notified.kept r member] at queued
      exact absurd (listed.unlisted r queued) member

end Waiters

section Registering

structure Rewaited (s t : Broadcast T W) (r : Nat) (borrowed : Bool) (waiter : Waiter W) (waiters : List Nat) :
    Prop where
  alike : Alike s t
  rxCnt : t.tail.rxCnt = s.tail.rxCnt
  numTx : t.numTx = s.numTx
  waiters : t.tail.waiters = waiters
  own : t.receivers r = { s.receivers r with borrowed := borrowed, waiter := waiter }
  others : ∀ j, j ≠ r → t.receivers j = s.receivers j

theorem rewaited (s : Broadcast T W) (r : Nat) (borrowed : Bool) (waiter : Waiter W) (waiters : List Nat) :
    Rewaited s
      { s.setReceiver r { s.receivers r with borrowed := borrowed, waiter := waiter } with
        tail := { s.tail with waiters := waiters } } r borrowed waiter waiters := by
  have own : (s.setReceiver r { s.receivers r with borrowed := borrowed, waiter := waiter }).receivers r =
      { s.receivers r with borrowed := borrowed, waiter := waiter } := Function.update_self ..
  have others (j : Nat) (other : j ≠ r) :
      (s.setReceiver r { s.receivers r with borrowed := borrowed, waiter := waiter }).receivers j = s.receivers j :=
    Function.update_of_ne other _ _
  refine ⟨⟨rfl, rfl, rfl, rfl, rfl, rfl, ?_, ?_⟩, rfl, rfl, rfl, own, others⟩
  all_goals
    intro j
    by_cases same : j = r
    · subst same
      dsimp only
      rw [own]
    · dsimp only
      rw [others j same]

variable {borrowed : Bool} {waiter : Waiter W} {waiters : List Nat}

theorem Rewaited.listed (listed : Listed s) (rewaited : Rewaited s t r borrowed waiter waiters)
    (nodup : waiters.Nodup) (others : ∀ j, j ≠ r → (j ∈ waiters ↔ j ∈ s.tail.waiters))
    (own : waiter.queued = true ↔ r ∈ waiters)
    (fit : r ∈ waiters → (s.receivers r).dropped = false ∧ borrowed = true ∧ waiter.waker ≠ none) : Listed t := by
  constructor
  · rw [rewaited.waiters]
    exact nodup
  · intro j member
    rw [rewaited.waiters] at member
    by_cases same : j = r
    · subst same
      obtain ⟨alive, borrows, stored⟩ := fit member
      rw [rewaited.own]
      exact ⟨alive, borrows, own.mpr member, stored⟩
    · rw [rewaited.others j same]
      exact listed.listed j ((others j same).mp member)
  · intro j queued
    rw [rewaited.waiters]
    by_cases same : j = r
    · subst same
      rw [rewaited.own] at queued
      exact own.mp queued
    · rw [rewaited.others j same] at queued
      exact (others j same).mpr (listed.unlisted j queued)

variable [Wakers W]

theorem register_ok (listed : Listed s) (alive : (s.receivers r).dropped = false)
    (borrowed : (s.receivers r).borrowed = true) (waker : W) : ∃ t waiters, s.register r waker = .ok t ∧
      Rewaited s t r true ⟨true, some waker⟩ waiters ∧ r ∈ waiters ∧
      (∀ j, j ≠ r → (j ∈ waiters ↔ j ∈ s.tail.waiters)) ∧ Listed t := by
  have registered : s.register r waker =
      if (s.receivers r).waiter.queued = true then
        .ok (s.setReceiver r { s.receivers r with waiter := ⟨true, some waker⟩ })
      else if s.tail.waiters.getLast? = some r then
        .error .alreadyListed
      else
        .ok
          { s.setReceiver r { s.receivers r with waiter := ⟨true, some waker⟩ } with
            tail := { s.tail with waiters := s.tail.waiters ++ [r] } } := by
    unfold register
    generalize s.receivers r = receiver
    obtain ⟨next, borrowed, ⟨queued, stored⟩, dropped⟩ := receiver
    cases stored with
    | none => rfl
    | some current =>
      by_cases same : Wakers.willWake current waker = true
      · obtain rfl := Wakers.same current waker same
        simp only [same, if_true]
        rfl
      · simp only [same]
        rfl
  have same : ({ s.receivers r with waiter := ⟨true, some waker⟩ } : Receiver W) =
      { s.receivers r with borrowed := true, waiter := ⟨true, some waker⟩ } := by rw [← borrowed]
  rw [registered, same]
  by_cases queued : (s.receivers r).waiter.queued = true
  · rw [if_pos queued]
    have member := listed.unlisted r queued
    have changed := rewaited s r true ⟨true, some waker⟩ s.tail.waiters
    exact ⟨_, _, rfl, changed, member, fun _ _ => Iff.rfl, changed.listed listed listed.nodup (fun _ _ => Iff.rfl)
      (by simp [member]) fun _ => ⟨alive, rfl, by simp⟩⟩
  · have unlisted : r ∉ s.tail.waiters := fun member => queued (listed.listed r member).2.2.1
    have last : s.tail.waiters.getLast? ≠ some r := fun last => unlisted (List.mem_of_getLast? last)
    rw [if_neg queued, if_neg last]
    have changed := rewaited s r true ⟨true, some waker⟩ (s.tail.waiters ++ [r])
    have others (j : Nat) (other : j ≠ r) : j ∈ s.tail.waiters ++ [r] ↔ j ∈ s.tail.waiters := by simp [other]
    refine ⟨_, _, rfl, changed, by simp, others, changed.listed listed ?_ others (by simp)
      fun _ => ⟨alive, rfl, by simp⟩⟩
    exact List.nodup_append.mpr ⟨listed.nodup, by simp, by grind -linarith⟩

omit [Wakers W] in
theorem dropRecv_rewaited (listed : Listed s) (r : Nat) :
    Rewaited s (s.dropRecv r) r false .new (s.tail.waiters.erase r) ∧ Listed (s.dropRecv r) := by
  have changed : Rewaited s (s.dropRecv r) r false .new (s.tail.waiters.erase r) := by
    unfold dropRecv
    dsimp only
    split
    next => exact rewaited s r false .new _
    next unqueued =>
      have unlisted : r ∉ s.tail.waiters := fun member => unqueued (listed.listed r member).2.2.1
      rw [List.erase_of_not_mem unlisted]
      exact rewaited s r false .new s.tail.waiters
  refine ⟨changed, changed.listed listed (listed.nodup.erase r) ?_ ?_ ?_⟩
  · intro j other
    exact List.mem_erase_of_ne other
  · simp [Waiter.new, listed.nodup.not_mem_erase]
  · intro member
    exact absurd member listed.nodup.not_mem_erase

omit [Wakers W] in
theorem newRecv_rewaited (listed : Listed s) (r : Nat) :
    ∃ waiter, Rewaited s (s.newRecv r) r true waiter s.tail.waiters ∧ Listed (s.newRecv r) := by
  unfold newRecv
  split
  next borrowed =>
    refine ⟨(s.receivers r).waiter, ⟨.refl s, rfl, rfl, rfl, ?_, fun _ _ => rfl⟩, listed⟩
    rw [← borrowed]
  next idle =>
    have unlisted := (listed.idle (r := r) (by simpa using idle)).2
    have changed := rewaited s r true .new s.tail.waiters
    refine ⟨.new, changed, changed.listed listed listed.nodup (fun _ _ => Iff.rfl) ?_ ?_⟩
    · simp [Waiter.new, unlisted]
    · intro member
      exact absurd member unlisted

end Registering

end Osaka.Sync.Broadcast
