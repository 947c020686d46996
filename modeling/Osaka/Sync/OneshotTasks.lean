import Osaka.Sync.OneshotRuns

set_option autoImplicit false

namespace Osaka.Sync.Oneshot

open GuardedCell Transitions

variable {T W : Type} {s : Oneshot T W} {j : Journal T W}

section Waking

theorem Kept.rxWoken {waker : W} (kept : Kept s j) (asked : j.rx.asked = some waker)
    (decided : s.tx.undecided = false) : s.tx.waking = true ∨ waker ∈ j.rx.read ∨ j.decided = some true ∧ j.closed = true := by
  cases outcome : j.decided with
  | none =>
    rw [kept.sound.undecided.mpr outcome] at decided
    cases decided
  | some refused =>
    cases refused with
    | true => exact .inr (.inr ⟨rfl, kept.sound.refused outcome⟩)
    | false =>
      rcases kept.rx.told waker asked (kept.sound.complete.mpr outcome) with waking | woken
      · exact .inl waking
      · exact .inr (.inl woken)

theorem Kept.txWoken {waker : W} (kept : Kept s j) (asked : j.tx.asked = some waker) (closed : j.closed = true) :
    s.rx.waking = true ∨ waker ∈ j.tx.read ∨ j.decided = some false := by
  cases complete : State.has s.state .valueSent with
  | true => exact .inr (.inr (kept.sound.complete.mp complete))
  | false =>
    have done : s.txView.done = true := by simp [txView, complete, kept.sound.closed, closed]
    rcases kept.tx.told waker asked done with waking | woken
    · exact .inl waking
    · exact .inr (.inl woken)

variable [Wakers W]

/-- The tasks are used only while they are set, dropped once each, and no wakeup is lost. -/
theorem tasks_guarded (reached : (journaled T W).Reachable (s, j)) :
    -- a task is set only while there is one, and nothing is read, woken or dropped that is not there
    (s.freed = false → (s.state.isRxTaskSet = true → s.rxTask.isSome = true) ∧
      (s.state.isTxTaskSet = true → s.txTask.isSome = true)) ∧
    (∀ a fault, s.step a ≠ .failed fault) ∧
    -- what has been stored is still there, or has been dropped once, and is not there when the channel has been dropped
    (j.rx.written = j.rx.dropped ++ s.rxTask.toList ∧ j.tx.written = j.tx.dropped ++ s.txTask.toList) ∧
    (s.freed = true → s.rxTask = none ∧ s.txTask = none) ∧
    -- whoever waits is woken by the other party
    (∀ waker, j.rx.asked = some waker → s.tx.undecided = false →
      s.tx.waking = true ∨ waker ∈ j.rx.read ∨ j.decided = some true ∧ j.closed = true) ∧
    ∀ waker, j.tx.asked = some waker → j.closed = true →
      s.rx.waking = true ∨ waker ∈ j.tx.read ∨ j.decided = some false := by
  have kept := reachable_kept reached
  refine ⟨?_, fun a fault => step_sound reached.of_observed a fault, ⟨kept.rx.balanced, kept.tx.balanced⟩,
    fun freed => (kept.sound.emptied freed).2, fun waker asked decided => kept.rxWoken asked decided,
    fun waker asked closed => kept.txWoken asked closed⟩
  intro alive
  obtain ⟨rx, tx⟩ := kept.guarded alive
  exact ⟨rx.flagged, tx.flagged⟩

/-- The receiver waits with one waker and then with another, and the sender is dropped. -/
def exampleWaking : List (OneshotAction Unit Nat) :=
  .poll 7 :: List.replicate 3 .stepReceiver ++ .poll 8 :: List.replicate 6 .stepReceiver ++
    .dropSender :: List.replicate 3 (.stepSender false)

theorem exampleWaking_asked : ((journaled Unit Nat).run (channel, .first) exampleWaking).map
    (fun r => (r.2.rx.asked, r.1.tx.undecided, r.1.tx.waking, r.2.closed)) = some (some 8, false, false, false) := by
  decide +kernel

theorem tasks_guarded_run : ∃ j : Journal Unit Nat, 8 ∈ j.rx.read := by
  obtain ⟨⟨s, j⟩, ran, facts⟩ := Option.map_eq_some_iff.mp exampleWaking_asked
  simp only [Prod.mk.injEq] at facts
  obtain ⟨asked, decided, waking, closed⟩ := facts
  have start : (journaled Unit Nat).Reachable (channel, .first) := .initial ⟨rfl, rfl⟩
  obtain ⟨_, _, _, _, woken, _⟩ := tasks_guarded (System.reachable_run _ start ran)
  rcases woken 8 asked decided with still | read | ⟨_, shut⟩
  · rw [waking] at still
    cases still
  · exact ⟨j, read⟩
  · rw [closed] at shut
    cases shut

/-- The receiver waits and then closes, and the sender, which sends after that, does not wake it. -/
theorem closed_not_woken : ∃ (s : Oneshot Nat Nat) (j : Journal Nat Nat), (journaled Nat Nat).Reachable (s, j) ∧
    j.rx.asked = some 7 ∧ j.passed = [5] ∧ s.tx.holds = false ∧ j.rx.read = [] := by
  have ran : ((journaled Nat Nat).run (channel, .first)
      (.poll 7 :: List.replicate 3 .stepReceiver ++ .close :: .stepReceiver :: .send 5 ::
        List.replicate 4 (.stepSender false))).map
      (fun r => (r.2.rx.asked, r.2.passed, r.1.tx.holds, r.2.rx.read)) = some (some 7, [5], false, []) := by
    decide +kernel
  obtain ⟨⟨s, j⟩, ran, facts⟩ := Option.map_eq_some_iff.mp ran
  simp only [Prod.mk.injEq] at facts
  have start : (journaled Nat Nat).Reachable (channel, .first) := .initial ⟨rfl, rfl⟩
  exact ⟨s, j, System.reachable_run _ start ran, facts⟩

end Waking

end Osaka.Sync.Oneshot
