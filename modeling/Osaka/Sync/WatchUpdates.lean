import Osaka.Sync.WatchRuns

set_option autoImplicit false

namespace Osaka.Sync.Watch

open Transitions

variable {T W : Type} {s t : Watch T W} {j : Journal W} {r c : Nat}

section Reading

theorem Sound.newer_iff (sound : Sound s j) (few : j.increments < 2 ^ 63) (made : r < s.made) :
    (s.receivers r).version ≠ State.version s.state ↔ j.seen r < j.increments := by
  obtain ⟨version, old⟩ := sound.versions r made
  rw [version, sound.state, version_word]
  constructor
  · intro differs
    refine lt_of_le_of_ne old fun same => differs ?_
    rw [same]
  · intro less same
    exact absurd (word_inj (by omega) few same) less.ne

theorem Sound.isClosed_eq (sound : Sound s j) : State.isClosed s.state = !s.sender := by
  rw [sound.state, isClosed_word]

theorem Sound.reads_eq (sound : Sound s j) (few : j.increments < 2 ^ 63) (made : r < s.made) :
    (s.reads r = some (.ok ()) ↔ j.seen r < j.increments) ∧
      (s.reads r = some (.error .closed) ↔ j.seen r = j.increments ∧ s.sender = false) := by
  have old := (sound.versions r made).2
  by_cases newer : j.seen r < j.increments
  · have reads : s.reads r = some (.ok ()) := if_pos ((sound.newer_iff few made).mpr newer)
    simp [reads, newer, newer.ne]
  · have same : j.seen r = j.increments := by omega
    have reads : s.reads r = if State.isClosed s.state then some (.error .closed) else none :=
      if_neg (fun differs => newer ((sound.newer_iff few made).mp differs))
    rw [reads, sound.isClosed_eq]
    cases s.sender <;> simp [same]

theorem Sound.rxHeard {waker : W} (sound : Sound s j) (asked : j.rxAsked r = some waker)
    (told : (s.receivers r).version ≠ State.version s.state ∨ s.sender = false) : waker ∈ j.rxWoken r := by
  obtain ⟨i, waits, attended⟩ := sound.rx.asks r waker asked
  rcases attended with ⟨listed, _⟩ | woken
  · obtain ⟨same, opened⟩ := sound.current r ⟨i, waits, listed⟩
    rcases told with newer | gone
    · exact absurd same newer
    · rw [gone] at opened
      cases opened
  · exact woken

theorem Sound.rxTold {waker : W} (sound : Sound s j) (few : j.increments < 2 ^ 63) (asked : j.rxAsked r = some waker)
    (told : j.seen r < j.increments ∨ s.sender = false) : waker ∈ j.rxWoken r := by
  obtain ⟨i, waits, _⟩ := sound.rx.asks r waker asked
  have alive : (s.receivers r).dropped = false := by
    by_contra dropped
    have idle := sound.idle r (by simpa using dropped)
    change (s.receivers r).changed = some i at waits
    rw [idle] at waits
    cases waits
  exact sound.rxHeard asked (told.imp_left (sound.newer_iff few (sound.alive alive)).mpr)

theorem Sound.gone_iff (sound : Sound s j) : s.refCountRx = 0 ↔ ∀ r, r < s.made → (s.receivers r).dropped = true := by
  rw [sound.counted, Finset.card_eq_zero, Finset.eq_empty_iff_forall_notMem]
  constructor
  · intro none r made
    have absent := none r
    rw [mem_living] at absent
    simpa [made] using absent
  · intro all r member
    obtain ⟨made, alive⟩ := mem_living.mp member
    rw [all r made] at alive
    cases alive

theorem Sound.txTold {waker : W} (sound : Sound s j) (asked : j.txAsked c = some waker)
    (gone : ∀ r, r < s.made → (s.receivers r).dropped = true) : waker ∈ j.txWoken c := by
  obtain ⟨i, waits, attended⟩ := sound.tx.asks c waker asked
  rcases attended with ⟨listed, _⟩ | woken
  · exact absurd (sound.gone_iff.mpr gone) (sound.present c ⟨i, waits, listed⟩)
  · exact woken

end Reading

section Updating

variable [Wakers W]

/-- No update is lost. -/
theorem no_lost_update (reached : (journaled T W).Reachable (s, j)) (few : j.increments < 2 ^ 63) :
    -- changed is ready when there is a version that has not been seen, or the sender is gone, and sees the newest
    (∀ r waker, s.allowed (.pollChanged r waker) = true → ∃ result t wakers,
      s.perform (.pollChanged r waker) = .ok (.changed result, t, wakers) ∧
      (result = some (.ok ()) ↔ j.seen r < j.increments) ∧
      (result = some (.error .closed) ↔ j.seen r = j.increments ∧ s.sender = false) ∧
      (t.receivers r).version = State.version (if j.seen r < j.increments then s.state else (s.receivers r).version)) ∧
    -- the next version, or the drop of the sender, wakes whoever is pending
    (∀ r waker, j.rxAsked r = some waker → j.seen r < j.increments ∨ s.sender = false → waker ∈ j.rxWoken r) ∧
    -- nothing is seen by a call of changed that is cancelled
    (∀ r, s.allowed (.cancelChanged r) = true → ∃ t wakers, s.perform (.cancelChanged r) = .ok (.none, t, wakers) ∧
      t.state = s.state ∧ (t.receivers r).version = (s.receivers r).version) ∧
    -- the versions are those that have been sent and seen
    (State.version s.state = word j.increments false ∧
      ∀ r, r < s.made → (s.receivers r).version = word (j.seen r) false ∧ j.seen r ≤ j.increments) ∧
    -- the drop of the last receiver wakes whoever waits for it
    (∀ c waker, j.txAsked c = some waker → (∀ r, r < s.made → (s.receivers r).dropped = true) → waker ∈ j.txWoken c) ∧
    -- what is not sent changes nothing
    (∀ value, (∀ r, r < s.made → (s.receivers r).dropped = true) →
      s.perform (.send value) = .ok (.sent (.error value), s, [])) ∧
    (∀ modify, modify s.value = (s.value, .unmodified) →
      s.perform (.sendIfModified modify) = .ok (.modified false, s, [])) ∧
    ∀ modify, modify s.value = (s.value, .panicked) → s.perform (.sendIfModified modify) = .ok (.panicked, s, []) := by
  have sound := reachable_sound reached
  have current := version_word j.increments (!s.sender)
  rw [← sound.state] at current
  refine ⟨?_, fun r waker asked told => sound.rxTold few asked told, ?_, ⟨current, sound.versions⟩,
    fun c waker asked gone => sound.txTold asked gone, ?_, ?_, ?_⟩
  · intro r waker allowed
    have alive : (s.receivers r).dropped = false := by simpa [Watch.allowed] using allowed
    have made := sound.alive alive
    obtain ⟨t, ran, _, version, _⟩ := pollChanged_ok sound alive waker
    obtain ⟨ready, closed⟩ := sound.reads_eq few made
    refine ⟨s.reads r, t, [], by rw [perform, ran]; rfl, ready, closed, ?_⟩
    rw [version, seenBy]
    by_cases newer : j.seen r < j.increments
    · rw [if_pos ((sound.newer_iff few made).mpr newer), if_pos newer]
    · rw [if_neg (fun differs => newer ((sound.newer_iff few made).mp differs)), if_neg newer,
        (sound.versions r made).1, version_word]
  · intro r allowed
    have alive : (s.receivers r).dropped = false := by simpa [Watch.allowed] using allowed
    obtain ⟨t, ran, _, state, _, version⟩ := cancelChanged_ok sound alive
    exact ⟨t, [], by rw [perform, ran]; rfl, state, version⟩
  · intro value gone
    rw [perform, send, if_pos (sound.gone_iff.mpr gone)]
  · intro modify same
    rw [perform, sendIfModified, same]
  · intro modify same
    rw [perform, sendIfModified, same]

/-- Both receivers wait, one of them sees what is sent, and the other is slow. -/
def exampleUpdates : List (WatchAction Nat Nat) :=
  [.clone 0, .pollChanged 0 7, .pollChanged 1 8, .send 5, .pollChanged 1 9]

theorem exampleUpdates_asked : ((journaled Nat Nat).run (channel 0, .first) exampleUpdates).map
    (fun r => (r.2.rxAsked 0, r.2.seen 0, r.2.increments)) = some (some 7, 0, 1) := by
  decide +kernel

theorem no_lost_update_run : ∃ j : Journal Nat, 7 ∈ j.rxWoken 0 := by
  obtain ⟨⟨s, j⟩, ran, facts⟩ := Option.map_eq_some_iff.mp exampleUpdates_asked
  simp only [Prod.mk.injEq] at facts
  obtain ⟨asked, seen, increments⟩ := facts
  have start : (journaled Nat Nat).Reachable (channel 0, .first) := .initial ⟨⟨0, rfl⟩, rfl⟩
  obtain ⟨_, woken, _⟩ := no_lost_update (System.reachable_run _ start ran) (by rw [increments]; decide)
  exact ⟨j, woken 0 7 asked (.inl (by rw [seen, increments]; decide))⟩

end Updating

end Osaka.Sync.Watch
