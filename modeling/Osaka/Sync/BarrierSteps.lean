import Osaka.Sync.Barrier

set_option autoImplicit false

namespace Osaka.Sync

open Transitions

variable {W : Type}

namespace Watch

section Apart

variable {T : Type} {s t u : Watch T W} {r : Nat}

structure Apart (s t : Watch T W) (r : Nat) : Prop where
  others : ∀ q, q ≠ r → t.receivers q = s.receivers q
  dropped : (t.receivers r).dropped = (s.receivers r).dropped
  made : t.made = s.made
  state : t.state = s.state
  sender : t.sender = s.sender

theorem Apart.trans (first : Apart s t r) (second : Apart t u r) : Apart s u r := by
  constructor
  · intro q other
    rw [second.others q other, first.others q other]
  · rw [second.dropped, first.dropped]
  · rw [second.made, first.made]
  · rw [second.state, first.state]
  · rw [second.sender, first.sender]

theorem notifyRx_apart (s : Watch T W) (r : Nat) (notify : Notify W) : Apart s { s with notifyRx := notify } r :=
  ⟨fun _ _ => rfl, rfl, rfl, rfl, rfl⟩

theorem setReceiver_apart {receiver : Receiver} (dropped : receiver.dropped = (s.receivers r).dropped) :
    Apart s (s.setReceiver r receiver) r := by
  constructor
  · intro q other
    exact Function.update_of_ne other _ _
  · change (Function.update s.receivers r receiver r).dropped = _
    rw [Function.update_self]
    exact dropped
  all_goals rfl

theorem maybeChanged_apart {result : Option (Except RecvError Unit)} (looked : s.maybeChanged r = (result, t)) :
    Apart s t r ∧ (t.receivers r).changed = (s.receivers r).changed := by
  rw [maybeChanged_eq] at looked
  obtain ⟨_, rfl⟩ := Prod.mk.inj looked
  have kept : (s.seenBy r).dropped = (s.receivers r).dropped ∧ (s.seenBy r).changed = (s.receivers r).changed := by
    unfold seenBy
    split <;> exact ⟨rfl, rfl⟩
  refine ⟨setReceiver_apart kept.1, ?_⟩
  change (Function.update s.receivers r _ r).changed = _
  rw [Function.update_self]
  exact kept.2

variable [Wakers W] {waker : W} {fuel : Nat} {result : Option (Except RecvError Unit)} {wakers : List W}

theorem map_ok {A B F : Type} {f : A → B} {found : Except F A} {value : B} (ran : found.map f = .ok value) :
    ∃ a, found = .ok a ∧ f a = value := by
  cases found with
  | error fault => cases ran
  | ok a => exact ⟨a, rfl, Except.ok.inj ran⟩

theorem changedLoop_apart (free : (s.receivers r).changed = none)
    (ran : s.changedLoop r waker fuel = .ok (result, t, wakers)) :
    Apart s t r ∧ (result.isSome = true → (t.receivers r).changed = none) := by
  induction fuel generalizing s wakers with
  | zero => cases ran
  | succ fuel ih =>
    rcases looked : maybeChanged { s with notifyRx := s.notifyRx.notified } r with ⟨found, u⟩
    obtain ⟨looks, changed⟩ := maybeChanged_apart looked
    have first := (notifyRx_apart s r s.notifyRx.notified).trans looks
    have still : (u.receivers r).changed = none := changed.trans free
    simp only [changedLoop, looked] at ran
    split at ran
    next =>
      split at ran
      next => cases ran
      next notify more _ =>
        obtain ⟨rfl, rfl, rfl⟩ : found = result ∧ { u with notifyRx := notify } = t ∧ more = wakers := by simpa using ran
        exact ⟨first.trans (notifyRx_apart u r notify), fun _ => still⟩
    next =>
      split at ran
      next => cases ran
      next notify more _ =>
        obtain ⟨rfl, rfl, rfl⟩ : none = result ∧ _ = t ∧ more = wakers := by simpa using ran
        refine ⟨(first.trans (setReceiver_apart ?_)).trans (notifyRx_apart _ r notify), by simp⟩
        rfl
      next notify more _ =>
        obtain ⟨⟨result', t', wakers'⟩, rest, same⟩ := map_ok ran
        obtain ⟨rfl, rfl, _⟩ : result' = result ∧ t' = t ∧ more ++ wakers' = wakers := by simpa using same
        obtain ⟨second, after⟩ := ih (s := { u with notifyRx := notify }) still rest
        exact ⟨(first.trans (notifyRx_apart u r notify)).trans second, after⟩

theorem pollChanged_apart (ran : s.pollChanged r waker = .ok (result, t, wakers)) :
    Apart s t r ∧ (result.isSome = true → (t.receivers r).changed = none) := by
  unfold pollChanged at ran
  split at ran
  next free => exact changedLoop_apart free ran
  next i _ =>
    split at ran
    next => cases ran
    next notify more _ =>
      obtain ⟨rfl, rfl, rfl⟩ : none = result ∧ { s with notifyRx := notify } = t ∧ more = wakers := by simpa using ran
      exact ⟨notifyRx_apart s r notify, by simp⟩
    next notify more _ =>
      have receiver : { s.receivers r with changed := none }.dropped = (s.receivers r).dropped := rfl
      have first := (setReceiver_apart receiver).trans (notifyRx_apart _ r notify)
      obtain ⟨⟨result', t', wakers'⟩, rest, same⟩ := map_ok ran
      obtain ⟨rfl, rfl, _⟩ : result' = result ∧ t' = t ∧ more ++ wakers' = wakers := by simpa using same
      have own : (Function.update s.receivers r { s.receivers r with changed := none } r).changed = none := by
        rw [Function.update_self]
      obtain ⟨second, after⟩ := changedLoop_apart (r := r) own rest
      exact ⟨first.trans second, after⟩

end Apart

section Polls

variable {T : Type} {s t : Watch T W} {j : Journal W} {r v : Nat} {wakers : List W}

theorem Sound.current_version (sound : Sound s j) : State.version s.state = word j.increments false := by
  rw [sound.state, version_word]

theorem Sound.differs_iff (sound : Sound s j) (version : (s.receivers r).version = word v false)
    (old : v ≤ j.increments) : (s.receivers r).version = State.version s.state ↔ 2 ^ 63 ∣ j.increments - v := by
  rw [version, sound.current_version, word_eq_iff old]

theorem send_apart {value : T} {answer : Answer T} (ran : s.send value = .ok (answer, t, wakers)) :
    t.receivers = s.receivers ∧ t.made = s.made ∧ t.sender = s.sender := by
  unfold send at ran
  split at ran
  next =>
    obtain ⟨_, rfl, _⟩ : _ ∧ s = t ∧ [] = wakers := by simpa using ran
    exact ⟨rfl, rfl, rfl⟩
  next =>
    obtain ⟨⟨_, t', _⟩, replaced, same⟩ := map_ok ran
    obtain ⟨_, rfl, _⟩ : _ ∧ t' = t ∧ _ := by simpa using same
    obtain ⟨⟨_, t', _⟩, modified, same⟩ := map_ok replaced
    obtain ⟨_, rfl, _⟩ : _ ∧ t' = _ ∧ _ := by simpa using same
    obtain ⟨⟨_, t', _⟩, sent, same⟩ := map_ok modified
    obtain ⟨_, rfl, _⟩ : _ ∧ t' = _ ∧ _ := by simpa using same
    simp only [sendIfModified, Bool.false_eq_true, if_false] at sent
    obtain ⟨⟨t', _⟩, notified, same⟩ := map_ok sent
    obtain ⟨_, rfl, _⟩ : _ ∧ t' = _ ∧ _ := by simpa using same
    unfold notifyReceivers at notified
    split at notified
    next => cases notified
    next =>
      obtain ⟨rfl, _⟩ := Prod.mk.inj (Except.ok.inj notified)
      exact ⟨rfl, rfl, rfl⟩

theorem dropReceiver_apart (ran : s.dropReceiver r = .ok (t, wakers)) :
    t.receivers = Function.update s.receivers r { s.receivers r with dropped := true } ∧ t.made = s.made ∧
      t.sender = s.sender ∧ t.value = s.value := by
  unfold dropReceiver at ran
  dsimp only at ran
  split at ran
  next =>
    unfold notifySender at ran
    split at ran
    next => cases ran
    next =>
      obtain ⟨rfl, _⟩ := Prod.mk.inj (Except.ok.inj ran)
      exact ⟨rfl, rfl, rfl, rfl⟩
  next =>
    obtain ⟨rfl, _⟩ := Prod.mk.inj (Except.ok.inj ran)
    exact ⟨rfl, rfl, rfl, rfl⟩

variable [Wakers W]

theorem poll_pending (sound : Sound s j) (alive : (s.receivers r).dropped = false) (opened : s.sender = true)
    (version : (s.receivers r).version = word v false) (old : v ≤ j.increments) (multiple : 2 ^ 63 ∣ j.increments - v)
    (waker : W) : ∃ t, s.pollChanged r waker = .ok (none, t, []) ∧ Sound t (j.asksRx r (some waker)) ∧ Apart s t r ∧
      (t.receivers r).version = (s.receivers r).version ∧ t.value = s.value := by
  have same := (sound.differs_iff version old).mpr multiple
  have nothing : s.reads r = none := by
    rw [reads, if_neg (by simp [same]), sound.isClosed_eq, opened]
    rfl
  have seen : s.seenBy r = s.receivers r := if_neg (by simp [same])
  obtain ⟨t, ran, after, version', value⟩ := pollChanged_ok sound alive waker
  rw [nothing] at ran after
  rw [seen] at version'
  exact ⟨t, ran, after, (pollChanged_apart ran).1, version', value⟩

theorem poll_ready (sound : Sound s j) (alive : (s.receivers r).dropped = false)
    (version : (s.receivers r).version = word v false) (old : v ≤ j.increments) (newer : ¬2 ^ 63 ∣ j.increments - v)
    (waker : W) : ∃ t, s.pollChanged r waker = .ok (some (.ok ()), t, []) ∧
      Sound t ((j.sees r j.increments).asksRx r none) ∧ Apart s t r ∧
      (t.receivers r).version = word j.increments false ∧ t.value = s.value ∧ (t.receivers r).changed = none := by
  have differs := (sound.differs_iff version old).not.mpr newer
  have found : s.reads r = some (.ok ()) := if_pos differs
  have seen : s.seenBy r = { s.receivers r with version := State.version s.state } := if_pos differs
  obtain ⟨t, ran, after, version', value⟩ := pollChanged_ok sound alive waker
  rw [found] at ran after
  rw [seen] at version'
  obtain ⟨apart, free⟩ := pollChanged_apart ran
  exact ⟨t, ran, after, apart, version'.trans sound.current_version, value, free rfl⟩

end Polls

end Watch

namespace Barrier

open Watch (word Apart)

section Soundness

variable {b t : Barrier W} {j k : Watch.Journal W} {c r : Nat} {wait : Watch Nat W}

structure Sound (b : Barrier W) (j : Watch.Journal W) : Prop where
  watch : Watch.Sound b.wait j
  opened : b.wait.sender = true
  short : b.arrived < b.n
  -- self.wait is only ever cloned
  own : (b.wait.receivers 0).dropped = false ∧ (b.wait.receivers 0).version = word 0 false
  filled : j.increments + 1 = b.generation
  newest : b.wait.value = j.increments
  bounded : b.generation < 2 ^ 64
  waits : ∀ c g r, b.calls c = .waiting g r → r ≠ 0 ∧ (b.wait.receivers r).dropped = false ∧
    (b.wait.receivers r).version = word (g - 1) false ∧ 0 < g ∧ g ≤ b.generation
  apart : ∀ c d g h r, b.calls c = .waiting g r → b.calls d = .waiting h r → c = d

theorem new_sound (n : Nat) : Sound (new n : Barrier W) .first := by
  constructor
  · exact Watch.channel_sound 0
  · rfl
  · change 0 < if n = 0 then 1 else n
    split <;> omega
  · exact ⟨rfl, rfl⟩
  · rfl
  · rfl
  · exact Nat.one_lt_two_pow (by decide)
  · intro c g r waiting
    cases waiting
  · intro c d g h r waiting
    cases waiting

theorem Sound.polled (sound : Sound b j) (waiting : ∃ g, b.calls c = .waiting g r) (apart : Apart b.wait wait r)
    (watch : Watch.Sound wait k) (same : k.increments = j.increments) (value : wait.value = b.wait.value)
    (version : (wait.receivers r).version = (b.wait.receivers r).version) : Sound { b with wait := wait } k := by
  obtain ⟨g, waiting⟩ := waiting
  have other := (sound.waits c g r waiting).1
  have table (q : Nat) : (wait.receivers q).dropped = (b.wait.receivers q).dropped ∧
      (wait.receivers q).version = (b.wait.receivers q).version := by
    by_cases here : q = r
    · rw [here]
      exact ⟨apart.dropped, version⟩
    · rw [apart.others q here]
      exact ⟨rfl, rfl⟩
  constructor
  · exact watch
  · exact apart.sender.trans sound.opened
  · exact sound.short
  · change (wait.receivers 0).dropped = false ∧ (wait.receivers 0).version = _
    rw [(table 0).1, (table 0).2]
    exact sound.own
  · rw [same]
    exact sound.filled
  · rw [same]
    exact value.trans sound.newest
  · exact sound.bounded
  · intro d h q waits
    change _ ∧ (wait.receivers q).dropped = false ∧ (wait.receivers q).version = _ ∧ _
    rw [(table q).1, (table q).2]
    exact sound.waits d h q waits
  · exact sound.apart

theorem Sound.returned {g : Nat} (sound : Sound b j) (waiting : b.calls c = .waiting g r)
    (others : ∀ q, q ≠ r → wait.receivers q = b.wait.receivers q) (watch : Watch.Sound wait k)
    (opened : wait.sender = b.wait.sender) (same : k.increments = j.increments) (value : wait.value = b.wait.value) :
    Sound ({ b with wait := wait }.setCall c (.returned false)) k := by
  have other := (sound.waits c g r waiting).1
  have still (d h q : Nat) (waits : Function.update b.calls c (.returned false) d = .waiting h q) :
      b.calls d = .waiting h q ∧ q ≠ r := by
    by_cases here : d = c
    · rw [here, Function.update_self] at waits
      cases waits
    · rw [Function.update_of_ne here] at waits
      refine ⟨waits, ?_⟩
      rintro rfl
      exact here (sound.apart d c h g q waits waiting)
  constructor
  · exact watch
  · exact opened.trans sound.opened
  · exact sound.short
  · change (wait.receivers 0).dropped = false ∧ (wait.receivers 0).version = _
    rw [others 0 other.symm]
    exact sound.own
  · rw [same]
    exact sound.filled
  · rw [same]
    exact value.trans sound.newest
  · exact sound.bounded
  · intro d h q waits
    obtain ⟨before, apart⟩ := still d h q waits
    change _ ∧ (wait.receivers q).dropped = false ∧ (wait.receivers q).version = _ ∧ _
    rw [others q apart]
    exact sound.waits d h q before
  · intro d e h h' q first second
    exact sound.apart d e h h' q (still d h q first).1 (still e h' q second).1

theorem Sound.made (sound : Sound b j) : 0 < b.wait.made := sound.watch.alive sound.own.1

theorem Sound.received (sound : Sound b j) : b.wait.refCountRx ≠ 0 := by
  intro none
  have gone := sound.watch.gone_iff.mp none 0 sound.made
  rw [sound.own.1] at gone
  cases gone

theorem Sound.joined (sound : Sound b j) (short : b.arrived + 1 < b.n) (called : b.calls c = .called)
    (apart : Apart (b.wait.clone 0) wait b.wait.made) (watch : Watch.Sound wait k) (same : k.increments = j.increments)
    (value : wait.value = b.wait.value) (version : (wait.receivers b.wait.made).version = word j.increments false) :
    Sound ({ b with wait := wait, arrived := b.arrived + 1 }.setCall c (.waiting b.generation b.wait.made)) k := by
  have made := sound.made
  have filled := sound.filled
  have own : (wait.receivers b.wait.made).dropped = false := by
    rw [apart.dropped]
    change (Function.update b.wait.receivers b.wait.made _ b.wait.made).dropped = false
    rw [Function.update_self]
  have others (q : Nat) (other : q ≠ b.wait.made) : wait.receivers q = b.wait.receivers q := by
    rw [apart.others q other]
    exact Function.update_of_ne other _ _
  have older (d h q : Nat) (waits : b.calls d = .waiting h q) : q ≠ b.wait.made :=
    (sound.watch.alive (sound.waits d h q waits).2.1).ne
  have calls (d h q : Nat) (waits : Function.update b.calls c (.waiting b.generation b.wait.made) d = .waiting h q) :
      d = c ∧ h = b.generation ∧ q = b.wait.made ∨ d ≠ c ∧ b.calls d = .waiting h q := by
    by_cases here : d = c
    · rw [here, Function.update_self, BarrierCall.waiting.injEq] at waits
      exact .inl ⟨here, waits.1.symm, waits.2.symm⟩
    · rw [Function.update_of_ne here] at waits
      exact .inr ⟨here, waits⟩
  constructor
  · exact watch
  · exact apart.sender.trans sound.opened
  · exact short
  · change (wait.receivers 0).dropped = false ∧ (wait.receivers 0).version = _
    rw [others 0 made.ne]
    exact sound.own
  · rw [same]
    exact filled
  · rw [same]
    exact value.trans sound.newest
  · exact sound.bounded
  · intro d h q waits
    change _ ∧ (wait.receivers q).dropped = false ∧ (wait.receivers q).version = _ ∧ _ ∧ h ≤ b.generation
    rcases calls d h q waits with ⟨_, rfl, rfl⟩ | ⟨_, before⟩
    · refine ⟨made.ne', own, ?_, by omega, le_refl _⟩
      rw [version, ← filled, Nat.add_sub_cancel]
    · rw [others q (older d h q before)]
      exact sound.waits d h q before
  · intro d e h h' q first second
    rcases calls d h q first with ⟨rfl, _, new⟩ | ⟨_, before⟩
    · rcases calls e h' q second with ⟨rfl, _, _⟩ | ⟨_, before'⟩
      · rfl
      · exact absurd new (older e h' q before')
    · rcases calls e h' q second with ⟨_, _, new⟩ | ⟨_, before'⟩
      · exact absurd new (older d h q before)
      · exact sound.apart d e h h' q before before'

theorem Sound.led (sound : Sound b j) (room : b.generation + 1 < 2 ^ 64)
    (receivers : wait.receivers = b.wait.receivers) (opened : wait.sender = b.wait.sender)
    (watch : Watch.Sound wait k) (next : k.increments = j.increments + 1) (value : wait.value = b.generation) :
    Sound ({ b with wait := wait, arrived := 0, generation := b.generation + 1 }.setCall c (.returned true)) k := by
  have filled := sound.filled
  have still (d h q : Nat) (waits : Function.update b.calls c (.returned true) d = .waiting h q) :
      b.calls d = .waiting h q := by
    rw [Function.update_apply] at waits
    split at waits
    next => cases waits
    next => exact waits
  constructor
  · exact watch
  · exact opened.trans sound.opened
  · exact (Nat.zero_le _).trans_lt sound.short
  · change (wait.receivers 0).dropped = false ∧ (wait.receivers 0).version = _
    rw [receivers]
    exact sound.own
  · change k.increments + 1 = b.generation + 1
    omega
  · change wait.value = k.increments
    omega
  · exact room
  · intro d h q waits
    obtain ⟨other, alive, version, positive, most⟩ := sound.waits d h q (still d h q waits)
    change _ ∧ (wait.receivers q).dropped = false ∧ (wait.receivers q).version = _ ∧ _
    rw [receivers]
    exact ⟨other, alive, version, positive, Nat.le_succ_of_le most⟩
  · intro d e h h' q first second
    exact sound.apart d e h h' q (still d h q first) (still e h' q second)

end Soundness

section Polling

variable {b t : Barrier W} {j k : Watch.Journal W} {c r : Nat} {waker : W} {wakers : List W}

structure Keeps (j k : Watch.Journal W) (r : Nat) (wakers : List W) : Prop where
  asked : ∀ q, q ≠ r → k.rxAsked q = j.rxAsked q
  woken : ∀ q, q ≠ r → k.rxWoken q = j.rxWoken q ++ wakers

inductive Polled (b t : Barrier W) (j k : Watch.Journal W) (c : Nat) (waker : W) (wakers : List W) :
    Option Bool → Prop where
  | leads : b.calls c = .called → b.arrived + 1 = b.n → t.calls = Function.update b.calls c (.returned true) →
      t.generation = b.generation + 1 → t.arrived = 0 →
      (∀ q, k.rxAsked q = j.rxAsked q ∧ k.rxWoken q = j.rxWoken q ++ wakers) →
      Polled b t j k c waker wakers (some true)
  | joins : b.calls c = .called → b.arrived + 1 < b.n →
      t.calls = Function.update b.calls c (.waiting b.generation b.wait.made) → t.generation = b.generation →
      t.arrived = b.arrived + 1 → Keeps j k b.wait.made wakers → k.rxAsked b.wait.made = some waker →
      k.rxWoken b.wait.made = [] → Polled b t j k c waker wakers none
  | stays (g r : Nat) : b.calls c = .waiting g r → 2 ^ 63 ∣ b.generation - g → t.calls = b.calls →
      t.generation = b.generation → t.arrived = b.arrived → Keeps j k r wakers → k.rxAsked r = some waker →
      k.rxWoken r = [] → Polled b t j k c waker wakers none
  | returns (g r : Nat) : b.calls c = .waiting g r → ¬2 ^ 63 ∣ b.generation - g →
      t.calls = Function.update b.calls c (.returned false) → t.generation = b.generation → t.arrived = b.arrived →
      Keeps j k r wakers → Polled b t j k c waker wakers (some false)

variable [Wakers W]

theorem lead_ok (sound : Sound b j) (called : b.calls c = .called) (last : b.arrived + 1 = b.n)
    (room : b.generation + 1 < 2 ^ 64) (waker : W) : ∃ t wakers k, b.arrive c waker = .ok (some true, t, wakers) ∧
      Sound t k ∧ t.n = b.n ∧ Polled b t j k c waker wakers (some true) := by
  obtain ⟨wait, wakers, ran, value, _, watch⟩ := Watch.send_ok sound.watch b.generation sound.received
  obtain ⟨receivers, _, opened⟩ := Watch.send_apart ran
  refine ⟨{ b with wait := wait, arrived := 0, generation := b.generation + 1 }.setCall c (.returned true), wakers, _, ?_,
    sound.led room receivers opened watch rfl value, rfl, ?_⟩
  · unfold arrive
    dsimp only
    rw [if_pos last, ran]
    dsimp only
    rw [if_pos room]
  · exact .leads called last rfl rfl rfl fun q => ⟨rfl, rfl⟩

omit [Wakers W] in
theorem asksRx_keeps {i : Watch.Journal W} (keeps : Keeps j i r []) (asked : Option W) :
    Keeps j (i.asksRx r asked) r [] ∧ (i.asksRx r asked).rxAsked r = asked ∧ (i.asksRx r asked).rxWoken r = [] := by
  refine ⟨⟨?_, ?_⟩, Function.update_self .., Function.update_self ..⟩
  · intro q other
    exact (Function.update_of_ne other _ _).trans (keeps.asked q other)
  · intro q other
    exact (Function.update_of_ne other _ _).trans (keeps.woken q other)

omit [Wakers W] in
theorem sees_keeps (j : Watch.Journal W) (r q n : Nat) : Keeps j (j.sees q n) r [] :=
  ⟨fun _ _ => rfl, fun _ _ => (List.append_nil _).symm⟩

theorem waitLoop_pending {g v : Nat} (fuel : Nat) (watch : Watch.Sound b.wait j) (alive : (b.wait.receivers r).dropped = false)
    (opened : b.wait.sender = true) (version : (b.wait.receivers r).version = word v false) (old : v ≤ j.increments)
    (multiple : 2 ^ 63 ∣ j.increments - v) (waker : W) :
    ∃ wait, b.waitLoop c g r waker (fuel + 1) = .ok (none, { b with wait := wait }, []) ∧
      Watch.Sound wait (j.asksRx r (some waker)) ∧ Apart b.wait wait r ∧
      (wait.receivers r).version = (b.wait.receivers r).version ∧ wait.value = b.wait.value := by
  obtain ⟨wait, ran, rest⟩ := Watch.poll_pending watch alive opened version old multiple waker
  exact ⟨wait, by rw [waitLoop, ran], rest⟩

theorem join_ok (sound : Sound b j) (called : b.calls c = .called) (short : b.arrived + 1 < b.n) (waker : W) :
    ∃ t k, b.arrive c waker = .ok (none, t, []) ∧ Sound t k ∧ t.n = b.n ∧ Polled b t j k c waker [] none := by
  have filled := sound.filled
  obtain ⟨version, old⟩ := sound.watch.versions 0 sound.made
  let joined := { b with wait := b.wait.clone 0, arrived := b.arrived + 1 }.setCall c (.waiting b.generation b.wait.made)
  have cloned : Watch.Sound (b.wait.clone 0) (j.sees b.wait.made (j.seen 0)) :=
    Watch.fromShared_sound sound.watch ⟨version, old⟩
  have new : (b.wait.clone 0).receivers b.wait.made = ⟨(b.wait.receivers 0).version, none, false⟩ :=
    Function.update_self ..
  have alive : ((b.wait.clone 0).receivers b.wait.made).dropped = false := by rw [new]
  have first : ((b.wait.clone 0).receivers b.wait.made).version = word 0 false := by
    rw [new]
    exact sound.own.2
  have opened : (b.wait.clone 0).sender = true := sound.opened
  have arrives : b.arrive c waker = joined.waitLoop c b.generation b.wait.made waker 2 := by
    unfold arrive
    dsimp only
    rw [if_neg (by omega)]
  rw [arrives]
  have kept := sees_keeps j b.wait.made b.wait.made (j.seen 0)
  by_cases multiple : 2 ^ 63 ∣ j.increments - 0
  · obtain ⟨wait, ran, watch, apart, same, value⟩ := waitLoop_pending (b := joined) (c := c) (g := b.generation) 1
      cloned alive opened first (Nat.zero_le _) multiple waker
    have now : (wait.receivers b.wait.made).version = word j.increments false := by
      rw [← (Watch.word_eq_iff (Nat.zero_le _)).mpr multiple]
      exact same.trans first
    obtain ⟨keeps, asked, woken⟩ := asksRx_keeps kept (some waker)
    exact ⟨_, _, ran, sound.joined short called apart watch rfl value now, rfl,
      .joins called short rfl rfl rfl keeps asked woken⟩
  · obtain ⟨wait, ran, watch, apart, now, value, _⟩ := Watch.poll_ready cloned alive first (Nat.zero_le _) multiple waker
    have opened' : wait.sender = true := apart.sender.trans opened
    have alive' : (wait.receivers b.wait.made).dropped = false := apart.dropped.trans alive
    have newest : 2 ^ 63 ∣ j.increments - j.increments := by simp
    obtain ⟨wait', ran', watch', apart', same, value'⟩ := waitLoop_pending (b := { joined with wait := wait }) (c := c)
      (g := b.generation) 0 watch alive' opened' now (le_refl _) newest waker
    have stale : ¬wait.value ≥ b.generation := by
      have newest := sound.newest
      have value : wait.value = b.wait.value := value
      omega
    obtain ⟨keeps, asked, woken⟩ := asksRx_keeps (asksRx_keeps (i := (j.sees b.wait.made (j.seen 0)).sees b.wait.made
      j.increments) ⟨kept.asked, kept.woken⟩ none).1 (some waker)
    refine ⟨_, _, ?_, sound.joined short called (apart.trans apart') watch' rfl (value'.trans value) (same.trans now), rfl,
      .joins called short rfl rfl rfl keeps asked woken⟩
    rw [waitLoop]
    rw [show joined.wait.pollChanged b.wait.made waker = _ from ran]
    dsimp only
    rw [if_neg stale, ran']
    rfl

theorem wait_ok {g : Nat} (sound : Sound b j) (waiting : b.calls c = .waiting g r) (waker : W) :
    ∃ ready t wakers k, b.waitLoop c g r waker 2 = .ok (ready, t, wakers) ∧ Sound t k ∧ t.n = b.n ∧
      Polled b t j k c waker wakers ready := by
  obtain ⟨other, alive, version, positive, most⟩ := sound.waits c g r waiting
  have filled := sound.filled
  have kept : Keeps j j r [] := ⟨fun _ _ => rfl, fun _ _ => (List.append_nil _).symm⟩
  have lag : j.increments - (g - 1) = b.generation - g := by omega
  by_cases multiple : 2 ^ 63 ∣ b.generation - g
  · obtain ⟨wait, ran, watch, apart, same, value⟩ := waitLoop_pending (c := c) (g := g) 1 sound.watch alive
      sound.opened version (by omega) (lag ▸ multiple) waker
    obtain ⟨keeps, asked, woken⟩ := asksRx_keeps kept (some waker)
    exact ⟨_, _, _, _, ran, sound.polled ⟨g, waiting⟩ apart watch rfl value same, rfl,
      .stays g r waiting multiple rfl rfl rfl keeps asked woken⟩
  · obtain ⟨wait, ran, watch, apart, now, value, free⟩ := Watch.poll_ready sound.watch alive version (by omega)
      (lag ▸ multiple) waker
    have alive' : (wait.receivers r).dropped = false := apart.dropped.trans alive
    obtain ⟨wait', wakers, dropped, watch'⟩ := Watch.dropReceiver_ok watch alive' free
    obtain ⟨receivers, _, sender, value'⟩ := Watch.dropReceiver_apart dropped
    have newest := sound.newest
    have fresh : wait.value ≥ g := by
      have apart : b.generation - g ≠ 0 := fun none => multiple (none ▸ Nat.dvd_zero _)
      omega
    have others (q : Nat) (apart' : q ≠ r) : wait'.receivers q = b.wait.receivers q := by
      rw [receivers, Function.update_of_ne apart', apart.others q apart']
    have keeps := (asksRx_keeps (i := j.sees r j.increments) ⟨kept.asked, kept.woken⟩ none).1
    refine ⟨some false, { b with wait := wait' }.setCall c (.returned false), wakers, _, ?_,
      sound.returned waiting others watch' (sender.trans apart.sender) rfl (value'.trans value), rfl,
      .returns g r waiting multiple rfl rfl rfl ⟨?_, ?_⟩⟩
    · rw [waitLoop, ran]
      dsimp only
      rw [if_pos fresh, dropped]
      rfl
    · exact fun q apart' => keeps.asked q apart'
    · intro q apart'
      have woken := keeps.woken q apart'
      rw [List.append_nil] at woken
      change _ ++ wakers = _
      rw [woken]

/-- The generation that overflows is the only way to fail. -/
theorem poll_cases (sound : Sound b j) (allowed : b.allowed (.poll c waker) = true) :
    (∃ ready t wakers k, b.poll c waker = .ok (ready, t, wakers) ∧ Sound t k ∧ t.n = b.n ∧
      Polled b t j k c waker wakers ready) ∨
    b.poll c waker = .error .overflow ∧ b.generation + 1 = 2 ^ 64 := by
  have bounded := sound.bounded
  have shorter := sound.short
  unfold poll
  cases phase : b.calls c with
  | called =>
    dsimp only
    by_cases last : b.arrived + 1 = b.n
    · by_cases room : b.generation + 1 < 2 ^ 64
      · obtain ⟨t, wakers, k, ran, rest⟩ := lead_ok sound phase last room waker
        exact .inl ⟨some true, t, wakers, k, ran, rest⟩
      · right
        obtain ⟨wait, wakers, ran, _⟩ := Watch.send_ok sound.watch b.generation sound.received
        refine ⟨?_, by omega⟩
        unfold arrive
        dsimp only
        rw [if_pos last, ran]
        dsimp only
        rw [if_neg room]
    · obtain ⟨t, k, ran, rest⟩ := join_ok sound phase (by omega) waker
      exact .inl ⟨none, t, [], k, ran, rest⟩
  | waiting g r =>
    obtain ⟨ready, t, wakers, k, ran, rest⟩ := wait_ok sound phase waker
    exact .inl ⟨ready, t, wakers, k, ran, rest⟩
  | returned leader => simp [Barrier.allowed, phase] at allowed

end Polling

end Barrier

end Osaka.Sync
