import Osaka.Sync.WatchSoundness

set_option autoImplicit false

namespace Osaka.Sync.Watch

open Transitions

variable {T W : Type} {s t : Watch T W} {j k : Journal W} {r : Nat}

section Receiving

theorem Sound.receives (receiver : Receiver) {notify : Notify W} (sound : Sound s j)
    (alive : (s.receivers r).dropped = false) (kept : receiver.dropped = false)
    (version : receiver.version = word (k.seen r) false ∧ k.seen r ≤ j.increments)
    (same : k.increments = j.increments ∧ (∀ q, q ≠ r → k.seen q = j.seen q) ∧ k.txAsked = j.txAsked ∧ k.txWoken = j.txWoken)
    (rx : Room.Sound ⟨notify, Function.update (fun q => (s.receivers q).changed) r receiver.changed, k.rxAsked, k.rxWoken⟩)
    (others : ∀ q i, q ≠ r → (s.receivers q).changed = some i → i ∈ notify.waiters → i ∈ s.notifyRx.waiters)
    (own : ∀ i, receiver.changed = some i → i ∈ notify.waiters →
      receiver.version = State.version s.state ∧ s.sender = true) :
    Sound { s.setReceiver r receiver with notifyRx := notify } k := by
  obtain ⟨increments, seen, txAsked, txWoken⟩ := same
  have table (q : Nat) : (s.setReceiver r receiver).receivers q = if q = r then receiver else s.receivers q :=
    Function.update_apply ..
  have changed : (fun q => ((s.setReceiver r receiver).receivers q).changed) =
      Function.update (fun q => (s.receivers q).changed) r receiver.changed := by
    funext q
    rw [table, Function.update_apply]
    split <;> rfl
  have tx : txRoom s k = txRoom s j := by rw [txRoom, txRoom, txAsked, txWoken]
  refine ⟨?_, ?_, ?_, ?_, ?_, ?_, ?_, ?_, ?_⟩
  · rw [increments]
    exact sound.state
  · intro q made
    change ((s.setReceiver r receiver).receivers q).version = _ ∧ _
    rw [table, increments]
    split
    next here => rw [here]; exact version
    next other =>
      rw [seen q other]
      exact sound.versions q made
  · change s.refCountRx = (s.setReceiver r receiver).living.card
    rw [living_set (kept.trans alive.symm)]
    exact sound.counted
  · intro q unmade
    change ((s.setReceiver r receiver).receivers q).dropped = true
    have other : q ≠ r := by
      rintro rfl
      exact absurd (sound.alive alive) (by have := unmade; change s.made ≤ q at this; omega)
    rw [table, if_neg other]
    exact sound.unmade q unmade
  · intro q
    change ((s.setReceiver r receiver).receivers q).dropped = true → ((s.setReceiver r receiver).receivers q).changed = none
    rw [table]
    split
    next =>
      intro dropped
      rw [kept] at dropped
      cases dropped
    next => exact sound.idle q
  · change Room.Sound ⟨notify, fun q => ((s.setReceiver r receiver).receivers q).changed, k.rxAsked, k.rxWoken⟩
    rw [changed]
    exact rx
  · change (txRoom s k).Sound
    rw [tx]
    exact sound.tx
  · rintro q ⟨i, waits, listed⟩
    change ((s.setReceiver r receiver).receivers q).changed = some i at waits
    change i ∈ notify.waiters at listed
    change ((s.setReceiver r receiver).receivers q).version = _ ∧ _
    rw [table] at waits ⊢
    split at waits
    next here => rw [if_pos here]; exact own i waits listed
    next other => rw [if_neg other]; exact sound.current q ⟨i, waits, others q i other waits listed⟩
  · intro q
    change (txRoom s k).Listed q → _
    rw [tx]
    exact sound.present q

theorem borrowAndUpdate_sound (sound : Sound s j) (alive : (s.receivers r).dropped = false) :
    Sound (s.borrowAndUpdate r) (j.sees r j.increments) := by
  have same : Function.update (fun q => (s.receivers q).changed) r (s.receivers r).changed =
      fun q => (s.receivers q).changed := Function.update_eq_self r _
  have rx : Room.Sound ⟨s.notifyRx, Function.update (fun q => (s.receivers q).changed) r (s.receivers r).changed,
      j.rxAsked, j.rxWoken⟩ := by
    rw [same]
    exact sound.rx
  refine sound.receives _ alive alive ⟨?_, ?_⟩ ⟨rfl, ?_, rfl, rfl⟩ rx (fun _ _ _ _ listed => listed) ?_
  · change State.version s.state = word (Function.update j.seen r j.increments r) false
    rw [Function.update_self, sound.state, version_word]
  · change Function.update j.seen r j.increments r ≤ j.increments
    rw [Function.update_self]
  · intro q other
    exact Function.update_of_ne other _ _
  · intro i waits listed
    exact ⟨rfl, (sound.current r ⟨i, waits, listed⟩).2⟩

/-- What a receiver reads off the state: a version that it has not seen, or that the sender is gone. -/
def reads (s : Watch T W) (r : Nat) : Option (Except RecvError Unit) :=
  if (s.receivers r).version ≠ State.version s.state then some (.ok ())
  else if State.isClosed s.state then some (.error .closed)
  else none

def seenBy (s : Watch T W) (r : Nat) : Receiver :=
  if (s.receivers r).version ≠ State.version s.state then { s.receivers r with version := State.version s.state }
  else s.receivers r

theorem maybeChanged_eq (s : Watch T W) (r : Nat) : s.maybeChanged r = (s.reads r, s.setReceiver r (s.seenBy r)) := by
  unfold maybeChanged reads seenBy
  by_cases newer : (s.receivers r).version ≠ State.version s.state
  · simp only [if_pos newer]
  · have same : s.setReceiver r (s.receivers r) = s := by
      rw [setReceiver, Function.update_eq_self]
    simp only [if_neg newer, same]
    split <;> rfl

theorem Sound.quiet (receiver : Receiver) {notify : Notify W} (sound : Sound s j)
    (alive : (s.receivers r).dropped = false) (free : (s.receivers r).changed = none)
    (kept : receiver.dropped = false ∧ receiver.changed = none)
    (version : receiver.version = word (k.seen r) false ∧ k.seen r ≤ j.increments)
    (same : k.increments = j.increments ∧ (∀ q, q ≠ r → k.seen q = j.seen q) ∧ k.txAsked = j.txAsked ∧ k.txWoken = j.txWoken)
    (asks : k.rxAsked = Function.update j.rxAsked r none ∧ k.rxWoken = Function.update j.rxWoken r [])
    (rx : Room.Sound { s.rxRoom j with notify := notify }) (waiters : notify.waiters = s.notifyRx.waiters) :
    Sound { s.setReceiver r receiver with notifyRx := notify } k := by
  have rests : Function.update (fun q => (s.receivers q).changed) r receiver.changed = fun q => (s.receivers q).changed := by
    rw [kept.2, ← free]
    exact Function.update_eq_self r _
  refine sound.receives _ alive kept.1 version same ?_ ?_ ?_
  · rw [rests, asks.1, asks.2]
    exact rx.forget r
  · intro q i _ _ listed
    rw [← waiters]
    exact listed
  · intro i waits
    rw [kept.2] at waits
    cases waits

variable [Wakers W]

theorem changedLoop_ok (sound : Sound s j) (alive : (s.receivers r).dropped = false)
    (free : (s.receivers r).changed = none) (waker : W) (fuel : Nat) :
    ∃ t, s.changedLoop r waker (fuel + 1) = .ok (s.reads r, t, []) ∧
      Sound t (j.note s (.pollChanged r waker) (.changed (s.reads r))) ∧
      (t.receivers r).version = (s.seenBy r).version ∧ t.value = s.value := by
  have looked : maybeChanged { s with notifyRx := s.notifyRx.notified } r =
      (s.reads r, setReceiver { s with notifyRx := s.notifyRx.notified } r (s.seenBy r)) := maybeChanged_eq _ r
  have made := sound.versions r (sound.alive alive)
  have current := version_word j.increments (!s.sender)
  rw [← sound.state] at current
  have self (n : Nat) : Function.update j.seen r n r = n := Function.update_self ..
  have others (n q : Nat) (other : q ≠ r) : Function.update j.seen r n q = j.seen q := Function.update_of_ne other _ _
  cases answer : s.reads r with
  | some ret =>
    obtain ⟨notify, dropped, rx, waiters⟩ := sound.rx.look
    simp only [rxRoom] at dropped
    rw [answer] at looked
    refine ⟨{ s.setReceiver r (s.seenBy r) with notifyRx := notify }, ?_, ?_, ?_, rfl⟩
    · simp only [changedLoop, looked, Option.isSome_some, if_true, setReceiver, dropped]
    · by_cases newer : (s.receivers r).version ≠ State.version s.state
      · have seen : s.seenBy r = { s.receivers r with version := State.version s.state } := if_pos newer
        obtain rfl : .ok () = ret := by simpa [reads, newer] using answer
        rw [seen]
        refine sound.quiet _ alive free ⟨alive, free⟩ ⟨?_, ?_⟩ ⟨rfl, others j.increments, rfl, rfl⟩ ⟨rfl, rfl⟩ rx waiters
        · change State.version s.state = word (Function.update j.seen r j.increments r) false
          rw [self, current]
        · exact (self j.increments).le
      · have seen : s.seenBy r = s.receivers r := if_neg newer
        obtain ⟨_, rfl⟩ : State.isClosed s.state = true ∧ .error .closed = ret := by simpa [reads, newer] using answer
        rw [seen]
        exact sound.quiet _ alive free ⟨alive, free⟩ made ⟨rfl, fun _ _ => rfl, rfl, rfl⟩ ⟨rfl, rfl⟩ rx waiters
    · simp [setReceiver]
  | none =>
    obtain ⟨notify, awaited, rx, waiters⟩ := sound.rx.enter r waker
    simp only [rxRoom] at awaited
    have same : (s.receivers r).version = State.version s.state := by
      by_contra newer
      simp [reads, newer] at answer
    have seen : s.seenBy r = s.receivers r := if_neg (by simp [same])
    have opened : s.sender = true := by
      have closed : State.isClosed s.state = false := by
        simpa [reads, same] using answer
      rw [sound.state, isClosed_word] at closed
      simpa using closed
    rw [answer, seen] at looked
    refine ⟨{ s.setReceiver r { s.receivers r with changed := some s.notifyRx.created } with notifyRx := notify },
      ?_, ?_, ?_, rfl⟩
    · simp only [changedLoop, looked, Option.isSome_none, Bool.false_eq_true, if_false, setReceiver, awaited,
        Function.update_self, Function.update_idem]
    · refine sound.receives _ alive alive made ⟨rfl, fun _ _ => rfl, rfl, rfl⟩ rx ?_ ?_
      · intro q i other waits listed
        rw [waiters] at listed
        rcases List.mem_append.mp listed with listed | new
        · exact listed
        · rw [List.mem_singleton.mp new] at waits
          exact absurd waits (sound.rx.unawaited q)
      · intro i _ _
        exact ⟨same, opened⟩
    · rw [seen]
      simp [setReceiver]

omit [Wakers W] in
theorem reads_of {u : Watch T W} (state : u.state = s.state) (version : (u.receivers r).version = (s.receivers r).version) :
    u.reads r = s.reads r := by
  rw [reads, reads, state, version]

omit [Wakers W] in
theorem seenBy_of {u : Watch T W} (state : u.state = s.state) (version : (u.receivers r).version = (s.receivers r).version) :
    (u.seenBy r).version = (s.seenBy r).version := by
  rw [seenBy, seenBy, state, version]
  split
  next => rfl
  next => exact version

theorem pollChanged_ok (sound : Sound s j) (alive : (s.receivers r).dropped = false) (waker : W) :
    ∃ t, s.pollChanged r waker = .ok (s.reads r, t, []) ∧
      Sound t (j.note s (.pollChanged r waker) (.changed (s.reads r))) ∧
      (t.receivers r).version = (s.seenBy r).version ∧ t.value = s.value := by
  cases changed : (s.receivers r).changed with
  | none =>
    obtain ⟨t, ran, rest⟩ := changedLoop_ok sound alive changed waker 1
    exact ⟨t, by simp only [pollChanged, changed, ran], rest⟩
  | some i =>
    have waits : (s.rxRoom j).waits r = some i := changed
    by_cases listed : i ∈ s.notifyRx.waiters
    · obtain ⟨notify, awaited, rx, waiters⟩ := sound.rx.wait waits listed waker
      simp only [rxRoom] at awaited
      obtain ⟨same, opened⟩ := sound.current r ⟨i, waits, listed⟩
      have nothing : s.reads r = none := by
        have closed : State.isClosed s.state = false := by rw [sound.state, isClosed_word, opened]; rfl
        simp [reads, same, closed]
      have seen : s.seenBy r = s.receivers r := if_neg (by simp [same])
      rw [nothing]
      refine ⟨{ s with notifyRx := notify }, by simp only [pollChanged, changed, awaited], ?_, by rw [seen], rfl⟩
      have still : s.setReceiver r (s.receivers r) = s := by rw [setReceiver, Function.update_eq_self]
      have received := sound.receives (s.receivers r) (k := j.asksRx r (some waker)) alive alive
        (sound.versions r (sound.alive alive)) ⟨rfl, fun _ _ => rfl, rfl, rfl⟩ (by rw [changed]; exact rx)
        (fun q i _ _ member => waiters ▸ member) fun i _ _ => ⟨same, opened⟩
      rw [still] at received
      exact received
    · obtain ⟨notify, awaited, rx, waiters⟩ := sound.rx.resume waits listed waker
      simp only [rxRoom] at awaited
      let u : Watch T W := { s.setReceiver r { s.receivers r with changed := none } with notifyRx := notify }
      have own : u.receivers r = { s.receivers r with changed := none } := Function.update_self ..
      have resumed : Sound u (j.asksRx r none) :=
        sound.receives _ alive alive (sound.versions r (sound.alive alive)) ⟨rfl, fun _ _ => rfl, rfl, rfl⟩ rx
          (fun q i _ _ member => waiters ▸ member) (by simp)
      obtain ⟨t, ran, after, version, value⟩ := changedLoop_ok resumed (r := r) (by rw [own]; exact alive) (by rw [own]) waker 1
      have same := reads_of (s := s) (u := u) (r := r) rfl (by rw [own])
      rw [same] at ran after
      refine ⟨t, ?_, ?_, ?_, value⟩
      · simp only [pollChanged, changed, awaited]
        change (u.changedLoop r waker 2).map _ = _
        rw [ran]
        rfl
      · have told : (j.asksRx r none).note u (.pollChanged r waker) (.changed (s.reads r) : Answer T) =
            j.note s (.pollChanged r waker) (.changed (s.reads r)) := by
          rcases s.reads r with _ | (_ | _) <;> simp [Journal.note, Journal.asksRx, Journal.sees]
        rw [← told]
        exact after
      · rw [version]
        exact seenBy_of rfl (by rw [own])

omit [Wakers W] in
theorem cancelChanged_ok (sound : Sound s j) (alive : (s.receivers r).dropped = false) :
    ∃ t, s.cancelChanged r = .ok (t, []) ∧ Sound t (j.asksRx r none) ∧ t.state = s.state ∧ t.value = s.value ∧
      (t.receivers r).version = (s.receivers r).version := by
  have made := sound.versions r (sound.alive alive)
  cases changed : (s.receivers r).changed with
  | none =>
    refine ⟨s, by simp only [cancelChanged, changed], ?_, rfl, rfl, rfl⟩
    have still : s.setReceiver r (s.receivers r) = s := by rw [setReceiver, Function.update_eq_self]
    have quiet := sound.quiet (s.receivers r) (k := j.asksRx r none) alive changed ⟨alive, changed⟩ made
      ⟨rfl, fun _ _ => rfl, rfl, rfl⟩ ⟨rfl, rfl⟩ sound.rx rfl
    rw [still] at quiet
    exact quiet
  | some i =>
    have waits : (s.rxRoom j).waits r = some i := changed
    obtain ⟨notify, dropped, rx, members⟩ := sound.rx.leave waits
    simp only [rxRoom] at dropped members
    refine ⟨{ s.setReceiver r { s.receivers r with changed := none } with notifyRx := notify },
      by simp only [cancelChanged, changed, dropped], ?_, rfl, rfl, by simp [setReceiver]⟩
    refine sound.receives _ alive alive made ⟨rfl, fun _ _ => rfl, rfl, rfl⟩ rx ?_ (by simp)
    intro q n other waits' listed
    have apart : n ≠ i := by
      rintro rfl
      exact other (sound.rx.apart q r n waits' waits)
    exact (members n apart).mp listed

end Receiving

end Osaka.Sync.Watch
