import Osaka.Sync.WatchReceiving

set_option autoImplicit false

namespace Osaka.Sync.Watch

open Transitions

variable {T W : Type} {s t : Watch T W} {j k : Journal W}

section Closing

variable {c : Nat}

theorem Sound.closes (new : Option Nat) {notify : Notify W} {waker : Option W} (sound : Sound s j)
    (tx : Room.Sound ⟨notify, Function.update s.closings c new, Function.update j.txAsked c waker,
      Function.update j.txWoken c []⟩)
    (others : ∀ q i, q ≠ c → s.closings q = some i → i ∈ notify.waiters → i ∈ s.notifyTx.waiters)
    (own : ∀ i, new = some i → i ∈ notify.waiters → s.refCountRx ≠ 0) :
    Sound { s.setClosing c new with notifyTx := notify } (j.asksTx c waker) := by
  refine ⟨sound.state, sound.versions, sound.counted, sound.unmade, sound.idle, sound.rx, tx, sound.current, ?_⟩
  rintro q ⟨i, waits, listed⟩
  change Function.update s.closings c new q = some i at waits
  by_cases here : q = c
  · rw [here, Function.update_self] at waits
    exact own i waits listed
  · rw [Function.update_of_ne here] at waits
    exact sound.present q ⟨i, waits, others q i here waits listed⟩

theorem cancelClosed_ok (sound : Sound s j) : ∃ t, s.cancelClosed c = .ok (t, []) ∧ Sound t (j.asksTx c none) := by
  cases closing : s.closings c with
  | none =>
    refine ⟨s, by simp only [cancelClosed, closing], ?_⟩
    exact { sound with tx := sound.tx.forget c }
  | some i =>
    have waits : (s.txRoom j).waits c = some i := closing
    obtain ⟨notify, dropped, tx, members⟩ := sound.tx.leave waits
    simp only [txRoom] at dropped members
    refine ⟨{ s.setClosing c none with notifyTx := notify }, by simp only [cancelClosed, closing, dropped], ?_⟩
    refine sound.closes none tx ?_ (by simp)
    intro q n other waits' listed
    have apart : n ≠ i := by
      rintro rfl
      exact other (sound.tx.apart q c n waits' waits)
    exact (members n apart).mp listed

variable [Wakers W]

theorem closedLoop_ok (sound : Sound s j) (waker : W) (fuel : Nat) :
    ∃ t, s.closedLoop c waker (fuel + 1) = .ok (decide (s.refCountRx = 0), t, []) ∧
      Sound t (j.note s (.pollClosed c waker) (.closed (decide (s.refCountRx = 0)))) := by
  by_cases gone : s.refCountRx = 0
  · refine ⟨s, by simp [closedLoop, gone], ?_⟩
    rw [decide_eq_true gone]
    exact { sound with tx := sound.tx.forget c }
  · obtain ⟨notify, awaited, tx, waiters⟩ := sound.tx.enter c waker
    simp only [txRoom] at awaited
    have many : s.refCountRx > 0 := Nat.pos_of_ne_zero gone
    refine ⟨{ s.setClosing c (some s.notifyTx.created) with notifyTx := notify }, ?_, ?_⟩
    · simp only [closedLoop, many, gone, if_true, if_false, awaited, setClosing, decide_false]
    · rw [decide_eq_false gone]
      refine sound.closes _ tx ?_ fun _ _ _ => gone
      intro q i other waits listed
      rw [waiters] at listed
      rcases List.mem_append.mp listed with listed | new
      · exact listed
      · rw [List.mem_singleton.mp new] at waits
        exact absurd waits (sound.tx.unawaited q)

theorem pollClosed_ok (sound : Sound s j) (waker : W) :
    ∃ t, s.pollClosed c waker = .ok (decide (s.refCountRx = 0), t, []) ∧
      Sound t (j.note s (.pollClosed c waker) (.closed (decide (s.refCountRx = 0)))) := by
  cases closing : s.closings c with
  | none =>
    obtain ⟨t, ran, after⟩ := closedLoop_ok sound waker 1
    exact ⟨t, by simp only [pollClosed, closing, ran], after⟩
  | some i =>
    have waits : (s.txRoom j).waits c = some i := closing
    by_cases listed : i ∈ s.notifyTx.waiters
    · obtain ⟨notify, awaited, tx, waiters⟩ := sound.tx.wait waits listed waker
      simp only [txRoom] at awaited
      have present := sound.present c ⟨i, waits, listed⟩
      rw [decide_eq_false present]
      refine ⟨{ s with notifyTx := notify }, by simp only [pollClosed, closing, awaited], ?_⟩
      have still : s.setClosing c (some i) = s := by rw [setClosing, ← closing, Function.update_eq_self]
      have closes := sound.closes (some i) tx (fun q n _ _ member => waiters ▸ member) fun _ _ _ => present
      rw [still] at closes
      exact closes
    · obtain ⟨notify, awaited, tx, waiters⟩ := sound.tx.resume waits listed waker
      simp only [txRoom] at awaited
      let u : Watch T W := { s.setClosing c none with notifyTx := notify }
      have resumed : Sound u (j.asksTx c none) := sound.closes none tx (fun q n _ _ member => waiters ▸ member) (by simp)
      obtain ⟨t, ran, after⟩ := @closedLoop_ok _ _ _ _ c _ resumed waker 1
      have told (ready : Bool) : (j.asksTx c none).note u (.pollClosed c waker) (.closed ready : Answer T) =
          j.note s (.pollClosed c waker) (.closed ready) := by
        cases ready <;> simp [Journal.note, Journal.asksTx]
      rw [told] at after
      refine ⟨t, ?_, after⟩
      simp only [pollClosed, closing, awaited]
      change (u.closedLoop c waker 2).map _ = _
      rw [ran]
      rfl

end Closing

section Counting

variable {r n : Nat}

theorem fromShared_sound {version : BitVec 64} (sound : Sound s j) (old : version = word n false ∧ n ≤ j.increments) :
    Sound (s.fromShared version) (j.sees s.made n) := by
  have table (q : Nat) : (s.fromShared version).receivers q = if q = s.made then ⟨version, none, false⟩ else s.receivers q :=
    Function.update_apply ..
  have unmade := sound.unmade s.made (le_refl _)
  have changed : (fun q => ((s.fromShared version).receivers q).changed) = fun q => (s.receivers q).changed := by
    funext q
    rw [table]
    split
    next here => rw [here, sound.idle s.made unmade]
    next => rfl
  have rx : (s.fromShared version).rxRoom (j.sees s.made n) = s.rxRoom j := by rw [rxRoom, changed]; rfl
  refine ⟨sound.state, ?_, ?_, ?_, ?_, ?_, sound.tx, ?_, ?_⟩
  · intro q made
    have made : q < s.made + 1 := made
    rw [table]
    change _ = word (Function.update j.seen s.made n q) false ∧ Function.update j.seen s.made n q ≤ j.increments
    by_cases here : q = s.made
    · rw [if_pos here, here, Function.update_self]
      exact old
    · rw [if_neg here, Function.update_of_ne here]
      exact sound.versions q (by omega)
  · have fresh : s.made ∉ s.living := fun member => absurd (mem_living.mp member).1 (lt_irrefl _)
    rw [living_fromShared, Finset.card_insert_of_notMem fresh, ← sound.counted]
    rfl
  · intro q beyond
    have beyond : s.made + 1 ≤ q := beyond
    rw [table, if_neg (by omega)]
    exact sound.unmade q (by omega)
  · intro q
    rw [table]
    split
    next => simp
    next => exact sound.idle q
  · rw [rx]
    exact sound.rx
  · intro q listed
    rw [rx] at listed
    have current := sound.current q listed
    obtain ⟨i, waits, _⟩ := listed
    have other : q ≠ s.made := by
      rintro rfl
      have idle := sound.idle s.made unmade
      change (s.receivers s.made).changed = some i at waits
      rw [idle] at waits
      cases waits
    rw [table, if_neg other]
    exact current
  · intro q _
    exact Nat.succ_ne_zero _

theorem dropReceiver_ok (sound : Sound s j) (alive : (s.receivers r).dropped = false)
    (free : (s.receivers r).changed = none) :
    ∃ t wakers, s.dropReceiver r = .ok (t, wakers) ∧ Sound t (j.wake wakers) := by
  let receiver : Receiver := { s.receivers r with dropped := true }
  have made := sound.alive alive
  have member : r ∈ s.living := mem_living.mpr ⟨made, alive⟩
  have many : s.refCountRx ≠ 0 := by
    rw [sound.counted]
    exact Finset.card_ne_zero_of_mem member
  let u : Watch T W := { s.setReceiver r receiver with refCountRx := s.refCountRx - 1 }
  have table (q : Nat) : u.receivers q = if q = r then receiver else s.receivers q := Function.update_apply ..
  have changed : (fun q => (u.receivers q).changed) = fun q => (s.receivers q).changed := by
    funext q
    rw [table]
    split
    next here => rw [here]
    next => rfl
  have rx : u.rxRoom j = s.rxRoom j := by rw [rxRoom, changed]; rfl
  have dropped (notify : Notify W) (wakers : List W)
      (tx : (txRoom { u with notifyTx := notify } (j.wake wakers)).Sound)
      (present : ∀ q, (txRoom { u with notifyTx := notify } (j.wake wakers)).Listed q → u.refCountRx ≠ 0) :
      Sound { u with notifyTx := notify } (j.wake wakers) := by
    refine ⟨sound.state, ?_, ?_, ?_, ?_, ?_, tx, ?_, present⟩
    · intro q made
      rw [table]
      split
      next here => rw [here]; exact sound.versions r (sound.alive alive)
      next => exact sound.versions q made
    · change s.refCountRx - 1 = (s.setReceiver r receiver).living.card
      rw [living_drop rfl, Finset.card_erase_of_mem member, sound.counted]
    · intro q unmade
      rw [table]
      split
      next => rfl
      next => exact sound.unmade q unmade
    · intro q
      rw [table]
      split
      next => exact fun _ => free
      next => exact sound.idle q
    · change Room.Sound { u.rxRoom j with woken := fun p => (u.rxRoom j).woken p ++ wakers }
      rw [rx]
      exact sound.rx.heard wakers
    · intro q listed
      change (u.rxRoom j).Listed q at listed
      rw [rx] at listed
      have current := sound.current q listed
      rw [table]
      split
      next here => rw [here] at current; exact current
      next => exact current
  by_cases last : s.refCountRx = 1
  · have before : (u.txRoom j).Sound := sound.tx
    obtain ⟨notify, wakers, ran, tx, empty⟩ := notifySender_ok before
    refine ⟨{ u with notifyTx := notify }, wakers, ?_, dropped notify wakers tx ?_⟩
    · simp only [dropReceiver]
      rw [if_pos last]
      exact ran
    · rintro q ⟨i, _, listed⟩
      change i ∈ notify.waiters at listed
      rw [empty] at listed
      cases listed
  · refine ⟨u, [], ?_, dropped s.notifyTx [] ?_ ?_⟩
    · simp only [dropReceiver]
      rw [if_neg last]
    · rw [Journal.wake_nil]
      exact sound.tx
    · intro q _
      change s.refCountRx - 1 ≠ 0
      omega

end Counting

section Sending

theorem sendModify_ok (sound : Sound s j) (modify : T → T × Bool) : ∃ answer t wakers,
    s.sendModify modify = .ok (answer, t, wakers) ∧ t.value = (modify s.value).1 ∧
      match (modify s.value).2 with
      | true => answer = .panicked ∧ t = { s with value := (modify s.value).1 } ∧ wakers = []
      | false => answer = .none ∧ t.state = State.incrementVersion s.state ∧
        Sound t ({ j with increments := j.increments + 1 }.wake wakers) := by
  obtain ⟨answer, t, wakers, ran, value, spec⟩ := sendIfModified_ok sound fun value =>
    ((modify value).1, if (modify value).2 then .panicked else .modified)
  cases panics : (modify s.value).2 with
  | true =>
    simp only [panics, if_true] at spec
    obtain ⟨rfl, same, none⟩ := spec
    exact ⟨.panicked, t, wakers, by rw [sendModify, ran]; rfl, value, rfl, same, none⟩
  | false =>
    simp only [panics, Bool.false_eq_true, if_false] at spec
    obtain ⟨rfl, state, after⟩ := spec
    exact ⟨.none, t, wakers, by rw [sendModify, ran]; rfl, value, rfl, state, after⟩

theorem sendReplace_ok (sound : Sound s j) (value : T) : ∃ t wakers,
    s.sendReplace value = .ok (.value s.value, t, wakers) ∧ t.value = value ∧
      t.state = State.incrementVersion s.state ∧ Sound t ({ j with increments := j.increments + 1 }.wake wakers) := by
  obtain ⟨answer, t, wakers, ran, same, _, state, after⟩ := sendModify_ok sound fun _ => (value, false)
  exact ⟨t, wakers, by rw [sendReplace, ran]; rfl, same, state, after⟩

theorem send_ok (sound : Sound s j) (value : T) (some : s.refCountRx ≠ 0) : ∃ t wakers,
    s.send value = .ok (.sent (.ok ()), t, wakers) ∧ t.value = value ∧
      t.state = State.incrementVersion s.state ∧ Sound t ({ j with increments := j.increments + 1 }.wake wakers) := by
  obtain ⟨t, wakers, ran, rest⟩ := sendReplace_ok sound value
  exact ⟨t, wakers, by rw [send, if_neg some, ran]; rfl, rest⟩

end Sending

section Reaching

variable [Wakers W]

theorem perform_ok (sound : Sound s j) (a : WatchAction T W) (allowed : s.allowed a = true) :
    ∃ answer t wakers, s.perform a = .ok (answer, t, wakers) ∧ Sound t ((j.note s a answer).wake wakers) := by
  have free {r : Nat} (allowed : (!(s.receivers r).dropped && (s.receivers r).changed.isNone) = true) :
      (s.receivers r).dropped = false ∧ (s.receivers r).changed = none := by simpa using allowed
  cases a with
  | send value =>
    by_cases none : s.refCountRx = 0
    · refine ⟨.sent (.error value), s, [], by simp [perform, send, none], ?_⟩
      rw [Journal.wake_nil]
      exact sound
    · obtain ⟨t, wakers, ran, _, _, after⟩ := send_ok sound value none
      exact ⟨_, t, wakers, ran, after⟩
  | sendReplace value =>
    obtain ⟨t, wakers, ran, _, _, after⟩ := sendReplace_ok sound value
    exact ⟨_, t, wakers, ran, after⟩
  | sendModify modify =>
    obtain ⟨answer, t, wakers, ran, _, spec⟩ := sendModify_ok sound modify
    refine ⟨answer, t, wakers, ran, ?_⟩
    split at spec
    next =>
      obtain ⟨rfl, rfl, rfl⟩ := spec
      rw [Journal.wake_nil]
      exact sound.value _
    next =>
      obtain ⟨rfl, _, after⟩ := spec
      exact after
  | sendIfModified modify =>
    obtain ⟨answer, t, wakers, ran, _, spec⟩ := sendIfModified_ok sound modify
    refine ⟨answer, t, wakers, ran, ?_⟩
    split at spec
    next =>
      obtain ⟨rfl, _, after⟩ := spec
      exact after
    next =>
      obtain ⟨rfl, rfl, rfl⟩ := spec
      rw [Journal.wake_nil]
      exact sound.value _
    next =>
      obtain ⟨rfl, rfl, rfl⟩ := spec
      rw [Journal.wake_nil]
      exact sound.value _
  | subscribe =>
    refine ⟨.none, s.subscribe, [], rfl, ?_⟩
    rw [Journal.wake_nil]
    have old : State.version s.state = word j.increments false := by rw [sound.state, version_word]
    exact fromShared_sound sound ⟨old, le_refl _⟩
  | dropSender =>
    obtain ⟨t, wakers, ran, after⟩ := dropSender_ok sound
    exact ⟨.none, t, wakers, by rw [perform, ran]; rfl, after⟩
  | clone r =>
    obtain ⟨alive, _⟩ := free allowed
    refine ⟨.none, s.clone r, [], rfl, ?_⟩
    rw [Journal.wake_nil]
    exact fromShared_sound sound (sound.versions r (sound.alive alive))
  | dropReceiver r =>
    obtain ⟨alive, idle⟩ := free allowed
    obtain ⟨t, wakers, ran, after⟩ := dropReceiver_ok sound alive idle
    exact ⟨.none, t, wakers, by rw [perform, ran]; rfl, after⟩
  | borrow =>
    refine ⟨.value s.value, s, [], rfl, ?_⟩
    rw [Journal.wake_nil]
    exact sound
  | borrowAndUpdate r =>
    obtain ⟨alive, _⟩ := free allowed
    refine ⟨.value s.value, s.borrowAndUpdate r, [], rfl, ?_⟩
    rw [Journal.wake_nil]
    exact borrowAndUpdate_sound sound alive
  | pollChanged r waker =>
    have alive : (s.receivers r).dropped = false := by simpa [Watch.allowed] using allowed
    obtain ⟨t, ran, after, _⟩ := pollChanged_ok sound alive waker
    refine ⟨.changed (s.reads r), t, [], by rw [perform, ran]; rfl, ?_⟩
    rw [Journal.wake_nil]
    exact after
  | cancelChanged r =>
    have alive : (s.receivers r).dropped = false := by simpa [Watch.allowed] using allowed
    obtain ⟨t, ran, after, _⟩ := cancelChanged_ok sound alive
    refine ⟨.none, t, [], by rw [perform, ran]; rfl, ?_⟩
    rw [Journal.wake_nil]
    exact after
  | pollClosed c waker =>
    obtain ⟨t, ran, after⟩ := pollClosed_ok sound waker
    refine ⟨.closed (decide (s.refCountRx = 0)), t, [], by rw [perform, ran]; rfl, ?_⟩
    rw [Journal.wake_nil]
    exact after
  | cancelClosed c =>
    obtain ⟨t, ran, after⟩ := cancelClosed_ok sound
    refine ⟨.none, t, [], by rw [perform, ran]; rfl, ?_⟩
    rw [Journal.wake_nil]
    exact after

theorem step_kept (sound : Sound s j) (a : WatchAction T W) : (s.step a).Kept fun t =>
    ∃ answer wakers, s.perform a = .ok (answer, t, wakers) ∧ Sound t ((j.note s a answer).wake wakers) := by
  unfold step
  split
  next allowed =>
    obtain ⟨answer, t, wakers, ran, after⟩ := perform_ok sound a allowed
    rw [ran]
    exact ⟨answer, wakers, rfl, after⟩
  next => trivial

theorem reachable_sound (reached : (journaled T W).Reachable (s, j)) : Sound s j := by
  apply System.Reachable.watched (P := Sound) _ _ reached
  · rintro _ ⟨init, rfl⟩
    exact channel_sound init
  · intro s j a t _ sound _ stepped
    obtain ⟨answer, wakers, ran, after⟩ := (step_kept sound a).next stepped
    have told : j.observe s a t = (j.note s a answer).wake wakers := by simp only [Journal.observe, ran]
    rw [told]
    exact after

end Reaching

end Osaka.Sync.Watch
