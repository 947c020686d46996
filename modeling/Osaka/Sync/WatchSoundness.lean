import Osaka.Sync.WatchSteps

set_option autoImplicit false

namespace Osaka.Sync.Watch

open Transitions

variable {T W : Type} {s t : Watch T W}

section Journals

structure Journal (W : Type) where
  increments : Nat
  -- the increments when the receiver last saw a value
  seen : Nat → Nat
  -- the waker given last to changed, while it is pending, and the wakers woken since
  rxAsked : Nat → Option W
  rxWoken : Nat → List W
  -- the same of closed
  txAsked : Nat → Option W
  txWoken : Nat → List W

def Journal.first : Journal W := ⟨0, fun _ => 0, fun _ => none, fun _ => [], fun _ => none, fun _ => []⟩

variable (j : Journal W)

def Journal.sees (r n : Nat) : Journal W := { j with seen := Function.update j.seen r n }

def Journal.asksRx (r : Nat) (waker : Option W) : Journal W :=
  { j with rxAsked := Function.update j.rxAsked r waker, rxWoken := Function.update j.rxWoken r [] }

def Journal.asksTx (k : Nat) (waker : Option W) : Journal W :=
  { j with txAsked := Function.update j.txAsked k waker, txWoken := Function.update j.txWoken k [] }

def Journal.note (s : Watch T W) : WatchAction T W → Answer T → Journal W
  | .send _, .sent (.ok _) | .sendReplace _, _ | .sendModify _, .none | .sendIfModified _, .modified true =>
    { j with increments := j.increments + 1 }
  | .subscribe, _ => j.sees s.made j.increments
  | .clone r, _ => j.sees s.made (j.seen r)
  | .borrowAndUpdate r, _ => j.sees r j.increments
  | .pollChanged r waker, .changed none => j.asksRx r (some waker)
  | .pollChanged r _, .changed (some (.ok _)) => (j.sees r j.increments).asksRx r none
  | .pollChanged r _, _ | .cancelChanged r, _ => j.asksRx r none
  | .pollClosed k waker, .closed false => j.asksTx k (some waker)
  | .pollClosed k _, _ | .cancelClosed k, _ => j.asksTx k none
  | _, _ => j

def Journal.wake (wakers : List W) : Journal W :=
  { j with rxWoken := fun r => j.rxWoken r ++ wakers, txWoken := fun k => j.txWoken k ++ wakers }

@[simp]
theorem Journal.wake_nil : j.wake [] = j := by simp [Journal.wake]

variable [Wakers W]

def Journal.observe (j : Journal W) (s : Watch T W) (a : WatchAction T W) (_ : Watch T W) : Journal W :=
  match s.perform a with
  | .error _ => j
  | .ok (answer, _, wakers) => (j.note s a answer).wake wakers

def journaled (T W : Type) [Wakers W] : System (Watch T W × Journal W) (WatchAction T W) Fault :=
  (machine T W).observed .first Journal.observe

instance : DecidablePred (journaled T W).within := fun _ => inferInstanceAs (Decidable True)

end Journals

section Soundness

variable {j k : Journal W}

def rxRoom (s : Watch T W) (j : Journal W) : Room W :=
  ⟨s.notifyRx, fun r => (s.receivers r).changed, j.rxAsked, j.rxWoken⟩

def txRoom (s : Watch T W) (j : Journal W) : Room W := ⟨s.notifyTx, s.closings, j.txAsked, j.txWoken⟩

structure Sound (s : Watch T W) (j : Journal W) : Prop where
  state : s.state = word j.increments (!s.sender)
  versions : ∀ r, r < s.made → (s.receivers r).version = word (j.seen r) false ∧ j.seen r ≤ j.increments
  counted : s.refCountRx = s.living.card
  unmade : ∀ r, s.made ≤ r → (s.receivers r).dropped = true
  idle : ∀ r, (s.receivers r).dropped = true → (s.receivers r).changed = none
  rx : (s.rxRoom j).Sound
  tx : (s.txRoom j).Sound
  -- who has not been notified has seen what there is
  current : ∀ r, (s.rxRoom j).Listed r → (s.receivers r).version = State.version s.state ∧ s.sender = true
  present : ∀ k, (s.txRoom j).Listed k → s.refCountRx ≠ 0

theorem channel_sound (init : T) : Sound (channel init) (.first : Journal W) := by
  refine ⟨rfl, ?_, ?_, ?_, fun _ _ => rfl, Room.first_sound, Room.first_sound, ?_, ?_⟩
  · intro r _
    exact ⟨rfl, le_refl _⟩
  · have one : (channel (W := W) init).living = {0} := by
      ext r
      rw [mem_living, Finset.mem_singleton]
      simp [channel]
    rw [one]
    rfl
  · intro r made
    have other : r ≠ 0 := by
      rintro rfl
      simp [channel] at made
    simp [channel, other]
  · rintro r ⟨i, waits, _⟩
    cases waits
  · rintro k ⟨i, waits, _⟩
    cases waits

theorem Sound.value (sound : Sound s j) (value : T) : Sound { s with value := value } j :=
  { sound with }

theorem Sound.alive {r : Nat} (sound : Sound s j) (alive : (s.receivers r).dropped = false) : r < s.made := by
  by_contra beyond
  rw [sound.unmade r (by omega)] at alive
  cases alive

end Soundness

section Telling

variable {j : Journal W}

theorem notifyReceivers_ok (rx : (s.rxRoom j).Sound) : ∃ notify wakers,
    s.notifyReceivers = .ok ({ s with notifyRx := notify }, wakers) ∧
      (rxRoom { s with notifyRx := notify } (j.wake wakers)).Sound ∧ notify.waiters = [] := by
  obtain ⟨notify, wakers, ran, sound, empty⟩ := rx.tell
  have told : s.notifyRx.notifyWaiters = .ok (notify, wakers) := ran
  exact ⟨notify, wakers, by simp only [notifyReceivers, told], sound, empty⟩

theorem notifySender_ok (tx : (s.txRoom j).Sound) : ∃ notify wakers,
    s.notifySender = .ok ({ s with notifyTx := notify }, wakers) ∧
      (txRoom { s with notifyTx := notify } (j.wake wakers)).Sound ∧ notify.waiters = [] := by
  obtain ⟨notify, wakers, ran, sound, empty⟩ := tx.tell
  have told : s.notifyTx.notifyWaiters = .ok (notify, wakers) := ran
  exact ⟨notify, wakers, by simp only [notifySender, told], sound, empty⟩

theorem sendIfModified_ok (sound : Sound s j) (modify : T → T × Verdict) : ∃ answer t wakers,
    s.sendIfModified modify = .ok (answer, t, wakers) ∧ t.value = (modify s.value).1 ∧
      match (modify s.value).2 with
      | .modified => answer = .modified true ∧ t.state = State.incrementVersion s.state ∧
        Sound t ({ j with increments := j.increments + 1 }.wake wakers)
      | .unmodified => answer = .modified false ∧ t = { s with value := (modify s.value).1 } ∧ wakers = []
      | .panicked => answer = .panicked ∧ t = { s with value := (modify s.value).1 } ∧ wakers = [] := by
  unfold sendIfModified
  cases verdict : (modify s.value).2 with
  | unmodified => exact ⟨_, _, _, by simp only [verdict], rfl, rfl, rfl, rfl⟩
  | panicked => exact ⟨_, _, _, by simp only [verdict], rfl, rfl, rfl, rfl⟩
  | modified =>
    let u : Watch T W := { s with value := (modify s.value).1, state := State.incrementVersion s.state }
    let k : Journal W := { j with increments := j.increments + 1 }
    have before : (u.rxRoom k).Sound := sound.rx
    obtain ⟨notify, wakers, ran, rx, empty⟩ := notifyReceivers_ok before
    refine ⟨.modified true, { u with notifyRx := notify }, wakers, ?_, rfl, rfl, rfl, ?_⟩
    · simp only [verdict]
      change u.notifyReceivers.map _ = _
      rw [ran]
      rfl
    · refine ⟨?_, ?_, sound.counted, sound.unmade, sound.idle, rx, sound.tx.heard wakers, ?_, sound.present⟩
      · change State.incrementVersion s.state = _
        rw [sound.state, incrementVersion_word]
        rfl
      · intro r made
        obtain ⟨version, old⟩ := sound.versions r made
        exact ⟨version, Nat.le_succ_of_le old⟩
      · rintro r ⟨i, _, listed⟩
        change i ∈ notify.waiters at listed
        rw [empty] at listed
        cases listed

theorem dropSender_ok (sound : Sound s j) : ∃ t wakers, s.dropSender = .ok (t, wakers) ∧ Sound t (j.wake wakers) := by
  let u : Watch T W := { s with state := State.setClosed s.state, sender := false }
  have before : (u.rxRoom j).Sound := sound.rx
  obtain ⟨notify, wakers, ran, rx, empty⟩ := notifyReceivers_ok before
  refine ⟨{ u with notifyRx := notify }, wakers, ran, ?_⟩
  refine ⟨?_, sound.versions, sound.counted, sound.unmade, sound.idle, rx, sound.tx.heard wakers, ?_, sound.present⟩
  · change State.setClosed s.state = _
    rw [sound.state, setClosed_word]
    rfl
  · rintro r ⟨i, _, listed⟩
    change i ∈ notify.waiters at listed
    rw [empty] at listed
    cases listed

end Telling

end Osaka.Sync.Watch
