import Osaka.Sync.OneshotReceiving
import Osaka.Sync.OneshotSending

set_option autoImplicit false

namespace Osaka.Sync.Oneshot

open GuardedCell Transitions

variable {T W : Type} {s t : Oneshot T W} {j k : Journal T W}

section Calls

theorem Sound.calls {tx : Sender T W} {passed : List T} (sound : Sound s j) (here : s.tx = .idle)
    (next : tx = .complete false ∧ passed = [] ∨ ∃ given, tx = .send given ∧ passed = [given]) :
    Sound { s with tx := tx } { j with passed := j.passed ++ passed } := by
  have undecided : s.tx.undecided = true := by rw [here]; rfl
  have pending := sound.undecided.mp undecided
  have alive : s.freed = false := by rw [sound.freed, here]; rfl
  have carries := sound.carries
  rw [here] at carries
  obtain ⟨nothing, empty⟩ := carries
  obtain ⟨returned, givenBack, discarded⟩ := sound.undelivered undecided
  rcases next with ⟨rfl, rfl⟩ | ⟨given, rfl, rfl⟩
  all_goals exact
    { sound with
      undecided := by simp [Sender.undecided, pending]
      seen := by simp
      wakes := by simp
      takes := by simp
      few := by simp [nothing]
      placed := by simp [nothing, empty, Sender.hand, returned, givenBack, discarded]
      carries := by simp [Carries, nothing, empty]
      back := fun _ => .inr empty
      freed := by simp [alive, Sender.holds]
      emptied := fun freed => by simp [alive] at freed }

theorem Sound.idles {rx : Receiver W} {due : Option T} (sound : Sound s j) (here : s.rx = .idle false)
    (next : rx = .idle false ∨ rx = .gone) : Sound { s with rx := rx } { j with due := due } := by
  have freed := sound.freed
  have spent := sound.spent
  rw [here] at freed spent
  exact
    { sound with
      awaits := by rcases next with rfl | rfl <;> trivial
      left := fun _ => sound.left (.inl (by rw [here]; rfl))
      spent := by
        rcases next with rfl | rfl
        · exact spent
        · trivial
      freed := by rcases next with rfl | rfl <;> exact freed }

theorem Changes.idles {rx : Receiver W} (sound : Sound s j) (here : s.rx = .idle false)
    (next : rx = .idle false ∨ rx = .gone) (books : k.rx = j.rx ∧ k.tx = j.tx) : Changes s { s with rx := rx } j k := by
  have before : s.rx.waking = false ∧ s.rx.stage = none := by rw [here]; exact ⟨rfl, rfl⟩
  have after : rx.waking = false ∧ rx.stage = none := by rcases next with rfl | rfl <;> exact ⟨rfl, rfl⟩
  rcases Bool.eq_false_or_eq_true s.freed with freed | alive
  next =>
    obtain ⟨_, rxTask, txTask⟩ := sound.emptied freed
    have gone : s.tx.waking = false := by
      have both := sound.freed
      rw [freed] at both
      cases tx : s.tx with
      | wake sending =>
        rw [tx] at both
        cases both
      | _ => rfl
    refine .frees freed rfl ⟨rxTask, txTask⟩ ⟨gone, before.1⟩ ?_ ?_
    · simp [books.1, rxTask]
    · simp [books.2, txTask]
  next => exact .aside alive ⟨rfl, rfl⟩ ⟨before.1.trans after.1.symm, before.2.trans after.2.symm⟩ books

theorem idle_tx (allowed : (match s.tx with | .idle => true | _ => false) = true) : s.tx = .idle := by
  split at allowed
  next here => exact here
  next => cases allowed

theorem idle_rx (allowed : (match s.rx with | .idle _ => true | _ => false) = true) : ∃ inner, s.rx = .idle inner := by
  split at allowed
  next inner here => exact ⟨inner, here⟩
  next => cases allowed

theorem asked (value : Option T) (complete : Bool) (given : T) (due : (if complete then value else none) = some given) :
    complete = true ∧ value = some given := by
  cases complete with
  | true => exact ⟨rfl, due⟩
  | false => cases due

variable [Wakers W]

theorem Sound.callsWithout {a : OneshotAction T W} {reply : Option (Reply T)} {rx : Receiver W} {due : Option T}
    (sound : Sound s j) (called : s.perform a = .ok (reply, { s with rx := rx }))
    (told : j.observe s a { s with rx := rx } = { j with due := due })
    (here : s.rx = .idle false) (next : rx = .idle false ∨ rx = .gone) :
    ∃ reply t, s.perform a = .ok (reply, t) ∧ Sound t (j.observe s a t) ∧ Changes s t j (j.observe s a t) := by
  refine ⟨_, _, called, ?_⟩
  rw [told]
  exact ⟨sound.idles here next, .idles sound here next ⟨rfl, rfl⟩⟩

theorem Sound.callsWith {a : OneshotAction T W} {reply : Option (Reply T)} {rx : Receiver W} {due : Option T}
    (sound : Sound s j) (called : s.perform a = .ok (reply, { s with rx := rx }))
    (told : j.observe s a { s with rx := rx } = { j with due := due })
    (here : s.rx = .idle true) (next : rx.holds = true ∧ rx.waking = false ∧ rx.stage = none)
    (awaits : Awaits due s.value (State.has s.state .valueSent) rx) (stays : ∀ dropping, rx ≠ .release dropping)
    (spent : Spent s.value (State.has s.state .valueSent) rx) :
    ∃ reply t, s.perform a = .ok (reply, t) ∧ Sound t (j.observe s a t) ∧ Changes s t j (j.observe s a t) := by
  have alive : s.freed = false := by rw [sound.freed, here]; simp [Receiver.holds]
  have before : s.rx.holds = true ∧ s.rx.waking = false ∧ s.rx.stage = none := by rw [here]; exact ⟨rfl, rfl, rfl⟩
  refine ⟨_, _, called, ?_⟩
  rw [told]
  refine ⟨sound.turns before.1 next.1 (fun _ _ => rfl) awaits (fun leaves => leaves.elim fun dropping leaving => absurd leaving (stays dropping)) spent, ?_⟩
  exact .aside alive ⟨rfl, rfl⟩ ⟨before.2.1.trans next.2.1.symm, before.2.2.trans next.2.2.symm⟩ ⟨rfl, rfl⟩

theorem perform_sound (sound : Sound s j) (guarded : Guarded s) (a : OneshotAction T W) (allowed : s.allowed a = true) :
    ∃ reply t, s.perform a = .ok (reply, t) ∧ Sound t (j.observe s a t) ∧ Changes s t j (j.observe s a t) := by
  cases a with
  | stepSender spurious =>
    obtain ⟨reply, t, ran, rest⟩ := stepSender_sound sound guarded allowed
    have told : j.observe s (.stepSender spurious) t = j.sender s t reply := by simp only [Journal.observe, perform, ran]
    refine ⟨reply, t, ran, ?_⟩
    rw [told]
    exact rest
  | stepReceiver =>
    obtain ⟨reply, t, ran, rest⟩ := stepReceiver_sound sound guarded allowed
    have told : j.observe s .stepReceiver t = j.receiver s t reply := by simp only [Journal.observe, perform, ran]
    refine ⟨reply, t, ran, ?_⟩
    rw [told]
    exact rest
  | pollClosed waker =>
    have here := idle_tx allowed
    have alive : s.freed = false := by rw [sound.freed, here]; rfl
    have rests : s.txView.stage = none := by simp [txView, here, Sender.stage]
    refine ⟨_, _, rfl, sound.resting (.inl here) (.inr ⟨_, rfl⟩) fun _ _ => rfl, .moves alive alive ?_ (.call rests)⟩
    have same : rxView { s with tx := .pollClosed (.load waker) } = s.rxView := by simp [rxView, here, Sender.waking]
    rw [same]
    exact .same
  | send given =>
    have here := idle_tx allowed
    have alive : s.freed = false := by rw [sound.freed, here]; rfl
    refine ⟨_, _, rfl, sound.calls here (.inr ⟨given, rfl, rfl⟩), .aside alive ?_ ⟨rfl, rfl⟩ ⟨rfl, rfl⟩⟩
    rw [here]
    exact ⟨rfl, rfl⟩
  | dropSender =>
    have here := idle_tx allowed
    have alive : s.freed = false := by rw [sound.freed, here]; rfl
    have called := sound.calls here (.inl ⟨rfl, rfl⟩)
    rw [List.append_nil] at called
    refine ⟨_, _, rfl, called, .aside alive ?_ ⟨rfl, rfl⟩ ⟨rfl, rfl⟩⟩
    rw [here]
    exact ⟨rfl, rfl⟩
  | poll waker =>
    have here : s.rx = .idle true := by
      simp only [Oneshot.allowed] at allowed
      split at allowed
      next inner here => rw [here, allowed]
      next => cases allowed
    have alive : s.freed = false := by rw [sound.freed, here]; simp [Receiver.holds]
    have rests : s.rxView.stage = none := by simp [rxView, here, Receiver.stage]
    refine ⟨_, _, rfl, sound.turns (by rw [here]; rfl) rfl (fun _ _ => rfl) (asked _ _) (by simp) trivial,
      .moves alive alive (.call rests) ?_⟩
    have same : txView { s with rx := .poll (.load waker) } = s.txView := by simp [txView, here, Receiver.waking]
    simp only [Journal.observe, perform]
    rw [same]
    exact .same
  | tryRecv =>
    obtain ⟨inner, here⟩ := idle_rx allowed
    cases inner with
    | false =>
      have same : { s with rx := .idle false } = s := by rw [← here]
      have called : s.perform .tryRecv = .ok (some (.tried (.error .closed)), { s with rx := .idle false }) := by
        rw [same]
        simp [perform, here, Receiver.holds]
      have told : j.observe s .tryRecv { s with rx := .idle false } = j.asks s := by simp only [Journal.observe, called]
      exact sound.callsWithout called told here (.inl rfl)
    | true =>
      have called : s.perform .tryRecv = .ok (none, { s with rx := .tryRecv }) := by simp [perform, here, Receiver.holds]
      have told : j.observe s .tryRecv { s with rx := .tryRecv } = j.asks s := by simp only [Journal.observe, called]
      exact sound.callsWith called told here ⟨rfl, rfl, rfl⟩ (asked _ _) (by simp) trivial
  | close =>
    obtain ⟨inner, here⟩ := idle_rx allowed
    cases inner with
    | false =>
      have same : { s with rx := .idle false } = s := by rw [← here]
      have called : s.perform .close = .ok (none, { s with rx := .idle false }) := by
        rw [same]
        simp [perform, here, Receiver.holds]
      have told : j.observe s .close { s with rx := .idle false } = j := by simp only [Journal.observe, called]
      exact sound.callsWithout called told here (.inl rfl)
    | true =>
      have called : s.perform .close = .ok (none, { s with rx := .close false }) := by
        simp [perform, here, Receiver.holds]
      have told : j.observe s .close { s with rx := .close false } = j := by simp only [Journal.observe, called]
      exact sound.callsWith called told here ⟨rfl, rfl, rfl⟩ trivial (by simp) trivial
  | dropReceiver =>
    obtain ⟨inner, here⟩ := idle_rx allowed
    cases inner with
    | false =>
      have called : s.perform .dropReceiver = .ok (none, { s with rx := .gone }) := by
        simp [perform, here, Receiver.holds]
      have told : j.observe s .dropReceiver { s with rx := .gone } = j := by simp only [Journal.observe, called]
      exact sound.callsWithout called told here (.inr rfl)
    | true =>
      have called : s.perform .dropReceiver = .ok (none, { s with rx := .close true }) := by
        simp [perform, here, Receiver.holds]
      have told : j.observe s .dropReceiver { s with rx := .close true } = j := by simp only [Journal.observe, called]
      exact sound.callsWith called told here ⟨rfl, rfl, rfl⟩ trivial (by simp) trivial

end Calls

section Reaching

structure Kept (s : Oneshot T W) (j : Journal T W) : Prop where
  sound : Sound s j
  rx : Tidy s.rxView j.rx s.freed
  tx : Tidy s.txView j.tx s.freed

theorem Kept.guarded (kept : Kept s j) : Guarded s := fun alive => ⟨kept.rx.safe alive, kept.tx.safe alive⟩

theorem channel_kept : Kept (channel : Oneshot T W) .first :=
  ⟨channel_sound,
    ⟨fun _ => (channel_guarded rfl).1, rfl, fun _ => ⟨nofun, nofun⟩, nofun⟩,
    ⟨fun _ => (channel_guarded rfl).2, rfl, fun _ => ⟨nofun, nofun⟩, nofun⟩⟩

theorem Changes.tidy (changes : Changes s t j k) (rx : Tidy s.rxView j.rx s.freed) (tx : Tidy s.txView j.tx s.freed) :
    Tidy t.rxView k.rx t.freed ∧ Tidy t.txView k.tx t.freed := by
  cases changes with
  | moves before after rxMove txMove =>
    rw [before] at rx tx
    rw [after]
    exact ⟨rx.moves rxMove, tx.moves txMove⟩
  | frees freed state tasks waking rxBook txBook =>
    rw [freed, rxBook, txBook]
    constructor
    · exact rx.frees waking.1 (by simp [rxView, state]) tasks.1
    · exact tx.frees waking.2 (by simp [txView, state]) tasks.2

variable [Wakers W]

theorem perform_kept (kept : Kept s j) {a : OneshotAction T W} (allowed : s.allowed a = true) :
    ∃ reply t, s.perform a = .ok (reply, t) ∧ Kept t (j.observe s a t) := by
  obtain ⟨reply, t, ran, sound, changes⟩ := perform_sound kept.sound kept.guarded a allowed
  have tidy := changes.tidy kept.rx kept.tx
  exact ⟨reply, t, ran, sound, tidy.1, tidy.2⟩

theorem step_taken {a : OneshotAction T W} (stepped : s.step a = .next t) :
    s.allowed a = true ∧ ∃ reply, s.perform a = .ok (reply, t) := by
  unfold step at stepped
  split at stepped
  next allowed =>
    cases ran : s.perform a with
    | error fault => simp [ran, Outcome.attempt] at stepped
    | ok performed =>
      obtain ⟨reply, u⟩ := performed
      simp only [ran, Outcome.attempt_ok, Outcome.next.injEq] at stepped
      exact ⟨allowed, reply, by rw [stepped]⟩
  next => cases stepped

theorem reachable_kept (reached : (journaled T W).Reachable (s, j)) : Kept s j := by
  apply System.Reachable.watched (P := Kept) _ _ reached
  · rintro _ rfl
    exact channel_kept
  · intro s j a t _ kept _ stepped
    obtain ⟨allowed, reply, ran⟩ := step_taken stepped
    obtain ⟨_, u, ran', after⟩ := perform_kept kept allowed
    rw [ran] at ran'
    obtain ⟨rfl, rfl⟩ : _ = _ ∧ t = u := by simpa using ran'
    exact after

theorem step_sound (reached : (machine T W).Reachable s) (a : OneshotAction T W) (fault : Fault) :
    s.step a ≠ .failed fault := by
  obtain ⟨j, seen⟩ : ∃ j, (journaled T W).Reachable (s, j) := reached.observed
  unfold step
  split
  next allowed =>
    obtain ⟨reply, t, ran, _⟩ := perform_kept (reachable_kept seen) allowed
    simp [ran]
  next => exact nofun

end Reaching

end Osaka.Sync.Oneshot
