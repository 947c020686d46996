import Osaka.Sync.NotifyRuns
import Osaka.Sync.Watch

set_option autoImplicit false

namespace Osaka.Sync.Watch

open Transitions

variable {W : Type}

/-- A Notify that is told by notify_waiters alone, and who awaits it, each with one future at a time. -/
structure Room (W : Type) where
  notify : Notify W
  waits : Nat → Option Nat
  -- the waker given last by those that wait, and the wakers woken since
  asked : Nat → Option W
  woken : Nat → List W

namespace Room

variable {room : Room W} {p q i : Nat} {waker : W}

def Listed (room : Room W) (p : Nat) : Prop := ∃ i, room.waits p = some i ∧ i ∈ room.notify.waiters

structure Sound (room : Room W) : Prop where
  wellFormed : room.notify.WellFormed
  unpermitted : room.notify.permit = false
  many : ∀ i, (room.notify.notifieds i).waiter.notified ≠ some .oneWaiter
  waiting : ∀ p i, room.waits p = some i →
    (room.notify.notifieds i).dropped = false ∧ (room.notify.notifieds i).state = .waiting
  apart : ∀ p q i, room.waits p = some i → room.waits q = some i → p = q
  asks : ∀ p waker, room.asked p = some waker → ∃ i, room.waits p = some i ∧
    (i ∈ room.notify.waiters ∧ (room.notify.notifieds i).waiter.waker = some waker ∨ waker ∈ room.woken p)

def first : Room W := ⟨.new, fun _ => none, fun _ => none, fun _ => []⟩

theorem first_sound : (first : Room W).Sound := by
  refine ⟨Notify.new_wellFormed, ?_, ?_, nofun, nofun, nofun⟩
  · change (Notify.getState 0#64 == Notify.NOTIFIED) = false
    decide
  · intro i notified
    cases notified

theorem Sound.made (sound : room.Sound) (waits : room.waits p = some i) : i < room.notify.created :=
  sound.wellFormed.made (sound.waiting p i waits).1

theorem Sound.heard (sound : room.Sound) (wakers : List W) :
    Sound { room with woken := fun p => room.woken p ++ wakers } := by
  refine { sound with asks := ?_ }
  intro p waker asked
  obtain ⟨i, waits, attended⟩ := sound.asks p waker asked
  exact ⟨i, waits, attended.imp_right (List.mem_append_left wakers)⟩

theorem Sound.forget (sound : room.Sound) (p : Nat) :
    Sound { room with asked := Function.update room.asked p none, woken := Function.update room.woken p [] } := by
  refine { sound with asks := ?_ }
  intro q waker asked
  dsimp only at asked ⊢
  by_cases here : q = p
  · rw [here, Function.update_self] at asked
    cases asked
  · rw [Function.update_of_ne here] at asked ⊢
    exact sound.asks q waker asked

section Telling

theorem Sound.tell (sound : room.Sound) : ∃ notify wakers, room.notify.notifyWaiters = .ok (notify, wakers) ∧
    Sound { room with notify := notify, woken := fun p => room.woken p ++ wakers } ∧ notify.waiters = [] := by
  obtain ⟨notify, wakers, ran, broadcast⟩ := Notify.notifyWaiters_broadcast sound.wellFormed
  have each (j : Nat) : (notify.notifieds j).dropped = (room.notify.notifieds j).dropped ∧
      (notify.notifieds j).state = (room.notify.notifieds j).state ∧
      ((notify.notifieds j).waiter.notified = some .allWaiters ∨ notify.notifieds j = room.notify.notifieds j) := by
    by_cases member : j ∈ room.notify.waiters
    · rw [broadcast.woken j member]
      exact ⟨rfl, rfl, .inl rfl⟩
    · rw [broadcast.kept j member]
      exact ⟨rfl, rfl, .inr rfl⟩
  refine ⟨notify, wakers, ran, ⟨broadcast.wellFormed sound.wellFormed, ?_, ?_, ?_, sound.apart, ?_⟩, broadcast.waiters⟩
  · exact broadcast.permit.trans sound.unpermitted
  · intro j one
    rcases (each j).2.2 with all | same
    · rw [all] at one
      cases one
    · rw [same] at one
      exact sound.many j one
  · intro p j waits
    rw [(each j).1, (each j).2.1]
    exact sound.waiting p j waits
  · intro p waker asked
    obtain ⟨j, waits, attended⟩ := sound.asks p waker asked
    refine ⟨j, waits, .inr ?_⟩
    rcases attended with ⟨member, stored⟩ | woken
    · apply List.mem_append_right
      rw [broadcast.wakers]
      exact List.mem_filterMap.mpr ⟨j, member, stored⟩
    · exact List.mem_append_left _ woken

end Telling

section Looking

theorem Sound.other {notify : Notify W} (sound : room.Sound) (wf : notify.WellFormed) (unpermitted : notify.permit = false)
    (same : ∀ j, j ≠ i → notify.notifieds j = room.notify.notifieds j)
    (members : ∀ j, j ≠ i → (j ∈ notify.waiters ↔ j ∈ room.notify.waiters))
    (many : (notify.notifieds i).waiter.notified ≠ some .oneWaiter) (unawaited : ∀ p, room.waits p ≠ some i) :
    Sound { room with notify := notify } := by
  have apart (p j : Nat) (waits : room.waits p = some j) : j ≠ i := fun here => unawaited p (here ▸ waits)
  refine ⟨wf, unpermitted, ?_, ?_, sound.apart, ?_⟩
  · intro j
    by_cases here : j = i
    · rw [here]
      exact many
    · rw [same j here]
      exact sound.many j
  · intro p j waits
    rw [same j (apart p j waits)]
    exact sound.waiting p j waits
  · intro p waker asked
    obtain ⟨j, waits, attended⟩ := sound.asks p waker asked
    rw [← same j (apart p j waits), ← members j (apart p j waits)] at attended
    exact ⟨j, waits, attended⟩

theorem Sound.unawaited (sound : room.Sound) (p : Nat) : room.waits p ≠ some room.notify.created := by
  intro waits
  exact absurd (sound.made waits) (lt_irrefl _)

theorem notified_same {n : Notify W} {j : Nat} (other : j ≠ n.created) : n.notified.notifieds j = n.notifieds j :=
  Function.update_of_ne other _ _

theorem Sound.creates (sound : room.Sound) : Sound { room with notify := room.notify.notified } := by
  refine sound.other (i := room.notify.created) (Notify.notified_wellFormed sound.wellFormed) sound.unpermitted
    (fun j => notified_same) (fun _ _ => Iff.rfl) ?_ sound.unawaited
  simp [Notify.notified, Notify.setNotified]

end Looking

section Awaiting

theorem Sound.own (i : Nat) {notify : Notify W} {new : Option Nat} {asked : Option W} {woken : List W}
    (sound : room.Sound)
    (wf : notify.WellFormed) (unpermitted : notify.permit = false)
    (same : ∀ j, j ≠ i → notify.notifieds j = room.notify.notifieds j)
    (members : ∀ j, j ≠ i → (j ∈ notify.waiters ↔ j ∈ room.notify.waiters))
    (many : (notify.notifieds i).waiter.notified ≠ some .oneWaiter) (others : ∀ q, q ≠ p → room.waits q ≠ some i)
    (waiting : ∀ j, new = some j → j = i ∧ (notify.notifieds i).dropped = false ∧ (notify.notifieds i).state = .waiting)
    (asks : ∀ waker, asked = some waker → new = some i ∧
      (i ∈ notify.waiters ∧ (notify.notifieds i).waiter.waker = some waker ∨ waker ∈ woken)) :
    Sound ⟨notify, Function.update room.waits p new, Function.update room.asked p asked,
      Function.update room.woken p woken⟩ := by
  have apart (q j : Nat) (other : q ≠ p) (waits : room.waits q = some j) : j ≠ i :=
    fun here => others q other (here ▸ waits)
  refine ⟨wf, unpermitted, ?_, ?_, ?_, ?_⟩
  · intro j
    by_cases here : j = i
    · rw [here]
      exact many
    · rw [same j here]
      exact sound.many j
  · intro q j waits
    dsimp only at waits
    by_cases self : q = p
    · rw [self, Function.update_self] at waits
      obtain ⟨rfl, alive, state⟩ := waiting j waits
      exact ⟨alive, state⟩
    · rw [Function.update_of_ne self] at waits
      rw [same j (apart q j self waits)]
      exact sound.waiting q j waits
  · intro q r j waits waits'
    dsimp only at waits waits'
    by_cases self : q = p
    · by_cases self' : r = p
      · rw [self, self']
      · rw [self, Function.update_self] at waits
        rw [Function.update_of_ne self'] at waits'
        exact absurd (waiting j waits).1 (apart r j self' waits')
    · rw [Function.update_of_ne self] at waits
      by_cases self' : r = p
      · rw [self', Function.update_self] at waits'
        exact absurd (waiting j waits').1 (apart q j self waits)
      · rw [Function.update_of_ne self'] at waits'
        exact sound.apart q r j waits waits'
  · intro q waker given
    dsimp only at given ⊢
    by_cases self : q = p
    · subst self
      rw [Function.update_self] at given
      obtain ⟨waits, attended⟩ := asks waker given
      exact ⟨i, by rw [Function.update_self]; exact waits, by rw [Function.update_self]; exact attended⟩
    · rw [Function.update_of_ne self] at given
      obtain ⟨j, waits, attended⟩ := sound.asks q waker given
      rw [← same j (apart q j self waits), ← members j (apart q j self waits)] at attended
      exact ⟨j, by rw [Function.update_of_ne self]; exact waits, by rw [Function.update_of_ne self]; exact attended⟩

theorem created_unlisted {n : Notify W} (wf : n.WellFormed) : n.created ∉ n.waiters := by
  intro member
  have alive := (wf.listed n.created member).1
  rw [wf.unmade n.created (le_refl _)] at alive
  cases alive

theorem notified_new (n : Notify W) :
    n.notified.notifieds n.created = ⟨.init (n.state >>> Notify.NOTIFY_WAITERS_SHIFT), ⟨none, none⟩, false⟩ :=
  Function.update_self ..

theorem Sound.look (sound : room.Sound) : ∃ notify,
    room.notify.notified.dropNotified room.notify.created = .ok (notify, []) ∧ Sound { room with notify := notify } ∧
      notify.waiters = room.notify.waiters := by
  have wf := Notify.notified_wellFormed sound.wellFormed
  have unlisted := created_unlisted sound.wellFormed
  obtain ⟨notify, wakers, ran, dropped⟩ := Notify.dropNotified_dropped wf room.notify.created
  have after := dropped.wellFormed wf
  cases dropped with
  | passed waiting one _ _ _ =>
    rw [notified_new] at waiting
    cases waiting
  | gone _ changed =>
    have waiters : notify.waiters = room.notify.waiters := by
      rw [changed.waiters]
      exact List.erase_of_not_mem unlisted
    refine ⟨notify, ran, ?_, waiters⟩
    refine sound.other (i := room.notify.created) after ?_ ?_ (fun j _ => by rw [waiters]) ?_ sound.unawaited
    · have permit : room.notify.notified.permit = false := sound.unpermitted
      rw [changed.permit, permit, Bool.and_false]
    · intro j other
      rw [changed.notifieds, Function.update_of_ne other]
      exact notified_same other
    · rw [changed.notifieds, Function.update_self, notified_new]
      simp

theorem Sound.leave (sound : room.Sound) (waits : room.waits p = some i) : ∃ notify,
    room.notify.dropNotified i = .ok (notify, []) ∧
      Sound ⟨notify, Function.update room.waits p none, Function.update room.asked p none,
        Function.update room.woken p []⟩ ∧
      ∀ j, j ≠ i → (j ∈ notify.waiters ↔ j ∈ room.notify.waiters) := by
  obtain ⟨notify, wakers, ran, dropped⟩ := Notify.dropNotified_dropped sound.wellFormed i
  have after := dropped.wellFormed sound.wellFormed
  cases dropped with
  | passed _ one _ _ _ => exact absurd one (sound.many i)
  | gone _ changed =>
    have members (j : Nat) (other : j ≠ i) : j ∈ notify.waiters ↔ j ∈ room.notify.waiters := by
      rw [changed.waiters]
      exact List.mem_erase_of_ne other
    refine ⟨notify, ran, ?_, members⟩
    refine sound.own i after ?_ ?_ members ?_ ?_ nofun nofun
    · rw [changed.permit, sound.unpermitted, Bool.and_false]
    · intro j other
      rw [changed.notifieds, Function.update_of_ne other]
    · rw [changed.notifieds, Function.update_self]
      exact sound.many i
    · intro q other waits'
      exact other (sound.apart q p i waits' waits)

variable [Wakers W]

theorem Sound.enter (sound : room.Sound) (p : Nat) (waker : W) : ∃ notify,
    awaitNotified room.notify.notified room.notify.created waker = .ok (false, notify, []) ∧
      Sound ⟨notify, Function.update room.waits p (some room.notify.created),
        Function.update room.asked p (some waker), Function.update room.woken p []⟩ ∧
      notify.waiters = room.notify.waiters ++ [room.notify.created] := by
  have wf := Notify.notified_wellFormed sound.wellFormed
  have new := notified_new room.notify
  have alive : (room.notify.notified.notifieds room.notify.created).dropped = false := by rw [new]
  have permit : room.notify.notified.permit = false := sound.unpermitted
  obtain ⟨ready, notify, ran, polled⟩ := Notify.pollNotified_polled wf alive (some waker)
  have after := polled.wellFormed wf alive
  cases polled with
  | done state _ | received state _ _ | waits state _ _ =>
    rw [new] at state
    cases state
  | permit _ stored _ =>
    rw [permit] at stored
    cases stored
  | passed state _ passed _ =>
    rw [new] at state
    obtain rfl := Notify.State.init.inj state
    exfalso
    apply passed
    apply BitVec.eq_of_toNat_eq
    rw [Notify.getNum_toNat, Notify.shifted_toNat]
    rfl
  | joined _ _ _ unlisted changed =>
    have own := congrFun changed.notifieds room.notify.created
    rw [Function.update_self, new] at own
    refine ⟨notify, by simp [awaitNotified, Notify.poll, ran], ?_, changed.waiters⟩
    refine sound.own room.notify.created after ?_ ?_ ?_ ?_ (fun q _ => sound.unawaited q) ?_ ?_
    · rw [changed.permit, Bool.and_false]
    · intro j other
      rw [changed.notifieds, Function.update_of_ne other]
      exact notified_same other
    · intro j other
      rw [changed.waiters]
      simp [Notify.notified, Notify.setNotified, other]
    · rw [own]
      simp
    · intro j same
      rw [own]
      exact ⟨(Option.some.inj same).symm, rfl, rfl⟩
    · intro given asked
      obtain rfl := Option.some.inj asked
      refine ⟨rfl, .inl ⟨by simp [changed.waiters], by rw [own]⟩⟩

theorem Sound.wait (sound : room.Sound) (waits : room.waits p = some i) (member : i ∈ room.notify.waiters) (waker : W) :
    ∃ notify, awaitNotified room.notify i waker = .ok (false, notify, []) ∧
      Sound ⟨notify, Function.update room.waits p (some i), Function.update room.asked p (some waker),
        Function.update room.woken p []⟩ ∧
      notify.waiters = room.notify.waiters := by
  obtain ⟨alive, waiting⟩ := sound.waiting p i waits
  have unnotified := (sound.wellFormed.listed i member).2.2
  obtain ⟨ready, notify, ran, polled⟩ := Notify.pollNotified_polled sound.wellFormed alive (some waker)
  have after := polled.wellFormed sound.wellFormed alive
  cases polled with
  | done state _ | permit state _ _ | passed state _ _ _ | joined state _ _ _ _ =>
    rw [waiting] at state
    cases state
  | received _ notified _ =>
    rw [unnotified] at notified
    cases notified
  | waits _ _ changed =>
    have own := congrFun changed.notifieds i
    rw [Function.update_self] at own
    refine ⟨notify, by simp [awaitNotified, Notify.poll, ran], ?_, changed.waiters⟩
    refine sound.own i after ?_ ?_ ?_ ?_ ?_ ?_ ?_
    · rw [changed.permit, sound.unpermitted, Bool.and_false]
    · intro j other
      rw [changed.notifieds, Function.update_of_ne other]
    · intro j _
      rw [changed.waiters]
    · rw [own]
      simp
    · intro q other waits'
      exact other (sound.apart q p i waits' waits)
    · intro j same
      rw [own]
      exact ⟨(Option.some.inj same).symm, alive, waiting⟩
    · intro given asked
      obtain rfl := Option.some.inj asked
      exact ⟨rfl, .inl ⟨by rw [changed.waiters]; exact member, by rw [own]; rfl⟩⟩

theorem Sound.resume (sound : room.Sound) (waits : room.waits p = some i) (told : i ∉ room.notify.waiters) (waker : W) :
    ∃ notify, awaitNotified room.notify i waker = .ok (true, notify, []) ∧
      Sound ⟨notify, Function.update room.waits p none, Function.update room.asked p none,
        Function.update room.woken p []⟩ ∧
      notify.waiters = room.notify.waiters := by
  obtain ⟨alive, waiting⟩ := sound.waiting p i waits
  obtain ⟨ready, notify, ran, polled⟩ := Notify.pollNotified_polled sound.wellFormed alive (some waker)
  have after := polled.wellFormed sound.wellFormed alive
  cases polled with
  | done state _ | permit state _ _ | passed state _ _ _ | joined state _ _ _ _ =>
    rw [waiting] at state
    cases state
  | waits _ member _ => exact absurd member told
  | received _ _ changed =>
    have own := congrFun changed.notifieds i
    rw [Function.update_self] at own
    have unlisted : i ∉ notify.waiters := by
      rw [changed.waiters]
      exact told
    obtain ⟨notify', wakers, ran', dropped⟩ := Notify.dropNotified_dropped after i
    have after' := dropped.wellFormed after
    cases dropped with
    | passed _ one _ _ _ =>
      rw [own] at one
      cases one
    | gone _ changed' =>
      have waiters : notify'.waiters = room.notify.waiters := by
        rw [changed'.waiters, List.erase_of_not_mem unlisted, changed.waiters]
      refine ⟨notify', by simp [awaitNotified, Notify.poll, ran, ran'], ?_, waiters⟩
      refine sound.own i after' ?_ ?_ (fun j _ => by rw [waiters]) ?_ ?_ nofun nofun
      · rw [changed'.permit, changed.permit, sound.unpermitted, Bool.and_false, Bool.and_false]
      · intro j other
        rw [changed'.notifieds, Function.update_of_ne other, changed.notifieds, Function.update_of_ne other]
      · rw [changed'.notifieds, Function.update_self, own]
        simp
      · intro q other waits'
        exact other (sound.apart q p i waits' waits)

end Awaiting

end Room

end Osaka.Sync.Watch
