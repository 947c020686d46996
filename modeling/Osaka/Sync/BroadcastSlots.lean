import Osaka.Sync.BroadcastRuns

set_option autoImplicit false

namespace Osaka.Sync.Broadcast

open Transitions

variable {T W : Type} {s t : Broadcast T W} {r : Nat} {sent : List T} {cursor : Nat → Nat}

section Slots

/-- Where a receiver is: as far before the tail as its word says. -/
def standing (s : Broadcast T W) (sent : List T) (r : Nat) : Nat :=
  s.positions sent - (s.tail.pos - (s.receivers r).next).toNat

theorem standing_eq (ring : Ring s sent cursor) (recent : Recent s sent cursor)
    (alive : (s.receivers r).dropped = false) : s.standing sent r = cursor r := by
  obtain ⟨_, least⟩ := ring.next r alive
  rw [Broadcast.standing, ring.behind alive (recent r alive)]
  omega

variable [Wakers W]

/-- The states in which the loop in Receiver::drop asks for the next value. -/
inductive Draining (s : Broadcast T W) (r : Nat) : Broadcast T W → Prop where
  | start : Draining s r { s with tail := { s.tail with rxCnt := s.tail.rxCnt - 1 } }
  | guarded {t u v : Broadcast T W} {i : Nat} : Draining s r t → (t.receivers r).next < t.tail.pos →
      t.recvRef r none = .ok (.ok i, u) → u.dropGuard i = .ok v → Draining s r v
  | lagged {t u : Broadcast T W} {n : BitVec 64} : Draining s r t → (t.receivers r).next < t.tail.pos →
      t.recvRef r none = .ok (.error (.lagged n), u) → Draining s r u

theorem Draining.kept (ring : Ring s sent cursor) (listed : Listed s) (alive : (s.receivers r).dropped = false)
    (recent : s.positions sent < cursor r + 2 ^ 64) (draining : Draining s r t) :
    ∃ cursor, Ring t sent cursor ∧ Listed t ∧ (t.receivers r).dropped = false ∧
      t.positions sent < cursor r + 2 ^ 64 := by
  have moves {t u : Broadcast T W} {cursor : Nat → Nat} {after : Nat} (served : Served t u r)
      (alive : (t.receivers r).dropped = false) (recent : t.positions sent < cursor r + 2 ^ 64)
      (ahead : cursor r ≤ after) :
      (u.receivers r).dropped = false ∧ u.positions sent < Function.update cursor r after r + 2 ^ 64 := by
    rw [served.dropped, served.positions, Function.update_self]
    exact ⟨alive, by omega⟩
  induction draining with
  | start =>
    exact ⟨cursor, (alike_rxCnt s _).ring ring, listed.rxCnt _, alive, recent⟩
  | @guarded t u v i _ _ ran dropped ih =>
    obtain ⟨cursor, ring, listed, alive, recent⟩ := ih
    obtain ⟨result, u', ran', received⟩ := recvRef_received none ring alive recent (by simp)
    obtain ⟨rfl, rfl⟩ := Prod.mk.inj (Except.ok.inj (ran'.symm.trans ran))
    cases received with
    | value near retained moved =>
      obtain ⟨_, w, _, _, dropped', kept, listed', served, _⟩ := ring.guarded listed alive retained
      rw [← moved] at dropped'
      obtain rfl := Except.ok.inj (dropped'.symm.trans dropped)
      exact ⟨_, kept, listed', moves served alive recent (by omega)⟩
  | @lagged t u n _ _ ran ih =>
    obtain ⟨cursor, ring, listed, alive, recent⟩ := ih
    obtain ⟨result, u', ran', received⟩ := recvRef_received none ring alive recent (by simp)
    obtain ⟨rfl, rfl⟩ := Prod.mk.inj (Except.ok.inj (ran'.symm.trans ran))
    cases received with
    | lagged near apart moved =>
      subst moved
      exact ⟨_, ring.lagging apart, listed.advanced rfl rfl, moves (served_setNext t r _) alive recent (by omega)⟩

theorem guard_present (waker : Option W) (ring : Ring s sent cursor) (alive : (s.receivers r).dropped = false)
    (recent : s.positions sent < cursor r + 2 ^ 64)
    (registers : ∀ given, waker = some given → ∃ t, s.register r given = .ok t) {i : Nat}
    (ran : s.recvRef r waker = .ok (.ok i, t)) : ∃ value, (t.buffer i).val = some value ∧ (t.buffer i).rem ≠ 0 := by
  obtain ⟨result, u, ran', received⟩ := recvRef_received waker ring alive recent registers
  obtain ⟨rfl, rfl⟩ := Prod.mk.inj (Except.ok.inj (ran'.symm.trans ran))
  cases received with
  | value near retained moved =>
    have held := ring.held _ retained r alive (le_refl _)
    have counted := ring.remaining _ retained
    have member : r ∈ s.readers cursor (cursor r) := by
      simp only [readers, Finset.mem_filter, Finset.mem_range]
      exact ⟨ring.made alive, alive, le_refl _⟩
    have some := Finset.card_pos.mpr ⟨r, member⟩
    rw [List.getElem?_eq_getElem retained.1] at held
    rw [moved]
    refine ⟨_, held, ?_⟩
    change (s.buffer _).rem ≠ 0
    omega

end Slots

section Floods

/-- Only values have been sent, to a receiver that has not asked for any. -/
structure Flooded (s : Broadcast Unit Nat) (j : Journal Unit Nat) (n : Nat) : Prop where
  reached : (journaled Unit Nat 2).Reachable (s, j)
  sent : j.sent.length = n
  told : j.since 0 = 0 ∧ j.receipts 0 = []
  len : s.len = 2
  numTx : s.numTx = 1
  receiver : s.receivers 0 = ⟨0#64, false, .new, false⟩
  waiters : s.tail.waiters = []

theorem Flooded.sends {s : Broadcast Unit Nat} {j : Journal Unit Nat} {n : Nat} (flooded : Flooded s j n) :
    ∃ t k, Flooded t k (n + 1) := by
  obtain ⟨cursor, sound, recent⟩ := journaled_sound flooded.reached
  have allowed : s.allowed (.send ()) = true := by simp [Broadcast.allowed, flooded.numTx]
  have alive : (s.receivers 0).dropped = false := by rw [flooded.receiver]
  have some := sound.count_pos alive
  obtain ⟨answer, t, wakers, sent', cursor', ran, performed⟩ : ∃ answer t wakers sent' cursor',
      s.perform (.send ()) = .ok (answer, t, wakers) ∧
        Performed s t j.sent cursor (.send ()) answer wakers sent' cursor' := by
    rcases perform_performed sound allowed recent with ⟨_, about⟩ | ⟨_, r, about, _⟩ | found
    · exact absurd about (by simp)
    · exact absurd about (by simp)
    · exact found
  have stepped : s.step (.send ()) = .next t := by
    rw [step, if_pos allowed, ran]
    rfl
  have reached : (journaled Unit Nat 2).Reachable (t, j.observe s (.send ()) t) := by
    refine flooded.reached.step trivial (a := .send ()) ?_
    simp [journaled, System.observed, machine, stepped]
  cases performed with
  | joined about _ _ => exact absurd about (by simp)
  | unsent none _ => exact absurd none some
  | sent _ _ notified =>
    have none : (s.written (Option.some ())).tail.waiters = [] := flooded.waiters
    refine ⟨t, _, reached, ?_, ?_, notified.alike.len.trans flooded.len, notified.numTx.trans flooded.numTx, ?_,
      notified.waiters⟩
    · simp [Journal.observe, ran, Journal.told, flooded.sent]
    · simp only [Journal.observe, ran]
      exact flooded.told
    · rw [notified.kept 0 (by simp [none])]
      exact flooded.receiver

theorem flooded (n : Nat) : ∃ s j, Flooded s j n := by
  induction n with
  | zero =>
    refine ⟨_, .first, .initial ⟨rfl, rfl⟩, rfl, ⟨rfl, rfl⟩, ?_, rfl, rfl, rfl⟩
    decide
  | succ n ih =>
    obtain ⟨s, j, flooded⟩ := ih
    exact flooded.sends

theorem Flooded.pos {s : Broadcast Unit Nat} {j : Journal Unit Nat} {n : Nat} (flooded : Flooded s j n) :
    s.tail.pos = BitVec.ofNat 64 n := by
  obtain ⟨cursor, sound, _⟩ := journaled_sound flooded.reached
  have closed := sound.opened (by rw [flooded.numTx]; decide)
  rw [sound.ring.pos, positions, closed, flooded.sent]
  rfl

end Floods

section Accounting

variable [Wakers W]

/-- What the slots hold, for whom, and what can go wrong. -/
theorem slots_accounted {capacity : Nat} {j : Journal T W} (reached : (journaled T W capacity).Reachable (s, j)) :
    -- No operation fails otherwise: no counter underflows.
    (∀ a fault, s.step a = .failed fault →
      fault = .maxReceivers ∧ (a = .subscribe ∨ ∃ r, a = .resubscribe r) ∨
      fault = .unexpectedEmpty ∧ ∃ r, a = .dropReceiver r ∧ s.Astray r) ∧
    -- A value is in its slot for a receiver that has not come past it, until it is overwritten.
    (∀ p, s.Retained j.sent p → ∀ r, (s.receivers r).dropped = false → s.standing j.sent r ≤ p →
      (s.buffer (p % s.len)).val = j.sent[p]? ∧ (s.readers (s.standing j.sent) p).card ≤ (s.buffer (p % s.len)).rem) ∧
    -- A guard is for a value that is there, for a receive and in Receiver::drop.
    (∀ r, (s.receivers r).dropped = false →
      (∀ i t, s.recvRef r none = .ok (.ok i, t) → ∃ value, (t.buffer i).val = some value ∧ (t.buffer i).rem ≠ 0) ∧
      (∀ waker i t, (s.newRecv r).recvRef r (some waker) = .ok (.ok i, t) →
        ∃ value, (t.buffer i).val = some value ∧ (t.buffer i).rem ≠ 0) ∧
      ∀ t, Draining s r t → ∀ i u, t.recvRef r none = .ok (.ok i, u) →
        ∃ value, (u.buffer i).val = some value ∧ (u.buffer i).rem ≠ 0) ∧
    -- Receiver::drop returns if the receiver has not gone astray, and only then.
    ∀ r, s.allowed (.dropReceiver r) = true → ((∃ t, s.dropReceiver r = .ok t) ↔ ¬s.Astray r) := by
  obtain ⟨cursor, sound, recent⟩ := journaled_sound reached
  refine ⟨?_, ?_, ?_, ?_⟩
  · intro a fault failed
    unfold step at failed
    split at failed
    case isFalse => cases failed
    case isTrue allowed =>
      rcases perform_performed sound allowed recent with ⟨ran, about⟩ | ⟨ran, about⟩ | ⟨_, _, _, _, _, ran, _⟩
      · rw [ran] at failed
        exact .inl ⟨by simpa [Outcome.attempt] using failed.symm, about⟩
      · rw [ran] at failed
        exact .inr ⟨by simpa [Outcome.attempt] using failed.symm, about⟩
      · simp [ran] at failed
  · intro p retained r alive before
    rw [standing_eq sound.ring recent alive] at before
    refine ⟨sound.ring.held p retained r alive before, ?_⟩
    refine (Finset.card_le_card ?_).trans (sound.ring.remaining p retained)
    intro i member
    simp only [readers, Finset.mem_filter] at member ⊢
    rw [standing_eq sound.ring recent member.2.1] at member
    exact member
  · intro r alive
    refine ⟨?_, ?_, ?_⟩
    · intro i t ran
      exact guard_present none sound.ring alive (recent r alive) (by simp) ran
    · intro waker i t ran
      obtain ⟨_, changed, listed⟩ := newRecv_rewaited sound.listed r
      have borrowed : ((s.newRecv r).receivers r).borrowed = true := by rw [changed.own]
      have near := recent r alive
      rw [← changed.alike.positions] at near
      rw [← changed.alike.dropped] at alive
      refine guard_present (some waker) (changed.alike.ring sound.ring) alive near ?_ ran
      intro given _
      obtain ⟨t, _, registered, _⟩ := register_ok listed alive borrowed given
      exact ⟨t, registered⟩
    · intro t draining i u ran
      obtain ⟨_, ring, _, alive, recent⟩ := draining.kept sound.ring sound.listed alive (recent r alive)
      exact guard_present none ring alive recent (by simp) ran
  · intro r allowed
    have idle : (s.receivers r).dropped = false ∧ (s.receivers r).borrowed = false := by
      simpa [Broadcast.allowed] using allowed
    have some := sound.count_pos idle.1
    constructor
    · rintro ⟨t, ran⟩ astray
      rw [dropReceiver_astray sound.ring idle.1 (recent r idle.1) some astray] at ran
      cases ran
    · intro found
      obtain ⟨t, ran, _⟩ := dropReceiver_gone sound.ring sound.listed idle.1 idle.2 (recent r idle.1) some found
      exact ⟨t, ran⟩

/-- A receiver that is nearly as far behind as positions go, and is dropped. -/
theorem drop_unexpected_empty : ∃ s : Broadcast Unit Nat, (machine Unit Nat 2).Reachable s ∧
    s.step (.dropReceiver 0) = .failed .unexpectedEmpty := by
  obtain ⟨s, j, flooded⟩ := flooded (2 ^ 64 - 1)
  obtain ⟨cursor, sound, recent⟩ := journaled_sound flooded.reached
  have alive : (s.receivers 0).dropped = false := by rw [flooded.receiver]
  have allowed : s.allowed (.dropReceiver 0) = true := by simp [Broadcast.allowed, flooded.receiver]
  have astray : s.Astray 0 := by
    rw [Astray, flooded.pos, flooded.receiver, flooded.len]
    decide
  refine ⟨s, flooded.reached.of_observed, ?_⟩
  rw [step, if_pos allowed, perform, dropReceiver_astray sound.ring alive (recent 0 alive) (sound.count_pos alive) astray]
  rfl

instance (capacity : Nat) : DecidablePred (journaled T W capacity).within := fun _ => inferInstanceAs (Decidable True)

/-- One receiver lags and is told, the other has read on, and the close marker is in a slot with a value. -/
def exampleSlots : List (BroadcastAction Nat Nat) :=
  [.send 1, .subscribe, .send 2, .send 3, .tryRecv 1, .tryRecv 0, .send 4, .dropSender]

theorem exampleSlots_closed :
    ((channel 2).bind fun s => (journaled Nat Nat 2).run (s, .first) exampleSlots).map
      (fun r => (r.1.tail.closed, r.1.allowed (.dropReceiver 0), decide (r.1.Astray 0))) = some (true, true, false) := by
  decide +kernel

theorem slots_accounted_run : ∃ s t : Broadcast Nat Nat, s.tail.closed = true ∧ s.dropReceiver 0 = .ok t := by
  obtain ⟨⟨s, j⟩, ran, facts⟩ := Option.map_eq_some_iff.mp exampleSlots_closed
  obtain ⟨first, made, ran⟩ := Option.bind_eq_some_iff.mp ran
  simp only [Prod.mk.injEq, decide_eq_false_iff_not] at facts
  obtain ⟨closed, allowed, found⟩ := facts
  have start : (journaled Nat Nat 2).Reachable (first, .first) := .initial ⟨made, rfl⟩
  obtain ⟨_, _, _, drops⟩ := slots_accounted (System.reachable_run _ start ran)
  obtain ⟨t, dropped⟩ := (drops 0 allowed).mpr found
  exact ⟨s, t, closed, dropped⟩

end Accounting

end Osaka.Sync.Broadcast
