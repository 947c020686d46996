import Osaka.Sync.BroadcastDelivery

set_option autoImplicit false

namespace Osaka.Sync.Broadcast

open Transitions

variable {T W : Type} {s t : Broadcast T W} {r : Nat} {sent sent' : List T} {cursor cursor' : Nat → Nat}
variable {a : BroadcastAction T W} {answer : Answer T} {wakers : List W} {j : Journal T W}

-- Receiver::len: a subtraction that overflows panics, or wraps in a build without overflow checks
def receiverLen (checked : Bool) (s : Broadcast T W) (r : Nat) : Option Nat :=
  let nextSendPos := s.tail.pos
  let next := (s.receivers r).next
  if checked = true ∧ nextSendPos < next then none else some (nextSendPos - next).toNat

def isEmpty (checked : Bool) (s : Broadcast T W) (r : Nat) : Option Bool :=
  (s.receiverLen checked r).map fun len => decide (len = 0)

section Trailing

/-- The places of the receivers, up to laps of all the words. -/
structure Trailing (s : Broadcast T W) (j : Journal T W) (cursor : Nat → Nat) : Prop where
  fresh : ∀ r, s.created ≤ r → j.receipts r = []
  laps : ∀ r, (s.receivers r).dropped = false → ∃ k, cursor r = j.place r + 2 ^ 64 * k

theorem Trailing.received {result : Except TryRecvError T} {after : Nat} (trailing : Trailing s j cursor)
    (alive : (s.receivers r).dropped = false) (ring : Ring s sent cursor) (taken : Taken s sent (cursor r) result after)
    (served : Served s t r) : Trailing t (j.received r result) (Function.update cursor r after) := by
  have moved : (j.received r result).place = Function.update j.place r (j.place r + advance result) :=
    Journal.place_received rfl
  constructor
  · intro i unmade
    rw [served.created] at unmade
    have made := ring.made alive
    simp only [Journal.received]
    rw [Function.update_of_ne (by omega)]
    exact trailing.fresh i unmade
  · intro i alive'
    rw [moved]
    by_cases same : i = r
    · obtain ⟨k, lap⟩ := trailing.laps r alive
      rw [same, Function.update_self, Function.update_self, taken.advance ring.positive, lap]
      exact ⟨k, by omega⟩
    · rw [served.others i same] at alive'
      rw [Function.update_of_ne same, Function.update_of_ne same]
      exact trailing.laps i alive'

theorem Performed.trailing (sound : Sound s j.sent cursor) (trailing : Trailing s j cursor)
    (performed : Performed s t j.sent cursor a answer wakers sent' cursor') :
    Trailing t (j.told s a answer) cursor' := by
  cases performed with
  | sent _ _ notified =>
    refine ⟨?_, ?_⟩
    · rw [notified.alike.created]
      exact trailing.fresh
    · intro i alive
      rw [notified.alike.dropped] at alive
      exact trailing.laps i alive
  | unsent _ same | cloned _ same | left _ _ same =>
    subst same
    exact ⟨trailing.fresh, trailing.laps⟩
  | joined about _ same =>
    have joined : Trailing t (j.joined s) (Function.update cursor s.created (s.positions j.sent)) := by
      subst same
      refine ⟨fun i unmade => trailing.fresh i (Nat.le_of_succ_le unmade), ?_⟩
      intro i alive
      by_cases new : i = s.created
      · refine ⟨0, ?_⟩
        rw [new, Function.update_self]
        simp [Journal.place, Journal.joined, trailing.fresh]
      · rw [subscribed, setReceiver] at alive
        dsimp only at alive
        rw [Function.update_of_ne new] at alive ⊢
        have kept : (j.joined s).place i = j.place i := Journal.place_other (Function.update_of_ne new _ _) rfl
        rw [kept]
        exact trailing.laps i alive
    rcases about with rfl | ⟨_, rfl, _⟩
    · exact joined
    · exact joined
  | closed _ _ notified =>
    refine ⟨?_, ?_⟩
    · rw [notified.alike.created]
      exact trailing.fresh
    · intro i alive
      rw [notified.alike.dropped] at alive
      exact trailing.laps i alive
  | received alive _ taken _ _ served _ _ => exact trailing.received alive sound.ring taken served
  | polled alive taken _ _ served _ =>
    obtain ⟨fresh, laps⟩ := trailing.received alive sound.ring taken served
    exact ⟨fresh, laps⟩
  | cancelled _ changed _ =>
    refine ⟨?_, ?_⟩
    · rw [changed.alike.created]
      exact trailing.fresh
    · intro i alive
      rw [changed.alike.dropped] at alive
      exact trailing.laps i alive
  | @gone r _ _ _ _ gone =>
    refine ⟨?_, ?_⟩
    · rw [gone.created]
      exact trailing.fresh
    · intro i alive
      have other : i ≠ r := by
        rintro rfl
        rw [gone.dropped] at alive
        exact absurd alive (by decide)
      rw [gone.others i other] at alive
      exact trailing.laps i alive

variable [Wakers W]

theorem journaled_trailing {capacity : Nat} (reached : (journaled T W capacity).Reachable (s, j)) :
    ∃ cursor, Sound s j.sent cursor ∧ Recent s j.sent cursor ∧ Trailing s j cursor := by
  apply System.Reachable.watched
    (P := fun s j => ∃ cursor, Sound s j.sent cursor ∧ Recent s j.sent cursor ∧ Trailing s j cursor) _ _ reached
  · intro s made
    refine ⟨fun _ => 0, (channel_made made).sound, ?_, fun _ _ => rfl, fun _ _ => ⟨0, rfl⟩⟩
    intro r _
    simp [positions, (channel_made made).closed, Journal.first]
  · rintro s j a t - ⟨cursor, sound, recent, trailing⟩ - stepped
    obtain ⟨answer, wakers, sent', cursor', ran, performed⟩ := step_performs sound recent stepped
    have seen : j.observe s a t = (j.wakes wakers).told s a answer := by
      simp only [Journal.observe, ran]
      rfl
    have sent : (j.observe s a t).sent = sent' := by
      rw [seen]
      exact performed.told_sent (j := j.wakes wakers)
    have after : Trailing t (j.observe s a t) cursor' := by
      rw [seen]
      exact performed.trailing (j := j.wakes wakers) sound ⟨trailing.fresh, trailing.laps⟩
    obtain ⟨next, sound', recent', laps⟩ := (performed.sound sound).refreshed (performed.close sound recent)
    rw [sent]
    refine ⟨next, sound', recent', after.fresh, ?_⟩
    intro r alive
    obtain ⟨k, lap⟩ := after.laps r alive
    obtain ⟨l, lap'⟩ := laps r
    exact ⟨k + l, by omega⟩

end Trailing

section Counting

/-- The values after a receiver's place: those that it has neither received nor skipped. -/
def Journal.unread (j : Journal T W) (r : Nat) : Nat := j.sent.length - j.place r

theorem receiverLen_eq (ring : Ring s sent cursor) (recent : Recent s sent cursor)
    (alive : (s.receivers r).dropped = false) (checked : Bool) :
    s.receiverLen checked r =
      if checked = true ∧ s.positions sent % 2 ^ 64 < cursor r % 2 ^ 64 then none
      else some (s.positions sent - cursor r) := by
  obtain ⟨next, least⟩ := ring.next r alive
  have recent := recent r alive
  have distance : (s.tail.pos - (s.receivers r).next).toNat = s.positions sent - cursor r := by
    rw [ring.pos, next, ofNat_sub least, BitVec.toNat_ofNat, Nat.mod_eq_of_lt (by omega)]
  have overflows : s.tail.pos < (s.receivers r).next ↔ s.positions sent % 2 ^ 64 < cursor r % 2 ^ 64 := by
    rw [BitVec.lt_def, ring.pos, next, BitVec.toNat_ofNat, BitVec.toNat_ofNat]
  simp only [receiverLen, overflows, distance]

theorem receiverLen_unread (sound : Sound s j.sent cursor) (recent : Recent s j.sent cursor)
    (trailing : Trailing s j cursor) (alive : (s.receivers r).dropped = false) (checked : Bool) :
    s.receiverLen checked r = some (j.unread r) ↔
      (s.tail.closed = false ∨ j.sent.length < j.place r) ∧ s.positions j.sent < j.place r + 2 ^ 64 ∧
        (checked = true → (s.receivers r).next ≤ s.tail.pos) := by
  obtain ⟨next, least⟩ := sound.ring.next r alive
  obtain ⟨k, lap⟩ := trailing.laps r alive
  have recent' := recent r alive
  have count : s.positions j.sent = j.sent.length + s.tail.closed.toNat := rfl
  have marker : s.tail.closed = false ↔ s.tail.closed.toNat = 0 := by cases s.tail.closed <;> simp
  have ordered : (s.receivers r).next ≤ s.tail.pos ↔ ¬s.positions j.sent % 2 ^ 64 < cursor r % 2 ^ 64 := by
    rw [BitVec.le_def, sound.ring.pos, next, BitVec.toNat_ofNat, BitVec.toNat_ofNat, Nat.not_lt]
  have small := s.tail.closed.toNat_le
  rw [receiverLen_eq sound.ring recent alive checked, marker, ordered]
  have amount : s.positions j.sent - cursor r = j.unread r ↔
      (s.tail.closed.toNat = 0 ∨ j.sent.length < j.place r) ∧ s.positions j.sent < j.place r + 2 ^ 64 := by
    unfold Journal.unread
    omega
  by_cases overflows : checked = true ∧ s.positions j.sent % 2 ^ 64 < cursor r % 2 ^ 64
  · rw [if_pos overflows]
    refine iff_of_false (fun counted => nomatch counted) ?_
    rintro ⟨_, _, fits⟩
    exact fits overflows.1 overflows.2
  · rw [if_neg overflows, Option.some.injEq, amount]
    refine and_congr_right fun _ => (and_iff_left ?_).symm
    exact fun checks less => overflows ⟨checks, less⟩

variable [Wakers W]

theorem receiverLen_lagged {n : BitVec 64} (sound : Sound s sent cursor) (recent : Recent s sent cursor)
    (receives : receives r a) (allowed : s.allowed a = true) (ran : s.perform a = .ok (answer, t, []))
    (told : answer.receipt = some (.error (.lagged n))) (checked : Bool) (before : Nat)
    (counted : s.receiverLen checked r = some before) :
    ∃ after, t.receiverLen checked r = some after ∧ before = after + n.toNat := by
  obtain ⟨alive, _, _, result, after, ran', told', taken, served, performed⟩ :=
    receive_taken sound recent receives allowed
  simp only [ran, Except.ok.injEq, Prod.mk.injEq] at ran'
  obtain ⟨rfl, rfl, _⟩ := ran'
  obtain rfl : Except.error (.lagged n) = result := Option.some.inj (told.symm.trans told')
  have advanced := taken.advance sound.ring.positive
  have sound' := performed.sound sound
  have alive' : (t.receivers r).dropped = false := by rw [served.dropped, alive]
  have least := (sound'.ring.next r alive').2
  have far := recent r alive
  rw [Function.update_self, served.positions] at least
  have recent' : Recent t sent (Function.update cursor r after) := by
    intro i alive'
    rw [served.positions]
    by_cases same : i = r
    · rw [same, Function.update_self]
      omega
    · rw [served.others i same] at alive'
      rw [Function.update_of_ne same]
      exact recent i alive'
  rw [receiverLen_eq sound.ring recent alive] at counted
  rw [receiverLen_eq sound'.ring recent' alive', served.positions, Function.update_self]
  change after = cursor r + n.toNat at advanced
  split at counted
  next => cases counted
  next fits =>
    obtain rfl := Option.some.inj counted
    have fits' : ¬(checked = true ∧ s.positions sent % 2 ^ 64 < after % 2 ^ 64) := by
      rintro ⟨checks, less⟩
      have ordered : ¬s.positions sent % 2 ^ 64 < cursor r % 2 ^ 64 := fun less => fits ⟨checks, less⟩
      omega
    rw [if_neg fits']
    exact ⟨_, rfl, by omega⟩

/-- The length counts the close marker as long as the receiver has not come past it. -/
theorem length_counted {capacity : Nat} (reached : (journaled T W capacity).Reachable (s, j))
    (alive : (s.receivers r).dropped = false) (checked : Bool) :
    ((s.receiverLen checked r = some (j.unread r) ∧ s.isEmpty checked r = some (decide (j.unread r = 0))) ↔
      (s.tail.closed = false ∨ j.sent.length < j.place r) ∧ s.positions j.sent < j.place r + 2 ^ 64 ∧
        (checked = true → (s.receivers r).next ≤ s.tail.pos)) ∧
    ∀ a answer t n, receives r a → s.allowed a = true → s.perform a = .ok (answer, t, []) →
      answer.receipt = some (.error (.lagged n)) → ∀ before, s.receiverLen checked r = some before →
      ∃ after, t.receiverLen checked r = some after ∧ before = after + n.toNat := by
  obtain ⟨cursor, sound, recent, trailing⟩ := journaled_trailing reached
  constructor
  · rw [← receiverLen_unread sound recent trailing alive checked]
    constructor
    · exact fun counted => counted.1
    · intro counted
      exact ⟨counted, by rw [isEmpty, counted]; rfl⟩
  · intro a answer t n receives allowed ran told
    exact receiverLen_lagged sound recent receives allowed ran told checked

/-- Two receivers: the first has been told that all is over, the second has received nothing. -/
def exampleLength : List (BroadcastAction Nat Nat) := [.subscribe, .send 4, .dropSender, .tryRecv 0, .tryRecv 0]

theorem exampleLength_run : ∃ s j, (journaled Nat Nat 2).Reachable (s, j) ∧
    (s.receivers 0).dropped = false ∧ s.tail.closed = true ∧ j.sent.length < j.place 0 ∧
      s.positions j.sent < j.place 0 + 2 ^ 64 ∧ (s.receivers 0).next ≤ s.tail.pos := by
  have facts : ((channel 2).bind fun s => (journaled Nat Nat 2).run (s, .first) exampleLength).map
      (fun r => ((r.1.receivers 0).dropped, r.1.tail.closed, decide (r.2.sent.length < r.2.place 0),
        decide (r.1.positions r.2.sent < r.2.place 0 + 2 ^ 64), decide ((r.1.receivers 0).next ≤ r.1.tail.pos))) =
        some (false, true, true, true, true) := by
    decide +kernel
  obtain ⟨⟨s, j⟩, ran, facts⟩ := Option.map_eq_some_iff.mp facts
  obtain ⟨first, made, ran⟩ := Option.bind_eq_some_iff.mp ran
  simp only [Prod.mk.injEq, decide_eq_true_eq] at facts
  have start : (journaled Nat Nat 2).Reachable (first, .first) := .initial ⟨made, rfl⟩
  exact ⟨s, j, System.reachable_run _ start ran, facts⟩

theorem length_counted_run : ∃ (s : Broadcast Nat Nat) (j : Journal Nat Nat),
    s.tail.closed = true ∧ s.receiverLen true 0 = some (j.unread 0) := by
  obtain ⟨s, j, reached, alive, closed, past, near, ordered⟩ := exampleLength_run
  exact ⟨s, j, closed, ((length_counted reached alive true).1.mpr ⟨Or.inr past, near, fun _ => ordered⟩).1⟩

/-- The drop of the last sender makes the second receiver's one value two. -/
theorem close_marker_counted : ∃ (s t : Broadcast Nat Nat) (j k : Journal Nat Nat),
    (journaled Nat Nat 2).Reachable (s, j) ∧ (journaled Nat Nat 2).run (s, j) [.dropSender] = some (t, k) ∧
      (t.receivers 1).dropped = false ∧ s.receiverLen true 1 = some 1 ∧ t.receiverLen true 1 = some 2 ∧
      j.unread 1 = 1 ∧ k.unread 1 = 1 := by
  have facts : ((channel 2).bind fun s => (journaled Nat Nat 2).run (s, .first) [.subscribe, .send 4]).map
      (fun r => (r.1.receiverLen true 1, r.2.unread 1, ((journaled Nat Nat 2).run r [.dropSender]).map
        fun u => ((u.1.receivers 1).dropped, u.1.receiverLen true 1, u.2.unread 1))) =
        some (some 1, 1, some (false, some 2, 1)) := by
    decide +kernel
  obtain ⟨⟨s, j⟩, ran, facts⟩ := Option.map_eq_some_iff.mp facts
  obtain ⟨first, made, ran⟩ := Option.bind_eq_some_iff.mp ran
  simp only [Prod.mk.injEq] at facts
  obtain ⟨before, unread, after⟩ := facts
  obtain ⟨⟨t, k⟩, ran', after⟩ := Option.map_eq_some_iff.mp after
  simp only [Prod.mk.injEq] at after
  obtain ⟨alive, after, unread'⟩ := after
  have start : (journaled Nat Nat 2).Reachable (first, .first) := .initial ⟨made, rfl⟩
  exact ⟨s, t, j, k, System.reachable_run _ start ran, ran', alive, before, after, unread, unread'⟩

end Counting

end Osaka.Sync.Broadcast
