import Mathlib.Data.Finset.Card
import Mathlib.Data.Nat.ModEq
import Mathlib.Order.Interval.Finset.Nat
import Osaka.Sync.Broadcast

set_option autoImplicit false

namespace Osaka.Sync.Broadcast

open Transitions

variable {T W : Type} {s t : Broadcast T W} {r : Nat}

section Words

theorem nextPowerOfTwo_eq {n : Nat} (accepted : n ≤ (2 ^ 64 - 1) >>> 1) : ∃ k ≤ 63, nextPowerOfTwo n = 2 ^ k := by
  have bound : (2 ^ 64 - 1) >>> 1 = 2 ^ 63 - 1 := by decide
  unfold nextPowerOfTwo
  split
  next => exact ⟨0, by omega, rfl⟩
  next more =>
    have small : n - 1 < 2 ^ 63 := by omega
    have log := (Nat.log2_lt (by omega)).mpr small
    exact ⟨Nat.log2 (n - 1) + 1, by omega, rfl⟩

theorem ofNat_inj {p q : Nat} (less : p ≤ q) (near : q < p + 2 ^ 64) :
    BitVec.ofNat 64 p = BitVec.ofNat 64 q ↔ p = q := by
  constructor
  · intro same
    have words := congrArg BitVec.toNat same
    rw [BitVec.toNat_ofNat, BitVec.toNat_ofNat] at words
    omega
  · rintro rfl
    rfl

theorem ofNat_sub {p n : Nat} (less : n ≤ p) :
    BitVec.ofNat 64 p - BitVec.ofNat 64 n = BitVec.ofNat 64 (p - n) := by
  apply BitVec.eq_of_toNat_eq
  simp only [BitVec.toNat_sub, BitVec.toNat_ofNat]
  omega

theorem ofNat_add (p n : Nat) : BitVec.ofNat 64 p + BitVec.ofNat 64 n = BitVec.ofNat 64 (p + n) :=
  (BitVec.ofNat_add p n).symm

theorem lap_exists {len : Nat} (some : 0 < len) (c first : Nat) :
    ∃ p, first ≤ p ∧ p < first + len ∧ p % len = c % len := by
  refine ⟨first + (c + len * first - first) % len, by omega, ?_, ?_⟩
  · have less := Nat.mod_lt (c + len * first - first) some
    omega
  · have enough : first ≤ len * first := Nat.le_mul_of_pos_left first some
    have total : first + (c + len * first - first) = c + len * first := by omega
    rw [Nat.add_mod_mod, total, Nat.add_mul_mod_self_left]

theorem lap_unique {len first p q : Nat} (below : first ≤ p) (within : p < first + len) (below' : first ≤ q)
    (within' : q < first + len) (same : p % len = q % len) : p = q := by
  rcases Nat.le_total p q with less | less
  · have divides := (Nat.modEq_iff_dvd' less).mp same
    have none := Nat.eq_zero_of_dvd_of_lt divides (by omega)
    omega
  · have divides := (Nat.modEq_iff_dvd' less).mp same.symm
    have none := Nat.eq_zero_of_dvd_of_lt divides (by omega)
    omega

end Words

section Ring

/-- The positions in use: one for each value, and one for the close marker. -/
def positions (s : Broadcast T W) (sent : List T) : Nat := sent.length + s.tail.closed.toNat

def readers (s : Broadcast T W) (cursor : Nat → Nat) (p : Nat) : Finset Nat :=
  (Finset.range s.created).filter fun r => (s.receivers r).dropped = false ∧ cursor r ≤ p

/-- A value is retained until another takes its slot. -/
def Retained (s : Broadcast T W) (sent : List T) (p : Nat) : Prop := p < sent.length ∧ sent.length ≤ p + s.len

/-- What the ring holds, by the values that have been sent and the cursors of the receivers, which count all
positions there have ever been. -/
structure Ring (s : Broadcast T W) (sent : List T) (cursor : Nat → Nat) : Prop where
  size : ∃ k ≤ 63, s.len = 2 ^ k
  mask : s.mask = BitVec.ofNat 64 (s.len - 1)
  pos : s.tail.pos = BitVec.ofNat 64 (s.positions sent)
  -- A slot has the last position that is its own, or none yet.
  slots : ∀ p, s.positions sent ≤ p → p < s.positions sent + s.len →
    (s.buffer (p % s.len)).pos + BitVec.ofNat 64 s.len = BitVec.ofNat 64 p
  marks : ∀ p, s.positions sent ≤ p → p < s.positions sent + s.len →
    (s.buffer (p % s.len)).closed = (s.tail.closed && decide (p + 1 = s.positions sent + s.len))
  next : ∀ r, (s.receivers r).dropped = false →
    (s.receivers r).next = BitVec.ofNat 64 (cursor r) ∧ cursor r ≤ s.positions sent
  held : ∀ p, s.Retained sent p → ∀ r, (s.receivers r).dropped = false → cursor r ≤ p →
    (s.buffer (p % s.len)).val = sent[p]?
  remaining : ∀ p, s.Retained sent p → (s.readers cursor p).card ≤ (s.buffer (p % s.len)).rem
  unmade : ∀ r, s.created ≤ r → (s.receivers r).dropped = true

variable {sent : List T} {cursor : Nat → Nat}

theorem Ring.positive (ring : Ring s sent cursor) : 0 < s.len := by
  obtain ⟨k, _, size⟩ := ring.size
  rw [size]
  exact Nat.two_pow_pos k

theorem Ring.small (ring : Ring s sent cursor) : s.len ≤ 2 ^ 63 := by
  obtain ⟨k, least, size⟩ := ring.size
  rw [size]
  exact Nat.pow_le_pow_right (by decide) least

theorem Ring.idx (ring : Ring s sent cursor) (p : Nat) : s.idx (BitVec.ofNat 64 p) = p % s.len := by
  obtain ⟨k, least, size⟩ := ring.size
  have divides : 2 ^ k ∣ 2 ^ 64 := Nat.pow_dvd_pow 2 (by omega)
  have less : 2 ^ k - 1 < 2 ^ 64 := by
    have bound : 2 ^ k ≤ 2 ^ 63 := Nat.pow_le_pow_right (by decide) least
    omega
  rw [Broadcast.idx, ring.mask, BitVec.toNat_and, BitVec.toNat_ofNat, BitVec.toNat_ofNat, size,
    Nat.mod_eq_of_lt less, Nat.and_two_pow_sub_one_eq_mod, Nat.mod_mod_of_dvd _ divides]

theorem Ring.made (ring : Ring s sent cursor) (alive : (s.receivers r).dropped = false) : r < s.created := by
  by_contra unmade
  rw [ring.unmade r (by omega)] at alive
  exact absurd alive (by decide)

theorem Ring.slot_inj (ring : Ring s sent cursor) {p q : Nat} (first : s.Retained sent p) (second : s.Retained sent q)
    (same : p % s.len = q % s.len) : p = q := by
  obtain ⟨below, within⟩ := first
  obtain ⟨below', within'⟩ := second
  rcases Nat.le_total p q with less | less
  · exact lap_unique (le_refl p) (by have positive := ring.positive; omega) less (by omega) same
  · exact (lap_unique (le_refl q) (by have positive := ring.positive; omega) less (by omega) same.symm).symm

/-- From further behind a position looks like one that is yet to come. -/
def Near (s : Broadcast T W) (sent : List T) (c : Nat) : Prop := s.positions sent + s.len ≤ c + 2 ^ 64

/-- Nothing is new, as far as a receiver can tell. -/
def Level (s : Broadcast T W) (sent : List T) (c : Nat) : Prop := c = s.positions sent ∨ ¬s.Near sent c

/-- What a slot tells a receiver, by the position that is next in it. -/
theorem Ring.slot (ring : Ring s sent cursor) {c : Nat} (least : c ≤ s.positions sent)
    (recent : s.positions sent < c + 2 ^ 64) :
    ∃ p, s.positions sent ≤ p ∧ p < s.positions sent + s.len ∧ p % s.len = c % s.len ∧
      ((s.buffer (c % s.len)).pos = BitVec.ofNat 64 c ↔ p = c + s.len) ∧
      ((s.buffer (c % s.len)).pos + BitVec.ofNat 64 s.len = BitVec.ofNat 64 c ↔ p = c ∨ p = c + 2 ^ 64) ∧
      (s.buffer (c % s.len)).closed = (s.tail.closed && decide (p + 1 = s.positions sent + s.len)) := by
  have positive := ring.positive
  have small := ring.small
  obtain ⟨p, below, within, same⟩ := lap_exists positive c (s.positions sent)
  have slot := ring.slots p below within
  have mark := ring.marks p below within
  rw [same] at slot mark
  refine ⟨p, below, within, same, ?_, ?_, mark⟩
  · rw [← BitVec.add_left_inj (BitVec.ofNat 64 s.len), slot, ofNat_add]
    rcases Nat.le_total p (c + s.len) with less | less
    · exact ofNat_inj less (by omega)
    · rw [eq_comm, ofNat_inj less (by omega), eq_comm]
  · rw [slot]
    rcases Nat.lt_or_ge p (c + 2 ^ 64) with close | far
    · rw [eq_comm, ofNat_inj (least.trans below) close]
      omega
    · have wraps : BitVec.ofNat 64 p = BitVec.ofNat 64 (p - 2 ^ 64) := by
        apply BitVec.eq_of_toNat_eq
        simp only [BitVec.toNat_ofNat]
        omega
      rw [wraps, eq_comm, ofNat_inj (by omega) (by omega)]
      omega

end Ring

section Receiving

variable [Wakers W] {sent : List T} {cursor : Nat → Nat}

inductive Received (s t : Broadcast T W) (sent : List T) (r c : Nat) (waker : Option W) :
    Except TryRecvError Nat → Prop where
  | value : s.Near sent c → s.Retained sent c → t = s.setNext r (BitVec.ofNat 64 (c + 1)) →
      Received s t sent r c waker (.ok (c % s.len))
  | lagged : s.Near sent c → c + s.len < sent.length → t = s.setNext r (BitVec.ofNat 64 (sent.length - s.len)) →
      Received s t sent r c waker (.error (.lagged (BitVec.ofNat 64 (sent.length - s.len - c))))
  | closed : s.Near sent c → s.tail.closed = true → c = sent.length → t = s.setNext r (BitVec.ofNat 64 (c + 1)) →
      Received s t sent r c waker (.error .closed)
  | empty : s.Level sent c → waker = none → t = s → Received s t sent r c waker (.error .empty)
  | queued {given : W} : s.Level sent c → waker = some given → s.register r given = .ok t →
      Received s t sent r c waker (.error .empty)

theorem silent_received {c : Nat} {waker : Option W} (blank : s.Level sent c)
    (registers : ∀ given, waker = some given → ∃ t, s.register r given = .ok t) : ∃ result t,
      (match waker with
        | none => (.ok (.error .empty, s) : Except Fault (Except TryRecvError Nat × Broadcast T W))
        | some waker => (s.register r waker).map fun t => (.error .empty, t)) = .ok (result, t) ∧
      Received s t sent r c waker result := by
  cases waker with
  | none => exact ⟨_, s, rfl, .empty blank rfl rfl⟩
  | some given =>
    obtain ⟨t, ran⟩ := registers given rfl
    exact ⟨_, t, by dsimp only; rw [ran]; rfl, .queued blank rfl ran⟩

theorem recvRef_received (waker : Option W) (ring : Ring s sent cursor) (alive : (s.receivers r).dropped = false)
    (recent : s.positions sent < cursor r + 2 ^ 64)
    (registers : ∀ given, waker = some given → ∃ t, s.register r given = .ok t) :
    ∃ result t, s.recvRef r waker = .ok (result, t) ∧ Received s t sent r (cursor r) waker result := by
  obtain ⟨next, least⟩ := ring.next r alive
  have positive := ring.positive
  have small := ring.small
  obtain ⟨p, below, within, same, here, level, mark⟩ := ring.slot least recent
  set c := cursor r with hc
  set P := s.positions sent with hP
  have count : P = sent.length + s.tail.closed.toNat := rfl
  have after : BitVec.ofNat 64 c + 1#64 = BitVec.ofNat 64 (c + 1) := ofNat_add c 1
  have silent (blank : s.Level sent c) := silent_received blank registers
  unfold recvRef
  simp only [next, ring.idx, ne_eq, here, level, after]
  by_cases near : s.Near sent c
  swap
  · have far : c + 2 ^ 64 < P + s.len := Nat.not_le.mp near
    -- The slot has the position that the receiver's is mistaken for.
    obtain rfl : p = c + 2 ^ 64 := by
      obtain ⟨k, _, size⟩ := ring.size
      have lap : (c + 2 ^ 64) % s.len = c % s.len := by
        have divides : s.len ∣ 2 ^ 64 := by
          rw [size]
          exact Nat.pow_dvd_pow 2 (by omega)
        rw [Nat.add_mod, Nat.mod_eq_zero_of_dvd divides, Nat.add_zero, Nat.mod_mod]
      exact lap_unique below within (by omega) far (same.trans lap.symm)
    rw [if_pos (by omega), if_pos (Or.inr rfl)]
    exact silent (.inr near)
  have bound : P + s.len ≤ c + 2 ^ 64 := near
  have level : (p = c ∨ p = c + 2 ^ 64) ↔ p = c := by omega
  simp only [level]
  by_cases hit : p = c + s.len
  · rw [if_neg (not_not.mpr hit)]
    have last : decide (p + 1 = P + s.len) = decide (c + 1 = P) := by
      rw [decide_eq_decide]
      omega
    rw [mark, last]
    cases closed : s.tail.closed with
    | false =>
      simp only [closed, Bool.toNat_false] at count
      exact ⟨_, _, rfl, .value near ⟨by omega, by omega⟩ rfl⟩
    | true =>
      simp only [closed, Bool.toNat_true] at count
      by_cases marker : c + 1 = P
      · simp only [marker, decide_true, Bool.and_self, if_true]
        exact ⟨_, _, rfl, .closed near closed (by omega) (by rw [marker])⟩
      · simp only [marker, decide_false, Bool.and_false, Bool.false_eq_true, if_false]
        exact ⟨_, _, rfl, .value near ⟨by omega, by omega⟩ rfl⟩
  · rw [if_pos hit]
    by_cases level : p = c
    · rw [if_pos level]
      exact silent (.inl (by omega))
    · rw [if_neg level]
      have ahead : c < P := by
        by_contra none
        exact level (lap_unique below within (by omega) (by omega) same)
      have apart : c + s.len < P := by
        by_contra close
        have unique := lap_unique below within (by omega : P ≤ c + s.len) (by omega) (by rw [same, Nat.add_mod_right])
        exact hit unique
      have flag := s.tail.closed.toNat_le
      have adjusted : s.len + (if s.tail.closed = true then 1 else 0) = s.len + s.tail.closed.toNat := by
        cases s.tail.closed <;> rfl
      have oldest : s.tail.pos - BitVec.ofNat 64 (s.len + if s.tail.closed = true then 1 else 0) =
          BitVec.ofNat 64 (sent.length - s.len) := by
        rw [ring.pos, adjusted, ofNat_sub (by omega)]
        congr 1
        omega
      have missed : BitVec.ofNat 64 (sent.length - s.len) - BitVec.ofNat 64 c =
          BitVec.ofNat 64 (sent.length - s.len - c) := ofNat_sub (by omega)
      have none : BitVec.ofNat 64 (sent.length - s.len - c) = 0#64 ↔ sent.length - s.len - c = 0 := by
        rw [eq_comm]
        exact (ofNat_inj (Nat.zero_le _) (by omega)).trans eq_comm
      rw [oldest, missed]
      by_cases slow : sent.length - s.len - c = 0
      · rw [if_pos (none.mpr slow)]
        exact ⟨_, _, rfl, .value near ⟨by omega, by omega⟩ rfl⟩
      · rw [if_neg (fun zero => slow (none.mp zero))]
        exact ⟨_, _, rfl, .lagged near (by omega) rfl⟩

end Receiving

section Moving

variable {sent : List T} {cursor : Nat → Nat}

structure Alike (s t : Broadcast T W) : Prop where
  buffer : t.buffer = s.buffer
  len : t.len = s.len
  mask : t.mask = s.mask
  pos : t.tail.pos = s.tail.pos
  closed : t.tail.closed = s.tail.closed
  created : t.created = s.created
  next : ∀ r, (t.receivers r).next = (s.receivers r).next
  dropped : ∀ r, (t.receivers r).dropped = (s.receivers r).dropped

theorem Alike.refl (s : Broadcast T W) : Alike s s := ⟨rfl, rfl, rfl, rfl, rfl, rfl, fun _ => rfl, fun _ => rfl⟩

theorem Alike.trans {u : Broadcast T W} (first : Alike s t) (second : Alike t u) : Alike s u := by
  constructor
  · rw [second.buffer, first.buffer]
  · rw [second.len, first.len]
  · rw [second.mask, first.mask]
  · rw [second.pos, first.pos]
  · rw [second.closed, first.closed]
  · rw [second.created, first.created]
  · intro r
    rw [second.next, first.next]
  · intro r
    rw [second.dropped, first.dropped]

theorem Alike.positions (alike : Alike s t) (sent : List T) : t.positions sent = s.positions sent := by
  rw [Broadcast.positions, Broadcast.positions, alike.closed]

theorem Alike.retained (alike : Alike s t) (sent : List T) (p : Nat) : t.Retained sent p ↔ s.Retained sent p := by
  rw [Broadcast.Retained, Broadcast.Retained, alike.len]

theorem Alike.ring (alike : Alike s t) (ring : Ring s sent cursor) : Ring t sent cursor := by
  have readers (p : Nat) : t.readers cursor p = s.readers cursor p := by
    unfold Broadcast.readers
    rw [alike.created]
    apply Finset.filter_congr
    intro r _
    rw [alike.dropped]
  have positions := alike.positions sent
  constructor
  · rw [alike.len]
    exact ring.size
  · rw [alike.mask, alike.len]
    exact ring.mask
  · rw [alike.pos, positions]
    exact ring.pos
  · rw [alike.buffer, alike.len, positions]
    exact ring.slots
  · rw [alike.buffer, alike.len, positions, alike.closed]
    exact ring.marks
  · intro r
    rw [alike.dropped, alike.next, positions]
    exact ring.next r
  · intro p retained r
    rw [alike.dropped, alike.buffer, alike.len]
    exact ring.held p ((alike.retained sent p).mp retained) r
  · intro p retained
    rw [readers, alike.buffer, alike.len]
    exact ring.remaining p ((alike.retained sent p).mp retained)
  · rw [alike.created]
    intro r
    rw [alike.dropped]
    exact ring.unmade r

theorem setNext_apply (s : Broadcast T W) (r : Nat) (next : BitVec 64) (j : Nat) :
    ((s.setNext r next).receivers j).dropped = (s.receivers j).dropped ∧
      ((s.setNext r next).receivers j).next = if j = r then next else (s.receivers j).next := by
  simp only [setNext, setReceiver, Function.update_apply]
  split <;> simp_all

theorem readers_moved (s : Broadcast T W) {next : BitVec 64} {c : Nat} (ahead : cursor r ≤ c) (p : Nat) :
    (s.setNext r next).readers (Function.update cursor r c) p ⊆ s.readers cursor p := by
  intro j member
  simp only [readers, Finset.mem_filter, Function.update_apply] at member ⊢
  obtain ⟨made, alive, before⟩ := member
  refine ⟨made, by rw [← (setNext_apply s r next j).1]; exact alive, ?_⟩
  split at before
  next same =>
    rw [same]
    omega
  next => exact before

theorem Ring.moved (ring : Ring s sent cursor) {c : Nat} (ahead : cursor r ≤ c) (within : c ≤ s.positions sent) :
    Ring (s.setNext r (BitVec.ofNat 64 c)) sent (Function.update cursor r c) := by
  have applied := setNext_apply s r (BitVec.ofNat 64 c)
  constructor
  · exact ring.size
  · exact ring.mask
  · exact ring.pos
  · exact ring.slots
  · exact ring.marks
  · intro j alive
    rw [(applied j).1] at alive
    rw [(applied j).2, Function.update_apply]
    split
    next => exact ⟨rfl, within⟩
    next => exact ring.next j alive
  · intro p retained j alive before
    rw [(applied j).1] at alive
    apply ring.held p retained j alive
    rw [Function.update_apply] at before
    split at before
    next same =>
      rw [same]
      omega
    next => exact before
  · intro p retained
    exact (Finset.card_le_card (readers_moved s ahead p)).trans (ring.remaining p retained)
  · intro j unmade
    rw [(applied j).1]
    exact ring.unmade j unmade

theorem Ring.read (ring : Ring s sent cursor) (alive : (s.receivers r).dropped = false)
    (retained : s.Retained sent (cursor r)) :
    ∃ value u, sent[cursor r]? = some value ∧
      (s.setNext r (BitVec.ofNat 64 (cursor r + 1))).readGuard (cursor r % s.len) = .ok (some value, u) ∧
      Ring u sent (Function.update cursor r (cursor r + 1)) ∧
      u.receivers = (s.setNext r (BitVec.ofNat 64 (cursor r + 1))).receivers ∧ u.tail = s.tail ∧
      u.numTx = s.numTx ∧ u.created = s.created ∧ u.len = s.len := by
  set c := cursor r with hc
  have within : c + 1 ≤ s.positions sent := by
    have bound := retained.1
    unfold positions
    omega
  have moved := ring.moved (r := r) (c := c + 1) (by omega) within
  have counted := ring.remaining c retained
  have member : r ∈ s.readers cursor c := by
    simp only [readers, Finset.mem_filter, Finset.mem_range]
    exact ⟨ring.made alive, alive, hc.ge⟩
  have positive : 0 < (s.readers cursor c).card := Finset.card_pos.mpr ⟨r, member⟩
  have held := ring.held c retained r alive hc.ge
  obtain ⟨value, stored⟩ : ∃ value, sent[c]? = some value := ⟨_, List.getElem?_eq_getElem retained.1⟩
  set t := s.setNext r (BitVec.ofNat 64 (c + 1)) with ht
  set slot := s.buffer (c % s.len) with hslot
  have some : slot.rem ≠ 0 := by omega
  let left : Slot T := { slot with rem := slot.rem - 1, val := if slot.rem = 1 then none else slot.val }
  have ran : t.readGuard (c % s.len) = .ok (slot.val, t.setSlot (c % s.len) left) := by
    have dropped : t.dropGuard (c % s.len) = .ok (t.setSlot (c % s.len) left) := by
      unfold dropGuard
      exact if_neg some
    rw [readGuard, dropped]
    rfl
  have fewer : (t.readers (Function.update cursor r (c + 1)) c).card ≤ slot.rem - 1 := by
    have part : t.readers (Function.update cursor r (c + 1)) c ⊆ (s.readers cursor c).erase r := by
      intro j inside
      refine Finset.mem_erase.mpr ⟨?_, readers_moved s (by omega) c inside⟩
      intro same
      simp only [readers, Finset.mem_filter, same, Function.update_self] at inside
      omega
    have less := Finset.card_le_card part
    rw [Finset.card_erase_of_mem member] at less
    omega
  refine ⟨value, t.setSlot (c % s.len) left, stored, by rw [ran, held, stored], ?_, rfl, rfl, rfl, rfl, rfl⟩
  have buffer (p : Nat) : (t.setSlot (c % s.len) left).buffer p = if p = c % s.len then left else s.buffer p :=
    Function.update_apply ..
  constructor
  · exact moved.size
  · exact moved.mask
  · exact moved.pos
  · intro p below above
    have before := moved.slots p below above
    change ((t.setSlot (c % s.len) left).buffer (p % s.len)).pos + _ = _
    rw [buffer]
    split
    next same =>
      change (s.buffer (p % s.len)).pos + _ = _ at before
      rw [same] at before
      exact before
    next => exact before
  · intro p below above
    have before := moved.marks p below above
    change ((t.setSlot (c % s.len) left).buffer (p % s.len)).closed = _
    rw [buffer]
    split
    next same =>
      change (s.buffer (p % s.len)).closed = _ at before
      rw [same] at before
      exact before
    next => exact before
  · exact moved.next
  · intro p retained' j alive' before
    change ((t.setSlot (c % s.len) left).buffer (p % s.len)).val = _
    rw [buffer]
    split
    next same =>
      obtain rfl : p = c := ring.slot_inj retained' retained same
      have inside : j ∈ t.readers (Function.update cursor r (c + 1)) c := by
        simp only [readers, Finset.mem_filter, Finset.mem_range]
        exact ⟨moved.made alive', alive', before⟩
      have more := Finset.card_pos.mpr ⟨j, inside⟩
      change (if slot.rem = 1 then none else slot.val) = _
      rw [if_neg (by omega), held]
    next => exact moved.held p retained' j alive' before
  · intro p retained'
    change _ ≤ ((t.setSlot (c % s.len) left).buffer (p % s.len)).rem
    rw [buffer]
    split
    next same =>
      obtain rfl : p = c := ring.slot_inj retained' retained same
      exact fewer
    next => exact moved.remaining p retained'
  · exact moved.unmade

end Moving

end Osaka.Sync.Broadcast
