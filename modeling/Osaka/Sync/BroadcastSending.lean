import Osaka.Sync.BroadcastSteps

set_option autoImplicit false

namespace Osaka.Sync.Broadcast

open Transitions

variable {T W : Type} {s t : Broadcast T W} {r : Nat} {sent : List T} {cursor : Nat → Nat}

section Counting

def alive (s : Broadcast T W) : Finset Nat := (Finset.range s.created).filter fun r => (s.receivers r).dropped = false

theorem mem_alive (ring : Ring s sent cursor) : r ∈ s.alive ↔ (s.receivers r).dropped = false := by
  simp only [alive, Finset.mem_filter, Finset.mem_range]
  exact ⟨And.right, fun alive => ⟨ring.made alive, alive⟩⟩

theorem readers_alive (s : Broadcast T W) (cursor : Nat → Nat) (p : Nat) : s.readers cursor p ⊆ s.alive := by
  intro r member
  simp only [readers, alive, Finset.mem_filter] at member ⊢
  exact ⟨member.1, member.2.1⟩

theorem Alike.alive (alike : Alike s t) : t.alive = s.alive := by
  unfold Broadcast.alive
  rw [alike.created]
  apply Finset.filter_congr
  intro r _
  rw [alike.dropped]

end Counting

section Writing

/-- The slot of the next position has been written, with a value or as the close marker, and no one notified. -/
def written (s : Broadcast T W) (value : Option T) : Broadcast T W :=
  let slot := s.buffer (s.idx s.tail.pos)
  let t := s.setSlot (s.idx s.tail.pos)
    ⟨s.tail.rxCnt, s.tail.pos, value.isNone || slot.closed, value.elim slot.val some⟩
  { t with tail := { s.tail with pos := s.tail.pos + 1#64, closed := value.isNone || s.tail.closed } }

theorem send2_eq (s : Broadcast T W) (value : Option T) (some : s.tail.rxCnt ≠ 0) :
    s.send2 value = ((s.written value).notifyRx s.tail.waiters).map fun (t, wakers) =>
      (Option.some s.tail.rxCnt, t, wakers) := by
  unfold send2
  rw [if_neg some]
  cases value with
  | none => rfl
  | some value => rfl

theorem Listed.written (listed : Listed s) (value : Option T) : Listed (s.written value) :=
  ⟨listed.nodup, listed.listed, listed.unlisted⟩

theorem positions_written (sent : List T) (closed : s.tail.closed = false) (value : Option T) :
    (s.written value).positions (sent ++ value.toList) = s.positions sent + 1 := by
  cases value <;> simp [positions, Broadcast.written, closed]

theorem Ring.written (ring : Ring s sent cursor) (closed : s.tail.closed = false)
    (counted : s.alive.card ≤ s.tail.rxCnt) (value : Option T) :
    Ring (s.written value) (sent ++ value.toList) cursor := by
  have positive := ring.positive
  have positions := positions_written sent closed value
  have here : s.positions sent = sent.length := by simp [Broadcast.positions, closed]
  have at_ : s.idx s.tail.pos = sent.length % s.len := by rw [ring.pos, ring.idx, here]
  have own : (s.written value).buffer (sent.length % s.len) = ⟨s.tail.rxCnt, s.tail.pos,
      value.isNone || (s.buffer (sent.length % s.len)).closed,
      value.elim (s.buffer (sent.length % s.len)).val some⟩ := by
    rw [← at_]
    exact Function.update_self ..
  have others (i : Nat) (other : i ≠ sent.length % s.len) : (s.written value).buffer i = s.buffer i := by
    rw [← at_] at other
    exact Function.update_of_ne other _ _
  have unmarked := ring.marks sent.length here.le (by omega)
  rw [closed, Bool.false_and] at unmarked
  have len : (s.written value).len = s.len := rfl
  have apart {p q : Nat} (less : p < q) (within : q < p + s.len) : p % s.len ≠ q % s.len := by
    intro same
    have equal := lap_unique (le_refl p) (by omega) less.le within same
    omega
  constructor
  · exact ring.size
  · exact ring.mask
  · rw [positions]
    change s.tail.pos + 1#64 = _
    rw [ring.pos]
    exact ofNat_add _ 1
  · intro p below above
    rw [positions, here] at below above
    rw [len] at above ⊢
    by_cases last : p = sent.length + s.len
    · rw [last, Nat.add_mod_right, own]
      change s.tail.pos + _ = _
      rw [ring.pos, here, ofNat_add]
    · rw [others _ (apart (by omega) (by omega)).symm]
      exact ring.slots p (by omega) (by omega)
  · intro p below above
    rw [positions, here] at below above ⊢
    rw [len] at above ⊢
    change _ = ((value.isNone || s.tail.closed) && _)
    rw [closed, Bool.or_false]
    by_cases last : p = sent.length + s.len
    · have end_ : p + 1 = sent.length + 1 + s.len := by omega
      rw [decide_eq_true end_, last, Nat.add_mod_right, own, Bool.and_true]
      change (value.isNone || (s.buffer _).closed) = _
      rw [unmarked, Bool.or_false]
    · have before : p + 1 ≠ sent.length + 1 + s.len := by omega
      rw [decide_eq_false before, Bool.and_false, others _ (apart (by omega) (by omega)).symm,
        ring.marks p (by omega) (by omega), closed, Bool.false_and]
  · intro r alive
    rw [positions]
    obtain ⟨next, least⟩ := ring.next r alive
    exact ⟨next, by omega⟩
  · intro p retained r alive before
    obtain ⟨below, within⟩ := retained
    rw [len] at within ⊢
    cases value with
    | none =>
      simp only [Option.toList_none, List.append_nil] at below within ⊢
      have old := ring.held p ⟨below, within⟩ r alive before
      by_cases same : p % s.len = sent.length % s.len
      · rw [same, own, ← same]
        exact old
      · rw [others _ same]
        exact old
    | some value =>
      simp only [Option.toList_some, List.length_append, List.length_singleton] at below within ⊢
      by_cases new : p = sent.length
      · rw [new, own]
        simp
      · rw [others _ (apart (by omega) (by omega)), List.getElem?_append_left (by omega)]
        exact ring.held p ⟨by omega, by omega⟩ r alive before
  · intro p retained
    obtain ⟨below, within⟩ := retained
    rw [len] at within ⊢
    have fewer : ((s.written value).readers cursor p).card ≤ s.tail.rxCnt :=
      (Finset.card_le_card (readers_alive s cursor p)).trans counted
    by_cases same : p % s.len = sent.length % s.len
    · rw [same, own]
      exact fewer
    · rw [others _ same]
      refine ring.remaining p ⟨?_, by simp only [List.length_append] at within; omega⟩
      have new : p ≠ sent.length := fun equal => same (by rw [equal])
      cases value with
      | none =>
        simp only [Option.toList_none, List.append_nil] at below
        exact below
      | some value =>
        simp only [Option.toList_some, List.length_append, List.length_singleton] at below
        omega
  · exact ring.unmade

end Writing

section Subscribing

def subscribed (s : Broadcast T W) : Broadcast T W :=
  { s.setReceiver s.created ⟨s.tail.pos, false, .new, false⟩ with
    tail := { s.tail with rxCnt := s.tail.rxCnt + 1 }
    created := s.created + 1 }

theorem Ring.subscribed (ring : Ring s sent cursor) :
    Ring s.subscribed sent (Function.update cursor s.created (s.positions sent)) := by
  have own : s.subscribed.receivers s.created = ⟨s.tail.pos, false, .new, false⟩ := Function.update_self ..
  have others (r : Nat) (other : r ≠ s.created) : s.subscribed.receivers r = s.receivers r :=
    Function.update_of_ne other _ _
  have past (p : Nat) (retained : p < sent.length) : ¬s.positions sent ≤ p := by
    unfold Broadcast.positions
    omega
  constructor
  · exact ring.size
  · exact ring.mask
  · exact ring.pos
  · exact ring.slots
  · exact ring.marks
  · intro r alive
    by_cases new : r = s.created
    · rw [new, own, Function.update_self]
      exact ⟨ring.pos, le_refl _⟩
    · rw [others r new] at alive ⊢
      rw [Function.update_of_ne new]
      exact ring.next r alive
  · intro p retained r alive before
    have old : r ≠ s.created := by
      intro new
      rw [new, Function.update_self] at before
      exact past p retained.1 before
    rw [others r old] at alive
    rw [Function.update_of_ne old] at before
    exact ring.held p retained r alive before
  · intro p retained
    refine (Finset.card_le_card ?_).trans (ring.remaining p retained)
    intro r member
    simp only [readers, Finset.mem_filter, Finset.mem_range] at member ⊢
    obtain ⟨made, alive, before⟩ := member
    have old : r ≠ s.created := by
      intro new
      rw [new, Function.update_self] at before
      exact past p retained.1 before
    rw [others r old] at alive
    rw [Function.update_of_ne old] at before
    exact ⟨ring.made alive, alive, before⟩
  · intro r unmade
    have above : s.created + 1 ≤ r := unmade
    rw [others r (by omega)]
    exact ring.unmade r (by omega)

theorem alive_subscribed (ring : Ring s sent cursor) : s.subscribed.alive = insert s.created s.alive := by
  ext r
  rw [mem_alive ring.subscribed, Finset.mem_insert, mem_alive ring]
  by_cases new : r = s.created
  · simp [new, subscribed, setReceiver]
  · simp [new, subscribed, setReceiver]

end Subscribing

section Starting

structure Made (s : Broadcast T W) (capacity : Nat) : Prop where
  ring : Ring s [] fun _ => 0
  listed : Listed s
  len : s.len = nextPowerOfTwo capacity
  alive : s.alive = {0}
  created : s.created = 1
  rxCnt : s.tail.rxCnt = 1
  closed : s.tail.closed = false
  waiters : s.tail.waiters = []
  numTx : s.numTx = 1

theorem channel_made {capacity : Nat} (made : channel capacity = some s) : Made s capacity := by
  unfold channel at made
  split at made
  case isFalse => exact absurd made (by simp)
  case isTrue accepted =>
    obtain rfl := Option.some.inj made
    obtain ⟨k, least, size⟩ := nextPowerOfTwo_eq accepted.2
    constructor
    case ring =>
      constructor
      · exact ⟨k, least, size⟩
      · rfl
      · rfl
      · intro p _ within
        rw [positions] at within
        simp only [List.length_nil, Bool.toNat_false, Nat.zero_add, Nat.add_zero] at within
        dsimp only
        rw [Nat.mod_eq_of_lt within, BitVec.sub_add_cancel]
      · intro p _ _
        rfl
      · intro r _
        exact ⟨rfl, Nat.zero_le _⟩
      · intro p retained
        exact absurd retained.1 (Nat.not_lt_zero p)
      · intro p retained
        exact absurd retained.1 (Nat.not_lt_zero p)
      · intro r unmade
        have other : r ≠ 0 := (Nat.lt_of_lt_of_le Nat.one_pos unmade).ne'
        simp [other]
    case listed => exact ⟨List.nodup_nil, by simp, by simp [Waiter.new]⟩
    case alive =>
      ext r
      simp [alive]
    all_goals rfl

end Starting

end Osaka.Sync.Broadcast
