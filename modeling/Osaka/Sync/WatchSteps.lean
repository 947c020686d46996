import Mathlib.Data.Finset.Card
import Mathlib.Data.Finset.Range
import Osaka.Sync.WatchRooms

set_option autoImplicit false

namespace Osaka.Sync.Watch

open Transitions

variable {T W : Type} {s t : Watch T W}

section Words

/-- The state after so many increments. -/
def word (increments : Nat) (closed : Bool) : BitVec 64 := BitVec.ofNat 64 (2 * increments + closed.toNat)

variable (n : Nat) (closed : Bool)

theorem word_bit (i : Nat) :
    (word n closed).getLsbD i = (decide (i < 64) && if i = 0 then closed else n.testBit (i - 1)) := by
  rw [word, BitVec.getLsbD_ofNat]
  congr 1
  cases i with
  | zero => cases closed <;> simp [Nat.testBit_zero]
  | succ i =>
    have half : (2 * n + closed.toNat) / 2 = n := by
      have bit := closed.toNat_le
      omega
    simp [Nat.testBit_succ, half]

theorem incrementVersion_word : State.incrementVersion (word n closed) = word (n + 1) closed := by
  rw [State.incrementVersion, word, word, ← BitVec.ofNat_add]
  congr 1
  omega

theorem closed_bit (i : Nat) : CLOSED.getLsbD i = decide (i = 0) := by
  simp [CLOSED]

theorem setClosed_word : State.setClosed (word n closed) = word n true := by
  apply BitVec.eq_of_getLsbD_eq
  intro i inside
  rw [State.setClosed, BitVec.getLsbD_or, word_bit, word_bit, closed_bit]
  by_cases first : i = 0 <;> simp [first, inside]

theorem version_word : State.version (word n closed) = word n false := by
  apply BitVec.eq_of_getLsbD_eq
  intro i inside
  rw [State.version, BitVec.getLsbD_and, BitVec.getLsbD_not, word_bit, word_bit, closed_bit]
  by_cases first : i = 0 <;> simp [first, inside]

theorem isClosed_word : State.isClosed (word n closed) = closed := by
  have masked : word n closed &&& CLOSED = word 0 closed := by
    apply BitVec.eq_of_getLsbD_eq
    intro i inside
    rw [BitVec.getLsbD_and, word_bit, word_bit, closed_bit]
    by_cases first : i = 0 <;> simp [first, inside]
  rw [State.isClosed, masked]
  cases closed <;> decide

variable {n closed} {m : Nat}

/-- Versions are told apart unless they are a multiple of what the word has room for apart. -/
theorem word_eq_iff (older : m ≤ n) : word m false = word n false ↔ 2 ^ 63 ∣ n - m := by
  rw [← BitVec.toNat_inj]
  simp only [word, BitVec.toNat_ofNat, Bool.toNat_false, Nat.add_zero]
  omega

theorem word_inj (few : n < 2 ^ 63) (few' : m < 2 ^ 63) (same : word n false = word m false) : n = m := by
  rcases Nat.le_total m n with older | older
  · have multiple := (word_eq_iff older).mp same.symm
    omega
  · have multiple := (word_eq_iff older).mp same
    omega

end Words

section Living

def living (s : Watch T W) : Finset Nat := (Finset.range s.made).filter fun r => (s.receivers r).dropped = false

theorem mem_living {r : Nat} : r ∈ s.living ↔ r < s.made ∧ (s.receivers r).dropped = false := by
  simp [living]

theorem living_set {r : Nat} {receiver : Receiver} (same : receiver.dropped = (s.receivers r).dropped) :
    (s.setReceiver r receiver).living = s.living := by
  ext q
  rw [mem_living, mem_living]
  by_cases here : q = r
  · subst here
    simp [setReceiver, same]
  · simp [setReceiver, here]

theorem living_drop {r : Nat} {receiver : Receiver} (dropped : receiver.dropped = true) :
    (s.setReceiver r receiver).living = s.living.erase r := by
  ext q
  rw [Finset.mem_erase, mem_living, mem_living]
  by_cases here : q = r
  · subst here
    simp [setReceiver, dropped]
  · simp [setReceiver, here]

theorem living_fromShared (version : BitVec 64) : (s.fromShared version).living = insert s.made s.living := by
  ext q
  rw [Finset.mem_insert, mem_living, mem_living]
  by_cases here : q = s.made
  · subst here
    simp [fromShared, setReceiver]
  · have before : q < s.made + 1 ↔ q < s.made := by omega
    simp [fromShared, setReceiver, here, before]

end Living

end Osaka.Sync.Watch
