import Mathlib.Data.Nat.Bitwise

set_option autoImplicit false

namespace PackedWord

variable {w k i j n : Nat} {x : BitVec w}

/-- A word packs flags into its bits below `k`, and a counter into the others. -/
def has (x : BitVec w) (i : Nat) : Bool := x &&& BitVec.twoPow w i == BitVec.twoPow w i

def set (x : BitVec w) (i : Nat) : BitVec w := x ||| BitVec.twoPow w i

def unset (x : BitVec w) (i : Nat) : BitVec w := x &&& ~~~BitVec.twoPow w i

def flip (x : BitVec w) (i : Nat) : BitVec w := x ^^^ BitVec.twoPow w i

def count (k : Nat) (x : BitVec w) : Nat := x.toNat / 2 ^ k

theorem twoPow_ne_zero (inside : i < w) : BitVec.twoPow w i ≠ 0#w := by
  intro same
  have bits := congrArg (fun y => y.getLsbD i) same
  simp [inside] at bits

theorem has_eq (inside : i < w) : has x i = x.getLsbD i := by
  unfold has
  rw [BitVec.and_twoPow]
  cases bit : x.getLsbD i with
  | true => simp
  | false => simpa using (twoPow_ne_zero inside).symm

theorem and_eq_zero (inside : i < w) : x &&& BitVec.twoPow w i = 0#w ↔ has x i = false := by
  rw [has_eq inside, BitVec.and_twoPow]
  cases bit : x.getLsbD i with
  | true => simpa using twoPow_ne_zero inside
  | false => simp

theorem has_set (inside : i < w) (inside' : j < w) : has (set x i) j = (decide (i = j) || has x j) := by
  rw [has_eq inside', has_eq inside', set, BitVec.getLsbD_or, BitVec.getLsbD_twoPow, Bool.or_comm]
  simp [inside]

theorem has_unset (inside : i < w) (inside' : j < w) :
    has (unset x i) j = (!decide (i = j) && has x j) := by
  rw [has_eq inside', has_eq inside', unset, BitVec.getLsbD_and, BitVec.getLsbD_not,
    BitVec.getLsbD_twoPow, Bool.and_comm]
  simp [inside, inside']

theorem has_flip (inside : i < w) (inside' : j < w) :
    has (flip x i) j = (decide (i = j) ^^ has x j) := by
  rw [has_eq inside', has_eq inside', flip, BitVec.getLsbD_xor, BitVec.getLsbD_twoPow, Bool.xor_comm]
  simp [inside]

theorem count_congr {x y : BitVec w} (same : ∀ j, x.getLsbD (k + j) = y.getLsbD (k + j)) :
    count k x = count k y := by
  apply Nat.eq_of_testBit_eq
  intro j
  have agree := same j
  simpa only [count, Nat.testBit_div_two_pow, BitVec.testBit_toNat, Nat.add_comm j k] using agree

theorem count_set (flag : i < k) : count k (set x i) = count k x := by
  apply count_congr
  intro j
  have away : i ≠ k + j := by omega
  simp [set, BitVec.getLsbD_twoPow, away]

theorem count_unset (flag : i < k) : count k (unset x i) = count k x := by
  apply count_congr
  intro j
  have away : k + j ≠ i := by omega
  by_cases inside : k + j < w
  · simp [unset, away, inside]
  · simp [unset, BitVec.getLsbD_of_ge _ _ (Nat.le_of_not_lt inside)]

theorem count_flip (flag : i < k) : count k (flip x i) = count k x := by
  apply count_congr
  intro j
  have away : i ≠ k + j := by omega
  simp [flip, BitVec.getLsbD_twoPow, away]

section Counting

theorem toNat_add (room : x.toNat + n * 2 ^ k < 2 ^ w) :
    (x + BitVec.ofNat w (n * 2 ^ k)).toNat = x.toNat + n * 2 ^ k := by
  have small : n * 2 ^ k < 2 ^ w := by omega
  rw [BitVec.toNat_add, BitVec.toNat_ofNat, Nat.mod_eq_of_lt small, Nat.mod_eq_of_lt room]

theorem toNat_sub (enough : n ≤ count k x) :
    (x - BitVec.ofNat w (n * 2 ^ k)).toNat = x.toNat - n * 2 ^ k := by
  have below : n * 2 ^ k ≤ x.toNat := (Nat.le_div_iff_mul_le (Nat.two_pow_pos k)).mp enough
  have bound := x.isLt
  have small : n * 2 ^ k < 2 ^ w := by omega
  rw [BitVec.toNat_sub, BitVec.toNat_ofNat, Nat.mod_eq_of_lt small]
  have shift : 2 ^ w - n * 2 ^ k + x.toNat = x.toNat - n * 2 ^ k + 2 ^ w := by omega
  rw [shift, Nat.add_mod_right, Nat.mod_eq_of_lt (by omega)]

theorem count_add (room : x.toNat + n * 2 ^ k < 2 ^ w) :
    count k (x + BitVec.ofNat w (n * 2 ^ k)) = count k x + n := by
  rw [count, toNat_add room, Nat.add_mul_div_right _ _ (Nat.two_pow_pos k), count]

theorem count_sub (enough : n ≤ count k x) :
    count k (x - BitVec.ofNat w (n * 2 ^ k)) = count k x - n := by
  rw [count, toNat_sub enough, Nat.mul_comm, Nat.sub_mul_div, count]

theorem has_congr {x y : BitVec w} (inside : i < w) (flag : i < k)
    (same : x.toNat % 2 ^ k = y.toNat % 2 ^ k) : has x i = has y i := by
  have bit (z : BitVec w) : z.getLsbD i = (z.toNat % 2 ^ k).testBit i := by
    simp [Nat.testBit_mod_two_pow, flag, BitVec.testBit_toNat]
  rw [has_eq inside, has_eq inside, bit x, bit y, same]

theorem has_add (inside : i < w) (flag : i < k) (room : x.toNat + n * 2 ^ k < 2 ^ w) :
    has (x + BitVec.ofNat w (n * 2 ^ k)) i = has x i := by
  apply has_congr inside flag
  rw [toNat_add room, Nat.add_mul_mod_self_right]

theorem has_sub (inside : i < w) (flag : i < k) (enough : n ≤ count k x) :
    has (x - BitVec.ofNat w (n * 2 ^ k)) i = has x i := by
  apply has_congr inside flag
  have below : n * 2 ^ k ≤ x.toNat := (Nat.le_div_iff_mul_le (Nat.two_pow_pos k)).mp enough
  rw [toNat_sub enough, Nat.mul_comm, Nat.sub_mul_mod (by rwa [Nat.mul_comm])]

end Counting

section Fields

def mask (w k : Nat) : BitVec w := BitVec.twoPow w k - 1#w

def low (k : Nat) (x : BitVec w) : BitVec w := x &&& mask w k

def setLow (k : Nat) (x y : BitVec w) : BitVec w := x &&& ~~~mask w k ||| y &&& mask w k

theorem getLsbD_mask (inside : k < w) (i : Nat) : (mask w k).getLsbD i = decide (i < k) := by
  have one : 1 ≤ 2 ^ k := Nat.one_le_two_pow
  have small : 2 ^ k < 2 ^ w := Nat.pow_lt_pow_right (by decide) inside
  have value : (mask w k).toNat = 2 ^ k - 1 := by
    have first : 1 % 2 ^ w = 1 := Nat.mod_eq_of_lt (by omega)
    rw [mask, BitVec.toNat_sub, BitVec.toNat_twoPow, Nat.mod_eq_of_lt small, BitVec.toNat_ofNat, first]
    have shift : 2 ^ w - 1 + 2 ^ k = 2 ^ k - 1 + 2 ^ w := by omega
    rw [shift, Nat.add_mod_right, Nat.mod_eq_of_lt (by omega)]
  rw [← BitVec.testBit_toNat, value, Nat.testBit_two_pow_sub_one]

theorem low_setLow (inside : k < w) (x y : BitVec w) : low k (setLow k x y) = low k y := by
  apply BitVec.eq_of_getLsbD_eq
  intro i within
  simp only [low, setLow, BitVec.getLsbD_and, BitVec.getLsbD_or, BitVec.getLsbD_not, getLsbD_mask inside, within]
  by_cases below : i < k <;> simp [below]

theorem count_setLow (inside : k < w) (x y : BitVec w) : count k (setLow k x y) = count k x := by
  apply count_congr
  intro j
  have beyond : ¬k + j < k := by omega
  simp only [setLow, BitVec.getLsbD_and, BitVec.getLsbD_or, BitVec.getLsbD_not, getLsbD_mask inside, beyond]
  by_cases within : k + j < w
  · simp [within]
  · simp [within, BitVec.getLsbD_of_ge x _ (Nat.le_of_not_lt within)]

theorem low_toNat (inside : k < w) (x : BitVec w) : (low k x).toNat = x.toNat % 2 ^ k := by
  apply Nat.eq_of_testBit_eq
  intro i
  rw [BitVec.testBit_toNat, low, BitVec.getLsbD_and, getLsbD_mask inside, Nat.testBit_mod_two_pow,
    BitVec.testBit_toNat, Bool.and_comm]

theorem eq_of_low_count (inside : k < w) {x y : BitVec w} (field : low k x = low k y) (counts : count k x = count k y) :
    x = y := by
  have fields := congrArg BitVec.toNat field
  rw [low_toNat inside, low_toNat inside] at fields
  apply BitVec.eq_of_toNat_eq
  rw [← Nat.div_add_mod x.toNat (2 ^ k), ← Nat.div_add_mod y.toNat (2 ^ k), fields]
  unfold count at counts
  rw [counts]

theorem low_add (inside : k < w) (n : Nat) (x : BitVec w) : low k (x + BitVec.ofNat w (n * 2 ^ k)) = low k x := by
  apply BitVec.eq_of_toNat_eq
  have divides : 2 ^ k ∣ 2 ^ w := Nat.pow_dvd_pow 2 inside.le
  rw [low_toNat inside, low_toNat inside, BitVec.toNat_add, BitVec.toNat_ofNat, Nat.mod_mod_of_dvd _ divides,
    Nat.add_mod, Nat.mod_mod_of_dvd _ divides]
  simp

end Fields

end PackedWord
