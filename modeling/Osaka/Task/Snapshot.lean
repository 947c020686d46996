import Osaka.Shared.PackedWord

set_option autoImplicit false

namespace Osaka.Task

open PackedWord

/-- What can go wrong: an assertion of `state.rs`, `harness.rs` or `core.rs` fails. -/
inductive Fault where
  -- assert!(next.is_notified())
  | notNotified
  -- assert!(curr.is_running())
  | notRunning
  -- assert!(!prev.is_complete())
  | alreadyComplete
  -- assert!(self.ref_count() > 0) and its like; "current: {}, sub: {}"
  | refCount
  -- assert!(self.0 <= isize::MAX as usize), and the abort of `ref_inc`
  | overflow
  -- assert!(curr.is_join_interested())
  | notJoinInterested
  -- assert!(!curr.has_join_waker())
  | hasJoinWaker
  -- assert!(curr.has_join_waker())
  | noJoinWaker
  -- assert!(snapshot.is_complete())
  | notComplete
  -- unreachable!("unexpected stage")
  | unexpectedStage
  -- the trailer holds no waker: panic!("waker missing"), and the unwrap of will_wake
  | wakerMissing
  -- two parties hold the lock that RUNNING stands for
  | twoRunners
  deriving DecidableEq

def RUNNING : BitVec 64 := 0b0001#64

def COMPLETE : BitVec 64 := 0b0010#64

def LIFECYCLE_MASK : BitVec 64 := 0b11#64

def NOTIFIED : BitVec 64 := 0b100#64

def JOIN_INTEREST : BitVec 64 := 0b1000#64

def JOIN_WAKER : BitVec 64 := 0b10000#64

def CANCELLED : BitVec 64 := 0b100000#64

def STATE_MASK : BitVec 64 := LIFECYCLE_MASK ||| NOTIFIED ||| JOIN_INTEREST ||| JOIN_WAKER ||| CANCELLED

def REF_COUNT_MASK : BitVec 64 := ~~~STATE_MASK

-- REF_COUNT_MASK.count_zeros()
def REF_COUNT_SHIFT : Nat := 6

def REF_ONE : BitVec 64 := 1#64 <<< REF_COUNT_SHIFT

def INITIAL_STATE : BitVec 64 := (REF_ONE * 3#64) ||| JOIN_INTEREST ||| NOTIFIED

structure Snapshot where
  val : BitVec 64
  deriving DecidableEq

inductive Flag where
  | running
  | complete
  | notified
  | joinInterest
  | joinWaker
  | cancelled
  deriving DecidableEq

def Flag.mask : Flag → BitVec 64
  | .running => RUNNING
  | .complete => COMPLETE
  | .notified => NOTIFIED
  | .joinInterest => JOIN_INTEREST
  | .joinWaker => JOIN_WAKER
  | .cancelled => CANCELLED

def Flag.index : Flag → Nat
  | .running => 0
  | .complete => 1
  | .notified => 2
  | .joinInterest => 3
  | .joinWaker => 4
  | .cancelled => 5

namespace Snapshot

variable (s : Snapshot)

def has (flag : Flag) : Bool := s.val &&& flag.mask == flag.mask

def set (flag : Flag) : Snapshot := ⟨s.val ||| flag.mask⟩

def unset (flag : Flag) : Snapshot := ⟨s.val &&& ~~~flag.mask⟩

def isIdle : Bool := s.val &&& (RUNNING ||| COMPLETE) == 0#64

def isNotified : Bool := s.has .notified

def unsetNotified : Snapshot := s.unset .notified

def setNotified : Snapshot := s.set .notified

def isRunning : Bool := s.has .running

def setRunning : Snapshot := s.set .running

def unsetRunning : Snapshot := s.unset .running

def isCancelled : Bool := s.has .cancelled

def setCancelled : Snapshot := s.set .cancelled

def isComplete : Bool := s.has .complete

def isJoinInterested : Bool := s.has .joinInterest

def unsetJoinInterested : Snapshot := s.unset .joinInterest

def hasJoinWaker : Bool := s.has .joinWaker

def setJoinWaker : Snapshot := s.set .joinWaker

def unsetJoinWaker : Snapshot := s.unset .joinWaker

def refCount : Nat := ((s.val &&& REF_COUNT_MASK) >>> REF_COUNT_SHIFT).toNat

-- fetch_add(REF_ONE) and fetch_sub(count * REF_ONE), both wrapping
def add : Snapshot := ⟨s.val + REF_ONE⟩

def sub (count : Nat) : Snapshot := ⟨s.val - BitVec.ofNat 64 count * REF_ONE⟩

-- fetch_xor(RUNNING | COMPLETE)
def flip : Snapshot := ⟨s.val ^^^ (RUNNING ||| COMPLETE)⟩

def refInc : Except Fault Snapshot :=
  if s.val.toNat ≤ 2 ^ 63 - 1 then .ok s.add else .error .overflow

def refDec : Except Fault Snapshot :=
  if s.refCount > 0 then .ok (s.sub 1) else .error .refCount

end Snapshot

section Packed

variable {s : Snapshot} {flag flag' : Flag}

theorem Flag.mask_eq (flag : Flag) : flag.mask = BitVec.twoPow 64 flag.index := by
  cases flag <;> rfl

theorem Flag.index_lt (flag : Flag) : flag.index < 6 := by
  cases flag <;> decide

theorem Flag.index_inj : flag.index = flag'.index ↔ flag = flag' := by
  cases flag <;> cases flag' <;> decide

theorem Snapshot.has_eq (s : Snapshot) (flag : Flag) : s.has flag = PackedWord.has s.val flag.index := by
  rw [Snapshot.has, flag.mask_eq, PackedWord.has]

@[simp, grind =]
theorem Snapshot.has_set : (s.set flag).has flag' = (decide (flag = flag') || s.has flag') := by
  have inside := flag.index_lt
  have inside' := flag'.index_lt
  rw [Snapshot.has_eq, Snapshot.has_eq, Snapshot.set, flag.mask_eq]
  have packed := PackedWord.has_set (x := s.val) (i := flag.index) (j := flag'.index) (by omega) (by omega)
  simpa only [PackedWord.set, Flag.index_inj] using packed

@[simp, grind =]
theorem Snapshot.has_unset : (s.unset flag).has flag' = (!decide (flag = flag') && s.has flag') := by
  have inside := flag.index_lt
  have inside' := flag'.index_lt
  rw [Snapshot.has_eq, Snapshot.has_eq, Snapshot.unset, flag.mask_eq]
  have packed := PackedWord.has_unset (x := s.val) (i := flag.index) (j := flag'.index) (by omega) (by omega)
  simpa only [PackedWord.unset, Flag.index_inj] using packed

theorem Snapshot.isIdle_eq (s : Snapshot) : s.isIdle = (!s.has .running && !s.has .complete) := by
  have idle : s.isIdle = true ↔ (!s.has .running && !s.has .complete) = true := by
    have running := PackedWord.and_eq_zero (x := s.val) (i := 0) (by decide : 0 < 64)
    have complete := PackedWord.and_eq_zero (x := s.val) (i := 1) (by decide : 1 < 64)
    simp only [Snapshot.isIdle, beq_iff_eq, BitVec.and_or_distrib_left, BitVec.or_eq_zero_iff]
    simp only [Snapshot.has_eq, Flag.index, Bool.and_eq_true, Bool.not_eq_true', ← running, ← complete]
    rfl
  exact Bool.eq_iff_iff.mpr idle

theorem refCount_mask_bits : ∀ i : Fin 64, 6 ≤ i.val → REF_COUNT_MASK.getLsbD i = true := by
  decide

theorem Snapshot.refCount_eq (s : Snapshot) : s.refCount = PackedWord.count 6 s.val := by
  have shifted : (s.val &&& REF_COUNT_MASK) >>> REF_COUNT_SHIFT = s.val >>> 6 := by
    apply BitVec.eq_of_getLsbD_eq
    intro i inside
    by_cases room : 6 + i < 64
    · have counting := refCount_mask_bits ⟨6 + i, room⟩ (Nat.le_add_right 6 i)
      simp [REF_COUNT_SHIFT, counting]
    · simp [REF_COUNT_SHIFT, BitVec.getLsbD_of_ge _ _ (Nat.le_of_not_lt room)]
  rw [Snapshot.refCount, shifted, BitVec.toNat_ushiftRight, Nat.shiftRight_eq_div_pow, PackedWord.count]

@[simp, grind =]
theorem Snapshot.refCount_set : (s.set flag).refCount = s.refCount := by
  rw [Snapshot.refCount_eq, Snapshot.refCount_eq, Snapshot.set, flag.mask_eq]
  exact PackedWord.count_set flag.index_lt

@[simp, grind =]
theorem Snapshot.refCount_unset : (s.unset flag).refCount = s.refCount := by
  rw [Snapshot.refCount_eq, Snapshot.refCount_eq, Snapshot.unset, flag.mask_eq]
  exact PackedWord.count_unset flag.index_lt

theorem Snapshot.flip_val (s : Snapshot) : s.flip.val = PackedWord.flip (PackedWord.flip s.val 0) 1 := by
  rw [Snapshot.flip, PackedWord.flip, PackedWord.flip, BitVec.xor_assoc]
  rfl

@[simp, grind =]
theorem Snapshot.has_flip :
    s.flip.has flag' = ((decide (flag' = .running) || decide (flag' = .complete)) ^^ s.has flag') := by
  have inside' := flag'.index_lt
  rw [Snapshot.has_eq, Snapshot.flip_val, PackedWord.has_flip (by decide) (by omega),
    PackedWord.has_flip (by decide) (by omega), Snapshot.has_eq]
  cases flag' <;> simp [Flag.index]

@[simp, grind =]
theorem Snapshot.refCount_flip : s.flip.refCount = s.refCount := by
  rw [Snapshot.refCount_eq, Snapshot.flip_val, PackedWord.count_flip (by decide), PackedWord.count_flip (by decide),
    Snapshot.refCount_eq]

theorem Snapshot.sub_val (s : Snapshot) (count : Nat) :
    (s.sub count).val = s.val - BitVec.ofNat 64 (count * 2 ^ 6) := by
  rw [Snapshot.sub, ← BitVec.ofNat_mul_ofNat]
  rfl

@[simp, grind =]
theorem Snapshot.has_sub {count : Nat} (enough : count ≤ s.refCount) : (s.sub count).has flag = s.has flag := by
  have inside := flag.index_lt
  rw [Snapshot.refCount_eq] at enough
  rw [Snapshot.has_eq, Snapshot.sub_val, PackedWord.has_sub (by omega) inside enough, Snapshot.has_eq]

@[simp, grind =]
theorem Snapshot.refCount_sub {count : Nat} (enough : count ≤ s.refCount) :
    (s.sub count).refCount = s.refCount - count := by
  rw [Snapshot.refCount_eq] at enough
  rw [Snapshot.refCount_eq, Snapshot.sub_val, PackedWord.count_sub enough, Snapshot.refCount_eq]

theorem Snapshot.roomy (room : s.refCount < 2 ^ 56) : s.val.toNat + 1 * 2 ^ 6 < 2 ^ 63 := by
  rw [Snapshot.refCount_eq, PackedWord.count, Nat.div_lt_iff_lt_mul (by decide)] at room
  omega

@[simp, grind =]
theorem Snapshot.has_add (room : s.refCount < 2 ^ 56) : s.add.has flag = s.has flag := by
  have inside := flag.index_lt
  have roomy := Snapshot.roomy room
  rw [Snapshot.has_eq, Snapshot.add, show REF_ONE = BitVec.ofNat 64 (1 * 2 ^ 6) from rfl,
    PackedWord.has_add (by omega) inside (by omega), Snapshot.has_eq]

@[simp, grind =]
theorem Snapshot.refCount_add (room : s.refCount < 2 ^ 56) : s.add.refCount = s.refCount + 1 := by
  have roomy := Snapshot.roomy room
  rw [Snapshot.refCount_eq, Snapshot.add, show REF_ONE = BitVec.ofNat 64 (1 * 2 ^ 6) from rfl,
    PackedWord.count_add (by omega), Snapshot.refCount_eq]

theorem Snapshot.refInc_eq (room : s.refCount < 2 ^ 56) : s.refInc = .ok s.add := by
  have roomy := Snapshot.roomy room
  exact if_pos (by omega)

theorem Snapshot.refDec_eq (held : 0 < s.refCount) : s.refDec = .ok (s.sub 1) :=
  if_pos held

end Packed

end Osaka.Task
