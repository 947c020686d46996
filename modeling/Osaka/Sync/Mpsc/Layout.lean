import Osaka.Sync.Mpsc.BlockList

set_option autoImplicit false

namespace Osaka.Sync.Mpsc

variable {T : Type}

section Bits

variable {bits : BitVec 64} {i j : Nat}

theorem isReady_eq (inside : j < 64) : isReady bits j = bits.getLsbD j := by
  rw [← PackedWord.has_eq inside, isReady, PackedWord.has, BEq.comm, BitVec.and_comm]

theorem isTxClosed_eq : isTxClosed bits = bits.getLsbD 33 := by
  rw [← PackedWord.has_eq (by decide), isTxClosed, PackedWord.has, BEq.comm]
  rfl

theorem released_iff : 0 = RELEASED &&& bits ↔ bits.getLsbD 32 = false := by
  rw [← PackedWord.has_eq (by decide), ← PackedWord.and_eq_zero (by decide), BitVec.and_comm, eq_comm]
  rfl

theorem getLsbD_set (inside : i < 64) : (PackedWord.set bits i).getLsbD j = (decide (i = j) || bits.getLsbD j) := by
  rw [PackedWord.set, BitVec.getLsbD_or, BitVec.getLsbD_twoPow, Bool.or_comm]
  simp [inside]

theorem mask_getLsbD : ∀ j < 64, READY_MASK.getLsbD j = decide (j < 32) := by decide

theorem isFinal_iff {block : Block T} :
    block.isFinal = true ↔ ∀ j < 32, block.readySlots.getLsbD j = true := by
  rw [Block.isFinal, beq_iff_eq]
  constructor
  · intro final j inside
    have bit := congrArg (fun x => x.getLsbD j) final
    simpa [mask_getLsbD j (by omega), inside] using bit
  · intro ready
    apply BitVec.eq_of_getLsbD_eq
    intro j inside
    rw [BitVec.getLsbD_and, mask_getLsbD j inside]
    by_cases slot : j < 32
    · simp [slot, ready j slot]
    · simp [slot]

end Bits

structure Fifo (T : Type) where
  values : List T
  closed : Bool

/-- Where the blocks are: block `n` is for the slots from `32 * n` on. -/
structure Layout where
  address : Nat → Nat
  -- the blocks from `first` on, before `last`, are linked
  first : Nat
  last : Nat
  head : Nat
  tail : Nat

/-- Block `n`, when the receiver is at `index` and there are the values of the queue from there on. -/
structure Contents (y : Layout) (index : Nat) (q : Fifo T) (n : Nat) (b : Block T) : Prop where
  start : b.startIndex = 32 * n
  next : b.next = if n + 1 < y.last then some (y.address (n + 1)) else none
  ready : ∀ j < 32, b.readySlots.getLsbD j = decide (32 * n + j < index + q.values.length)
  released : b.readySlots.getLsbD 32 = decide (n < y.tail)
  closed : b.readySlots.getLsbD 33 = (q.closed && decide ((index + q.values.length) / 32 = n))
  observed : n < y.tail → b.observedTailPosition = 32 * (n + 1) + 1
  values : ∀ j < 32, b.values j = if index ≤ 32 * n + j then q.values[32 * n + j - index]? else none

structure Holds (y : Layout) (q : Fifo T) (l : BlockList T) : Prop where
  head_le : y.first ≤ y.head
  head_lt : y.head < y.last
  tail_le : y.first ≤ y.tail
  tail_lt : y.tail < y.last
  apart : ∀ m n, y.first ≤ m → m < y.last → y.first ≤ n → n < y.last → y.address m = y.address n → m = n
  used : ∀ n, y.first ≤ n → n < y.last → y.address n < l.allocated
  unused : ∀ a, l.allocated ≤ a → l.blocks a = none
  contents : ∀ n, y.first ≤ n → n < y.last → ∃ b, l.blocks (y.address n) = some b ∧ Contents y l.index q n b
  blockTail : l.blockTail = y.address y.tail
  headAt : l.head = y.address y.head
  freeHead : l.freeHead = y.address y.first
  near : 32 * y.head ≤ l.index ∧ l.index ≤ 32 * y.head + 32
  room : l.index + q.values.length + q.closed.toNat ≤ 32 * (y.tail + 1)
  enough : y.last ≤ y.first + l.allocated

/-- Between the operations the positions agree with the queue. -/
structure Represents (y : Layout) (q : Fifo T) (l : BlockList T) : Prop where
  holds : Holds y q l
  position : l.tailPosition = l.index + q.values.length + q.closed.toNat
  tail : y.tail = (l.tailPosition - 1) / 32

/-- The blocks of the chain that starts at `free_head`. -/
inductive BlockList.Linked (l : BlockList T) : Nat → Prop where
  | freeHead : Linked l l.freeHead
  | next {a n : Nat} {b : Block T} : Linked l a → l.blocks a = some b → b.next = some n → Linked l n

variable {y : Layout} {q : Fifo T} {l : BlockList T}

theorem Holds.linked (holds : Holds y q l) {n : Nat} (from' : y.first ≤ n) (within : n < y.last) :
    l.Linked (y.address n) := by
  induction n, from' using Nat.le_induction with
  | base =>
    rw [← holds.freeHead]
    exact .freeHead
  | succ n from' ih =>
    have before : n < y.last := by omega
    obtain ⟨b, found, contents⟩ := holds.contents n from' before
    apply (ih before).next found
    rw [contents.next, if_pos within]

theorem channel_represents : Represents ⟨fun n => n, 0, 1, 0, (0 - 1) / 32⟩ ⟨[], false⟩ (BlockList.channel : BlockList T) := by
  have fresh : Contents ⟨fun n => n, 0, 1, 0, (0 - 1) / 32⟩ 0 (⟨[], false⟩ : Fifo T) 0 (.new 0) := by
    constructor <;> simp [Block.new]
  refine ⟨?_, rfl, rfl⟩
  constructor <;> simp [BlockList.channel, Function.update_apply]
  · omega
  · exact fresh

end Osaka.Sync.Mpsc
