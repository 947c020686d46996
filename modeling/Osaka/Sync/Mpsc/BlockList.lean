import Mathlib.Logic.Function.Basic
import Osaka.Shared.PackedWord

set_option autoImplicit false

namespace Osaka.Sync.Mpsc

def BLOCK_CAP : Nat := 32

/-- What the safety comments of `block.rs` and `list.rs` rule out. -/
inductive Fault where
  -- a pointer to a block that has been freed
  | dangling
  -- the value of a slot that holds none is assumed to be there
  | uninit
  -- a value is written over another
  | occupied
  -- next_block.unwrap()
  | unlinked
  -- a walk that goes on for longer than there are blocks
  | endless
  deriving DecidableEq

inductive Read (T : Type) where
  | value (value : T)
  | closed
  deriving DecidableEq

inductive TryPopResult (T : Type) where
  | ok (value : T)
  | empty
  | closed
  | busy
  deriving DecidableEq

section Block

structure Block (T : Type) where
  startIndex : Nat
  next : Option Nat
  readySlots : BitVec 64
  observedTailPosition : Nat
  -- what has been written, and not been read out
  values : Nat → Option T

def RELEASED : BitVec 64 := BitVec.twoPow 64 BLOCK_CAP

def TX_CLOSED : BitVec 64 := BitVec.twoPow 64 (BLOCK_CAP + 1)

def READY_MASK : BitVec 64 := RELEASED - 1

-- BLOCK_MASK & slot_index
def startIndex (slotIndex : Nat) : Nat := slotIndex / BLOCK_CAP * BLOCK_CAP

-- SLOT_MASK & slot_index
def offset (slotIndex : Nat) : Nat := slotIndex % BLOCK_CAP

def isReady (bits : BitVec 64) (slot : Nat) : Bool := BitVec.twoPow 64 slot == BitVec.twoPow 64 slot &&& bits

def isTxClosed (bits : BitVec 64) : Bool := TX_CLOSED == bits &&& TX_CLOSED

namespace Block

variable {T : Type} (block : Block T)

def new (startIndex : Nat) : Block T := ⟨startIndex, none, 0, 0, fun _ => none⟩

def isAtIndex (index : Nat) : Bool := block.startIndex == index

def distance (otherIndex : Nat) : Nat := (otherIndex - block.startIndex) / BLOCK_CAP

-- ptr::read moves the value out of its slot.
def read (slotIndex : Nat) : Except Fault (Option (Read T) × Block T) :=
  if isReady block.readySlots (offset slotIndex) then
    match block.values (offset slotIndex) with
    | some value => .ok (some (.value value), { block with values := Function.update block.values (offset slotIndex) none })
    | none => .error .uninit
  else if isTxClosed block.readySlots then
    .ok (some .closed, block)
  else
    .ok (none, block)

def write (slotIndex : Nat) (value : T) : Except Fault (Block T) :=
  match block.values (offset slotIndex) with
  | some _ => .error .occupied
  | none =>
    .ok { block with
      values := Function.update block.values (offset slotIndex) (some value)
      readySlots := PackedWord.set block.readySlots (offset slotIndex) }

def txClose : Block T := { block with readySlots := block.readySlots ||| TX_CLOSED }

def reclaim : Block T := { block with startIndex := 0, next := none, readySlots := 0 }

def txRelease (tailPosition : Nat) : Block T :=
  { block with observedTailPosition := tailPosition, readySlots := block.readySlots ||| RELEASED }

def isFinal : Bool := block.readySlots &&& READY_MASK == READY_MASK

def observed : Option Nat :=
  if 0 = RELEASED &&& block.readySlots then none else some block.observedTailPosition

end Block

end Block

structure BlockList (T : Type) where
  blocks : Nat → Option (Block T)
  -- the addresses from here on are still unused
  allocated : Nat
  blockTail : Nat
  tailPosition : Nat
  head : Nat
  index : Nat
  freeHead : Nat

namespace BlockList

variable {T : Type}

-- list::channel()
def channel : BlockList T where
  blocks := Function.update (fun _ => none) 0 (some (.new 0))
  allocated := 1
  blockTail := 0
  tailPosition := 0
  head := 0
  index := 0
  freeHead := 0

variable (l : BlockList T)

def block (address : Nat) : Except Fault (Block T) :=
  match l.blocks address with
  | some block => .ok block
  | none => .error .dangling

def setBlock (address : Nat) (block : Block T) : BlockList T :=
  { l with blocks := Function.update l.blocks address (some block) }

section Tx

-- The list grows at a block without a next one, so the first compare_exchange succeeds.
def grow (address : Nat) (block : Block T) : Nat × BlockList T :=
  (l.allocated,
    { l.setBlock l.allocated (.new (block.startIndex + BLOCK_CAP)) with allocated := l.allocated + 1 }.setBlock
      address { block with next := some l.allocated })

-- block.load_next(Acquire).unwrap_or_else(|| block.grow())
def nextOrGrow (address : Nat) (block : Block T) : Nat × BlockList T :=
  match block.next with
  | some next => (next, l)
  | none => l.grow address block

/-- The loop of `find_block`: the block at `startIndex`, from the one at `address` on. -/
def walk (l : BlockList T) (startIndex : Nat) : Nat → Nat → Bool → Except Fault (Nat × BlockList T)
  | 0, _, _ => .error .endless
  | fuel + 1, address, tryUpdatingTail => do
    let block ← l.block address
    if block.isAtIndex startIndex then
      return (address, l)
    let (next, l) := l.nextOrGrow address block
    if tryUpdatingTail && block.isFinal then
      if l.blockTail = address then
        let block ← l.block address
        let l := { l with blockTail := next }.setBlock address (block.txRelease l.tailPosition)
        walk l startIndex fuel next true
      else
        walk l startIndex fuel next false
    else
      walk l startIndex fuel next false

def findBlock (slotIndex : Nat) : Except Fault (Nat × BlockList T) := do
  let block ← l.block l.blockTail
  let distance := block.distance (startIndex slotIndex)
  l.walk (startIndex slotIndex) (l.allocated + 1) l.blockTail (decide (distance > offset slotIndex))

def push (value : T) : Except Fault (BlockList T) := do
  let slotIndex := l.tailPosition
  let (address, l) ← { l with tailPosition := l.tailPosition + 1 }.findBlock slotIndex
  let block ← l.block address
  let block ← block.write slotIndex value
  return l.setBlock address block

def close : Except Fault (BlockList T) := do
  let slotIndex := l.tailPosition
  let (address, l) ← { l with tailPosition := l.tailPosition + 1 }.findBlock slotIndex
  let block ← l.block address
  return l.setBlock address block.txClose

-- Block::try_push: the next block, if there is one already
def tryPush (address reclaimed : Nat) : Except Fault (Option Nat × BlockList T) := do
  let block ← l.block address
  let fresh ← l.block reclaimed
  let l := l.setBlock reclaimed { fresh with startIndex := block.startIndex + BLOCK_CAP }
  match block.next with
  | some next => return (some next, l)
  | none => return (none, l.setBlock address { block with next := some reclaimed })

-- Attempt to insert the block at the end. Walk at most three times.
def relink (l : BlockList T) (reclaimed : Nat) : Nat → Nat → Except Fault (Bool × BlockList T)
  | 0, _ => return (false, l)
  | hops + 1, address => do
    match ← l.tryPush address reclaimed with
    | (none, l) => return (true, l)
    | (some next, l) => relink l reclaimed hops next

def reclaimBlock (address : Nat) : Except Fault (BlockList T) := do
  let block ← l.block address
  let (reused, l) ← (l.setBlock address block.reclaim).relink address 3 l.blockTail
  if reused then
    return l
  else
    return { l with blocks := Function.update l.blocks address none }

end Tx

section Rx

def tryAdvancingHead (l : BlockList T) : Nat → Except Fault (Bool × BlockList T)
  | 0 => .error .endless
  | fuel + 1 => do
    let block ← l.block l.head
    if block.isAtIndex (startIndex l.index) then
      return (true, l)
    match block.next with
    | some next => tryAdvancingHead { l with head := next } fuel
    | none => return (false, l)

def reclaimBlocks (l : BlockList T) : Nat → Except Fault (BlockList T)
  | 0 => .error .endless
  | fuel + 1 => do
    if l.freeHead = l.head then
      return l
    let block ← l.block l.freeHead
    match block.observed with
    | none => return l
    | some requiredIndex =>
      if requiredIndex > l.index then
        return l
      match block.next with
      | none => .error .unlinked
      | some next =>
        let l ← { l with freeHead := next }.reclaimBlock l.freeHead
        reclaimBlocks l fuel

def pop : Except Fault (Option (Read T) × BlockList T) := do
  let (there, l) ← l.tryAdvancingHead (l.allocated + 1)
  if there = false then
    return (none, l)
  let l ← l.reclaimBlocks (l.allocated + 1)
  let block ← l.block l.head
  let (ret, block) ← block.read l.index
  let l := l.setBlock l.head block
  match ret with
  | some (.value _) => return (ret, { l with index := l.index + 1 })
  | _ => return (ret, l)

def tryPop : Except Fault (TryPopResult T × BlockList T) := do
  let tailPosition := l.tailPosition
  let (result, l) ← l.pop
  match result with
  | some (.value value) => return (.ok value, l)
  | some .closed => return (.closed, l)
  | none => if tailPosition = l.index then return (.empty, l) else return (.busy, l)

end Rx

end BlockList

end Osaka.Sync.Mpsc
