import Mathlib.Data.Fintype.Basic
import Osaka.Shared.Transitions
import Osaka.Sync.Mpsc.BlockList

set_option autoImplicit false

namespace Osaka.Sync.Mpsc

open Transitions

namespace SharedList

inductive Fault where
  -- a pointer to a block that has been freed
  | dangling
  -- the value of a slot that holds none is assumed to be there
  | uninit
  -- a value is written over another
  | occupied
  -- next_block.unwrap()
  | unlinked
  -- debug_assert!(block.start_index == self.start_index.wrapping_add(BLOCK_CAP))
  | misplaced
  deriving DecidableEq

/-- Where a call of `push` or `close` is that has claimed its slot. Each step from here is one access to what is
shared: `ptr` is `block_ptr`, `tries` is `try_updating_tail`. -/
inductive Stage where
  -- find_block, which is about to load block_tail
  | claimed
  -- distance
  | loaded (ptr : Nat)
  -- is_at_index
  | walking (ptr : Nat) (tries : Bool)
  -- load_next
  | following (ptr : Nat) (tries : Bool)
  -- grow, which is about to allocate, and then to exchange the null pointer in `next`
  | growing (ptr : Nat) (tries : Bool)
  | linking (ptr fresh : Nat) (tries : Bool)
  -- the loop of grow: try_push, which numbers the new block first
  | numbering (ptr next curr fresh : Nat) (tries : Bool)
  | appending (ptr next curr fresh : Nat) (tries : Bool)
  -- is_final
  | judging (ptr next : Nat) (tries : Bool)
  -- block_tail is about to be exchanged, and tail_position to be observed
  | advancing (ptr next : Nat)
  | observing (ptr next : Nat)
  -- tx_release, which writes observed_tail_position and then sets RELEASED
  | recording (ptr next tailPosition : Nat)
  | releasing (ptr next : Nat)
  -- write, which writes the value and then sets the ready flag, or tx_close
  | writing (ptr : Nat)
  | publishing (ptr : Nat)
  deriving DecidableEq

/-- A call of `push` with its value, or of `close` without one. -/
structure Sending (T : Type) where
  slot : Nat
  value : Option T
  stage : Stage
  deriving DecidableEq

/-- Where the receiver is. `tried` is the `tail_position` that `try_pop` has loaded. -/
inductive Receiving where
  | idle
  -- try_pop
  | called
  -- try_advancing_head: is_at_index, then load_next
  | advancing (tried : Option Nat)
  | stepping (tried : Option Nat)
  -- reclaim_blocks: observed_tail_position is about to look at RELEASED, and then to be read
  | reclaiming (tried : Option Nat)
  | inspecting (tried : Option Nat)
  | unlinking (tried : Option Nat)
  -- reclaim_block: the block is reset, and try_push tries to insert it for `left` more times
  | resetting (tried : Option Nat) (block : Nat)
  | tailing (tried : Option Nat) (block : Nat)
  | numbering (tried : Option Nat) (block curr left : Nat)
  | appending (tried : Option Nat) (block curr left : Nat)
  -- Box::from_raw
  | freeing (tried : Option Nat) (block : Nat)
  -- read: the flags, then the value
  | reading (tried : Option Nat)
  | taking (tried : Option Nat)
  -- free_blocks
  | dropping (cur : Option Nat)
  deriving DecidableEq

inductive Answer (T : Type) where
  | pop (ret : Option (Read T))
  | tryPop (result : TryPopResult T)
  deriving DecidableEq

end SharedList

open SharedList in
/-- The list with its halves, the calls of `push` and `close` that have claimed a slot, and the receiver. -/
structure SharedList (I T : Type) where
  blocks : Nat → Option (Block T)
  blockTail : Nat
  tailPosition : Nat
  senders : I → Option (Sending T)
  -- close has been called
  closed : Bool
  head : Nat
  index : Nat
  freeHead : Nat
  receiver : Receiving

/-- `address`: where the allocator puts a new block, if this step allocates one. -/
inductive SharedListAction (I T : Type) where
  | push (i : I) (value : T)
  | close (i : I)
  | stepSender (i : I) (address : Nat)
  | pop
  | tryPop
  | freeBlocks
  | stepReceiver
  deriving DecidableEq

namespace SharedList

variable {I T : Type}

-- list::channel()
def channel : SharedList I T where
  blocks := Function.update (fun _ => none) 0 (some (.new 0))
  blockTail := 0
  tailPosition := 0
  senders := fun _ => none
  closed := false
  head := 0
  index := 0
  freeHead := 0
  receiver := .idle

def block (s : SharedList I T) (address : Nat) : Except Fault (Block T) :=
  match s.blocks address with
  | some block => .ok block
  | none => .error .dangling

def setBlock (s : SharedList I T) (address : Nat) (block : Block T) : SharedList I T :=
  { s with blocks := Function.update s.blocks address (some block) }

-- Block::load_next
def loadNext (s : SharedList I T) (block : Block T) : Except Fault (Option Nat) :=
  match block.next with
  | none => .ok none
  | some next => do
    let ret ← s.block next
    if ret.startIndex = block.startIndex + BLOCK_CAP then
      return some next
    else
      .error .misplaced

section Tx

variable [DecidableEq I]

def setSender (s : SharedList I T) (i : I) (call : Option (Sending T)) : SharedList I T :=
  { s with senders := Function.update s.senders i call }

-- self.tail_position.fetch_add(1, Acquire)
def claim (s : SharedList I T) (i : I) (value : Option T) : SharedList I T :=
  { s with tailPosition := s.tailPosition + 1 }.setSender i (some ⟨s.tailPosition, value, .claimed⟩)

def goes (s : SharedList I T) (i : I) (call : Sending T) (stage : Stage) : SharedList I T :=
  s.setSender i (some { call with stage := stage })

-- find_block, grow, tx_release, write and tx_close
def stepSending (s : SharedList I T) (i : I) (call : Sending T) (address : Nat) : Except Fault (SharedList I T) :=
  match call.stage with
  | .claimed => .ok (s.goes i call (.loaded s.blockTail))
  | .loaded ptr => do
    let block ← s.block ptr
    let distance := block.distance (startIndex call.slot)
    return s.goes i call (.walking ptr (decide (distance > offset call.slot)))
  | .walking ptr tries => do
    let block ← s.block ptr
    if block.isAtIndex (startIndex call.slot) then
      return s.goes i call (.writing ptr)
    else
      return s.goes i call (.following ptr tries)
  | .following ptr tries => do
    let block ← s.block ptr
    match ← s.loadNext block with
    | some next => return s.goes i call (.judging ptr next tries)
    | none => return s.goes i call (.growing ptr tries)
  | .growing ptr tries => do
    let block ← s.block ptr
    return (s.setBlock address (.new (block.startIndex + BLOCK_CAP))).goes i call (.linking ptr address tries)
  | .linking ptr fresh tries => do
    let block ← s.block ptr
    match block.next with
    | none => return (s.setBlock ptr { block with next := some fresh }).goes i call (.judging ptr fresh tries)
    | some next => return s.goes i call (.numbering ptr next next fresh tries)
  | .numbering ptr next curr fresh tries => do
    let block ← s.block curr
    let new ← s.block fresh
    return (s.setBlock fresh { new with startIndex := block.startIndex + BLOCK_CAP }).goes i call
      (.appending ptr next curr fresh tries)
  | .appending ptr next curr fresh tries => do
    let block ← s.block curr
    match block.next with
    | none => return (s.setBlock curr { block with next := some fresh }).goes i call (.judging ptr next tries)
    | some further => return s.goes i call (.numbering ptr next further fresh tries)
  | .judging ptr next tries => do
    let block ← s.block ptr
    if tries && block.isFinal then
      return s.goes i call (.advancing ptr next)
    else
      return s.goes i call (.walking next false)
  | .advancing ptr next =>
    if s.blockTail = ptr then
      .ok ({ s with blockTail := next }.goes i call (.observing ptr next))
    else
      .ok (s.goes i call (.walking next false))
  | .observing ptr next => .ok (s.goes i call (.recording ptr next s.tailPosition))
  | .recording ptr next tailPosition => do
    let block ← s.block ptr
    return (s.setBlock ptr { block with observedTailPosition := tailPosition }).goes i call (.releasing ptr next)
  | .releasing ptr next => do
    let block ← s.block ptr
    return (s.setBlock ptr { block with readySlots := block.readySlots ||| RELEASED }).goes i call (.walking next true)
  | .writing ptr => do
    let block ← s.block ptr
    match call.value with
    | none => return (s.setBlock ptr block.txClose).setSender i none
    | some value =>
      match block.values (offset call.slot) with
      | some _ => .error .occupied
      | none =>
        let values := Function.update block.values (offset call.slot) (some value)
        return (s.setBlock ptr { block with values := values }).goes i call (.publishing ptr)
  | .publishing ptr => do
    let block ← s.block ptr
    let readySlots := PackedWord.set block.readySlots (offset call.slot)
    return (s.setBlock ptr { block with readySlots := readySlots }).setSender i none

end Tx

section Rx

/-- `pop` has its result, and `try_pop` tells an empty queue from a busy one by the position it has loaded before. -/
def answer (s : SharedList I T) (tried : Option Nat) (ret : Option (Read T)) : Answer T :=
  match tried, ret with
  | none, ret => .pop ret
  | some _, some (.value value) => .tryPop (.ok value)
  | some _, some .closed => .tryPop .closed
  | some tailPosition, none => if tailPosition = s.index then .tryPop .empty else .tryPop .busy

def returns (s : SharedList I T) (tried : Option Nat) (ret : Option (Read T)) : Option (Answer T) × SharedList I T :=
  (some (s.answer tried ret), { s with receiver := .idle })

def receives (s : SharedList I T) (receiver : Receiving) : Option (Answer T) × SharedList I T :=
  (none, { s with receiver := receiver })

-- try_pop, pop, try_advancing_head, reclaim_blocks, reclaim_block and free_blocks
def stepReceiver (s : SharedList I T) : Except Fault (Option (Answer T) × SharedList I T) :=
  match s.receiver with
  | .idle => .ok (none, s)
  | .called => .ok (s.receives (.advancing (some s.tailPosition)))
  | .advancing tried => do
    let block ← s.block s.head
    if block.isAtIndex (startIndex s.index) then
      return s.receives (.reclaiming tried)
    else
      return s.receives (.stepping tried)
  | .stepping tried => do
    let block ← s.block s.head
    match ← s.loadNext block with
    | some next => return { s with head := next }.receives (.advancing tried)
    | none => return s.returns tried none
  | .reclaiming tried =>
    if s.freeHead = s.head then
      .ok (s.receives (.reading tried))
    else do
      let block ← s.block s.freeHead
      if 0 = RELEASED &&& block.readySlots then
        return s.receives (.reading tried)
      else
        return s.receives (.inspecting tried)
  | .inspecting tried => do
    let block ← s.block s.freeHead
    if block.observedTailPosition > s.index then
      return s.receives (.reading tried)
    else
      return s.receives (.unlinking tried)
  | .unlinking tried => do
    let block ← s.block s.freeHead
    match ← s.loadNext block with
    | none => .error .unlinked
    | some next => return { s with freeHead := next }.receives (.resetting tried s.freeHead)
  | .resetting tried address => do
    let block ← s.block address
    return (s.setBlock address block.reclaim).receives (.tailing tried address)
  | .tailing tried address => .ok (s.receives (.numbering tried address s.blockTail 3))
  | .numbering tried address curr left => do
    let block ← s.block curr
    let fresh ← s.block address
    return (s.setBlock address { fresh with startIndex := block.startIndex + BLOCK_CAP }).receives
      (.appending tried address curr left)
  | .appending tried address curr left => do
    let block ← s.block curr
    match block.next with
    | none => return (s.setBlock curr { block with next := some address }).receives (.reclaiming tried)
    | some next =>
      if left ≤ 1 then
        return s.receives (.freeing tried address)
      else
        return s.receives (.numbering tried address next (left - 1))
  | .freeing tried address => do
    let _ ← s.block address
    return { s with blocks := Function.update s.blocks address none }.receives (.reclaiming tried)
  | .reading tried => do
    let block ← s.block s.head
    if isReady block.readySlots (offset s.index) then
      return s.receives (.taking tried)
    else if isTxClosed block.readySlots then
      return s.returns tried (some .closed)
    else
      return s.returns tried none
  | .taking tried => do
    let block ← s.block s.head
    match block.values (offset s.index) with
    | none => .error .uninit
    | some value =>
      let values := Function.update block.values (offset s.index) none
      let (answer, t) := s.returns tried (some (.value value))
      return (answer, { t.setBlock s.head { block with values := values } with index := s.index + 1 })
  | .dropping none => .ok (none, s)
  | .dropping (some cur) => do
    let block ← s.block cur
    let next ← s.loadNext block
    return { s with blocks := Function.update s.blocks cur none }.receives (.dropping next)

end Rx

section Steps

variable [Fintype I] [DecidableEq I]

/-- The blocks are freed when the channel is dropped, with all its handles. -/
def dropped (s : SharedList I T) : Bool :=
  match s.receiver with
  | .dropping _ => true
  | _ => false

/-- A sender is dropped after its last call of `push` has returned, and the last sender closes the list. -/
def allowed (s : SharedList I T) : SharedListAction I T → Bool
  | .push i _ => (s.senders i).isNone && !s.closed && !s.dropped
  | .close i => decide (∀ k, (s.senders k).isNone) && (s.senders i).isNone && !s.closed && !s.dropped
  | .stepSender i address =>
    match s.senders i with
    | none => false
    | some call =>
      match call.stage with
      | .growing _ _ => (s.blocks address).isNone
      | _ => true
  | .pop | .tryPop => s.receiver == .idle
  | .freeBlocks => decide (∀ k, (s.senders k).isNone) && s.receiver == .idle
  | .stepReceiver => s.receiver != .idle && s.receiver != .dropping none

def perform (s : SharedList I T) : SharedListAction I T → Except Fault (Option (Answer T) × SharedList I T)
  | .push i value => .ok (none, s.claim i (some value))
  | .close i => .ok (none, { s with closed := true }.claim i none)
  | .stepSender i address =>
    match s.senders i with
    | none => .ok (none, s)
    | some call =>
      match s.stepSending i call address with
      | .ok t => .ok (none, t)
      | .error fault => .error fault
  | .pop => .ok (s.receives (.advancing none))
  | .tryPop => .ok (s.receives .called)
  -- The fields of the receiver are not used any more.
  | .freeBlocks => .ok (s.receives (.dropping (some s.freeHead)))
  | .stepReceiver => s.stepReceiver

def step (s : SharedList I T) (a : SharedListAction I T) : Outcome (SharedList I T) Fault :=
  if s.allowed a then Outcome.attempt (s.perform a) fun (_, t) => .next t else .disabled

def machine (I T : Type) [Fintype I] [DecidableEq I] : System (SharedList I T) (SharedListAction I T) Fault where
  initial s := s = channel
  within _ := True
  step s a := s.step a

instance : DecidablePred (machine I T).within := fun _ => inferInstanceAs (Decidable True)

end Steps

end SharedList

end Osaka.Sync.Mpsc
