import Osaka.Sync.Mpsc.Layout
import Osaka.Sync.Mpsc.SharedList

set_option autoImplicit false

namespace Osaka.Sync.Mpsc.SharedList

open Transitions

variable {I T : Type}

section Chart

inductive Slot (T : Type) where
  | free
  | claimed (value : Option T)
  -- The value is there, and the flag is not.
  | written (value : T)
  | ready (value : T)
  | taken (value : T)
  -- tx_close
  | sealed

namespace Slot

def isReady : Slot T → Bool
  | .ready _ | .taken _ => true
  | .free | .claimed _ | .written _ | .sealed => false

def isTaken : Slot T → Bool
  | .taken _ => true
  | .free | .claimed _ | .written _ | .ready _ | .sealed => false

def pending : Slot T → Bool
  | .claimed _ | .written _ => true
  | .free | .ready _ | .taken _ | .sealed => false

def touched : Slot T → Bool
  | .written _ | .ready _ | .taken _ | .sealed => true
  | .free | .claimed _ => false

def stored : Slot T → Option T
  | .written value | .ready value => some value
  | .free | .claimed _ | .taken _ | .sealed => none

def claim : Slot T → Option (Option T)
  | .free => none
  | .claimed value => some value
  | .written value | .ready value | .taken value => some (some value)
  | .sealed => some none

end Slot

/-- How far a block is on its way to the receiver, from when `block_tail` has passed it. -/
inductive Phase (I : Type) where
  | ahead
  | passed (i : I)
  | stamped (i : I) (tailPosition : Nat)
  | recorded (i : I) (tailPosition : Nat)
  | released (tailPosition : Nat)

namespace Phase

def stamp : Phase I → Option Nat
  | .ahead | .passed _ => none
  | .stamped _ tailPosition | .recorded _ tailPosition | .released tailPosition => some tailPosition

def record : Phase I → Option Nat
  | .ahead | .passed _ | .stamped _ _ => none
  | .recorded _ tailPosition | .released tailPosition => some tailPosition

/-- The call that has advanced `block_tail` past the block, until it has released it. -/
def winner : Phase I → Option I
  | .ahead | .released _ => none
  | .passed i | .stamped i _ | .recorded i _ => some i

def isReleased : Phase I → Bool
  | .released _ => true
  | .ahead | .passed _ | .stamped _ _ | .recorded _ _ => false

end Phase

/-- Where the blocks are, and what has become of them and of their slots: block `n` is for the slots from `32 * n` on,
and the blocks from `first` to `last` are linked. -/
structure Chart (I T : Type) where
  address : Nat → Nat
  first : Nat
  last : Nat
  head : Nat
  tail : Nat
  phase : Nat → Phase I
  slots : Nat → Slot T

def Chart.At (c : Chart I T) (n ptr : Nat) : Prop := c.first ≤ n ∧ n ≤ c.last ∧ c.address n = ptr

def Chart.Final (c : Chart I T) (n : Nat) : Prop := ∀ o < 32, (c.slots (32 * n + o)).isReady = true

/-- No block from here on can be freed before the slot is ready: who releases it has seen that the slot is claimed. -/
def Chart.Guarded (c : Chart I T) (n slot : Nat) : Prop :=
  ∀ m, n ≤ m → ∀ tailPosition, (c.phase m).stamp = some tailPosition → slot < tailPosition

structure Shows (c : Chart I T) (n : Nat) (b : Block T) : Prop where
  start : b.startIndex = 32 * n
  next : b.next = if n < c.last then some (c.address (n + 1)) else none
  ready : ∀ o < 32, b.readySlots.getLsbD o = (c.slots (32 * n + o)).isReady
  values : ∀ o < 32, b.values o = (c.slots (32 * n + o)).stored
  released : b.readySlots.getLsbD 32 = (c.phase n).isReleased
  closed : b.readySlots.getLsbD 33 = true ↔ ∃ o < 32, c.slots (32 * n + o) = .sealed
  observed : ∀ tailPosition, (c.phase n).record = some tailPosition → b.observedTailPosition = tailPosition

end Chart

section Blocks

variable (blocks : Nat → Option (Block T))

def Blank (a : Nat) : Prop :=
  ∃ b, blocks a = some b ∧ b.next = none ∧ b.readySlots = 0 ∧ ∀ o < 32, b.values o = none

def Numbered (a n : Nat) : Prop := ∃ b, blocks a = some b ∧ b.startIndex = 32 * n

def Emptied (a : Nat) : Prop := ∃ b, blocks a = some b ∧ ∀ o < 32, b.values o = none

end Blocks

section Calls

namespace Stage

def fresh : Stage → Option Nat
  | .linking _ fresh _ | .numbering _ _ _ fresh _ | .appending _ _ _ fresh _ => some fresh
  | .claimed | .loaded _ | .walking _ _ | .following _ _ | .growing _ _ | .judging _ _ _ | .advancing _ _
  | .observing _ _ | .recording _ _ _ | .releasing _ _ | .writing _ | .publishing _ => none

def publishes : Stage → Bool
  | .publishing _ => true
  | .claimed | .loaded _ | .walking _ _ | .following _ _ | .growing _ _ | .linking _ _ _ | .numbering _ _ _ _ _
  | .appending _ _ _ _ _ | .judging _ _ _ | .advancing _ _ | .observing _ _ | .recording _ _ _ | .releasing _ _
  | .writing _ => false

def Stands (c : Chart I T) (blocks : Nat → Option (Block T)) (i : I) (slot n : Nat) : Stage → Prop
  | .claimed => True
  | .loaded ptr | .walking ptr _ => c.At n ptr ∧ n ≤ slot / 32
  | .following ptr _ | .growing ptr _ => c.At n ptr ∧ n < slot / 32
  | .linking ptr fresh _ => c.At n ptr ∧ n < slot / 32 ∧ Numbered blocks fresh (n + 1)
  | .numbering ptr next curr _ _ =>
    c.At n ptr ∧ n < slot / 32 ∧ c.At (n + 1) next ∧ ∃ m, n ≤ m ∧ c.At m curr
  | .appending ptr next curr fresh _ =>
    c.At n ptr ∧ n < slot / 32 ∧ c.At (n + 1) next ∧ ∃ m, n ≤ m ∧ c.At m curr ∧ Numbered blocks fresh (m + 1)
  | .judging ptr next _ => c.At n ptr ∧ n < slot / 32 ∧ c.At (n + 1) next
  | .advancing ptr next => c.At n ptr ∧ n < slot / 32 ∧ c.At (n + 1) next ∧ c.Final n
  | .observing ptr next => c.At n ptr ∧ n < slot / 32 ∧ c.At (n + 1) next ∧ c.phase n = .passed i
  | .recording ptr next tailPosition =>
    c.At n ptr ∧ n < slot / 32 ∧ c.At (n + 1) next ∧ c.phase n = .stamped i tailPosition
  | .releasing ptr next =>
    c.At n ptr ∧ n < slot / 32 ∧ c.At (n + 1) next ∧ ∃ tailPosition, c.phase n = .recorded i tailPosition
  | .writing ptr | .publishing ptr => c.At n ptr ∧ n = slot / 32

end Stage

def Sending.Slotted (call : Sending T) (slot : Slot T) : Prop :=
  if call.stage.publishes then ∃ value, call.value = some value ∧ slot = .written value else slot = .claimed call.value

structure CallFits (c : Chart I T) (blocks : Nat → Option (Block T)) (i : I) (call : Sending T) : Prop where
  slotted : call.Slotted (c.slots call.slot)
  -- `block_tail` does not pass a block with a slot that is not ready.
  ahead : c.tail ≤ call.slot / 32
  stands : ∃ n, call.stage.Stands c blocks i call.slot n ∧ c.Guarded n call.slot

end Calls

section Receiver

namespace Receiving

def block : Receiving → Option Nat
  | .resetting _ block | .tailing _ block | .numbering _ block _ _ | .appending _ block _ _ | .freeing _ block =>
    some block
  | .idle | .called | .advancing _ | .stepping _ | .reclaiming _ | .inspecting _ | .unlinking _ | .reading _
  | .taking _ | .dropping _ => none

def arrived : Receiving → Bool
  | .reclaiming _ | .inspecting _ | .unlinking _ | .resetting _ _ | .tailing _ _ | .numbering _ _ _ _
  | .appending _ _ _ _ | .freeing _ _ | .reading _ | .taking _ => true
  | .idle | .called | .advancing _ | .stepping _ | .dropping _ => false

def Fits (c : Chart I T) (blocks : Nat → Option (Block T)) (index : Nat) : Receiving → Prop
  | .idle | .called | .advancing _ | .reclaiming _ | .reading _ => True
  | .stepping _ => c.head < index / 32
  | .inspecting _ => c.first < c.head ∧ ∃ tailPosition, c.phase c.first = .released tailPosition
  | .unlinking _ => c.first < c.head ∧ ∃ tailPosition ≤ index, c.phase c.first = .released tailPosition
  | .resetting _ block => Emptied blocks block
  | .tailing _ block | .freeing _ block => Blank blocks block
  | .numbering _ block curr _ => Blank blocks block ∧ ∃ m, c.At m curr
  | .appending _ block curr _ => Blank blocks block ∧ ∃ m, c.At m curr ∧ Numbered blocks block (m + 1)
  | .taking _ => (c.slots index).isReady = true
  | .dropping _ => False

end Receiving

end Receiver

section Invariant

/-- Whose block it is: a call goes by its number, the receiver by `none`. -/
def owned (s : SharedList I T) : Option I → Option Nat
  | none => s.receiver.block
  | some i => (s.senders i).bind fun call => call.stage.fresh

structure Chain (c : Chart I T) (s : SharedList I T) : Prop where
  head : c.first ≤ c.head ∧ c.head ≤ c.last
  tail : c.first ≤ c.tail ∧ c.tail ≤ c.last
  apart : ∀ m n ptr, c.At m ptr → c.At n ptr → m = n
  shows : ∀ n ptr, c.At n ptr → ∃ b, s.blocks ptr = some b ∧ Shows c n b
  blockTail : s.blockTail = c.address c.tail
  headAt : s.head = c.address c.head
  freeHead : s.freeHead = c.address c.first
  phases : ∀ n, c.phase n = .ahead ↔ c.tail ≤ n

structure Owns (c : Chart I T) (blocks : Nat → Option (Block T)) (owned : Option I → Option Nat) : Prop where
  apart : ∀ p q a, owned p = some a → owned q = some a → p = q
  outside : ∀ p a n, owned p = some a → ¬ c.At n a
  blank : ∀ i a, owned (some i) = some a → Blank blocks a
  there : ∀ p a, owned p = some a → blocks a ≠ none
  -- no block is lost
  found : ∀ a, blocks a ≠ none → (∃ n, c.At n a) ∨ ∃ p, owned p = some a

structure Ledger (c : Chart I T) (s : SharedList I T) : Prop where
  free : ∀ k, c.slots k = .free ↔ s.tailPosition ≤ k
  taken : ∀ k, (c.slots k).isTaken = true ↔ k < s.index
  touched : ∀ k, (c.slots k).touched = true → k / 32 ≤ c.last
  passed : 32 * c.tail ≤ s.tailPosition
  held : ∀ k, (c.slots k).pending = true → ∃ i call, s.senders i = some call ∧ call.slot = k
  apart : ∀ i k call other, s.senders i = some call → s.senders k = some other → call.slot = other.slot → i = k
  opened : s.closed = false → ∀ k, (c.slots k).claim ≠ some none
  -- The last slot is the one of `close`, and the others have been ready before.
  closed : s.closed = true → ∃ last, s.tailPosition = last + 1 ∧ (c.slots last).claim = some none ∧
    ∀ k < last, (c.slots k).isReady = true

structure Inv (c : Chart I T) (s : SharedList I T) : Prop where
  chain : Chain c s
  owns : Owns c s.blocks s.owned
  ledger : Ledger c s
  calls : ∀ i call, s.senders i = some call → CallFits c s.blocks i call
  near : 32 * c.head ≤ s.index
  arrived : s.receiver.arrived = true → s.index / 32 = c.head
  receiver : s.receiver.Fits c s.blocks s.index

end Invariant

end Osaka.Sync.Mpsc.SharedList
