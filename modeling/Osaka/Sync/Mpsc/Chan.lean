import Osaka.Basic
import Osaka.Shared.Transitions
import Osaka.Sync.BatchSemaphore
import Osaka.Sync.Mpsc.BlockList

set_option autoImplicit false

namespace Osaka.Sync.Mpsc

open Transitions

inductive ChanFault where
  | list (fault : Fault)
  | semaphore (fault : Sync.Fault)
  -- assert!(self.inner.semaphore.is_idle())
  | notIdle
  -- process::abort() in add_permit
  | noMessage
  -- process::abort() in inc_num_messages
  | tooManyMessages
  -- todo!("Rx::try_recv")
  | todo
  -- a call that the type of the other kind of channel does not have
  | noSuchCall
  deriving DecidableEq

inductive TrySendError (α : Type) where
  | full (value : α)
  | closed (value : α)
  deriving DecidableEq

inductive TryRecvError where
  | empty
  | disconnected
  deriving DecidableEq

inductive ChanSemaphore (W : Type) where
  -- (batch_semaphore::Semaphore, usize)
  | bounded (s : Semaphore W) (bound : Nat)
  -- AtomicUsize: twice the number of messages, and whether it is closed
  | unbounded (state : BitVec 64)

/-- What both halves share. `notify_rx_closed` is left out. -/
structure Chan (T W : Type) where
  -- chan.tx and rx_fields.list
  list : BlockList T
  semaphore : ChanSemaphore W
  rxWaker : Option W
  txCount : Nat
  rxClosed : Bool

variable {T W : Type}

namespace ChanSemaphore

def isIdle : ChanSemaphore W → Bool
  | .bounded s bound => s.availablePermits == bound
  | .unbounded state => state >>> 1 == 0#64

def addPermit : ChanSemaphore W → Except ChanFault (ChanSemaphore W × List W)
  | .bounded s bound => do
    let (s, wakers) ← (s.release 1).mapError .semaphore
    return (.bounded s bound, wakers)
  | .unbounded prev => if prev >>> 1 = 0#64 then .error .noMessage else .ok (.unbounded (prev - 2#64), [])

def close : ChanSemaphore W → ChanSemaphore W × List W
  | .bounded s bound => (.bounded s.close.1 bound, s.close.2)
  | .unbounded state => (.unbounded (state ||| 1#64), [])

def isClosed : ChanSemaphore W → Bool
  | .bounded s _ => s.isClosed
  | .unbounded state => state &&& 1#64 == 1#64

end ChanSemaphore

-- The wakers in the results are those that are woken.
namespace Chan

def channel (semaphore : ChanSemaphore W) : Chan T W := ⟨.channel, semaphore, none, 1, false⟩

variable (c : Chan T W)

def isClosed : Bool := c.semaphore.isClosed

def isBounded : Bool :=
  match c.semaphore with
  | .bounded .. => true
  | .unbounded _ => false

def addPermit : Except ChanFault (Chan T W × List W) := do
  let (semaphore, wakers) ← c.semaphore.addPermit
  return ({ c with semaphore := semaphore }, wakers)

section Tx

-- rx_waker.wake()
def wakeRx : Chan T W × List W := ({ c with rxWaker := none }, c.rxWaker.toList)

def send (value : T) : Except ChanFault (Chan T W × List W) := do
  let list ← (c.list.push value).mapError .list
  return { c with list := list }.wakeRx

-- Tx::clone
def cloneTx : Chan T W := { c with txCount := c.txCount + 1 }

-- Tx::drop
def dropTx : Except ChanFault (Chan T W × List W) := do
  if c.txCount ≠ 1 then
    return ({ c with txCount := c.txCount - 1 }, [])
  let list ← c.list.close.mapError .list
  return { c with txCount := c.txCount - 1, list := list }.wakeRx

/-- Puts a permit back, and wakes the receiver if that was the last one and the channel is closed. -/
def dropPermit : Except ChanFault (Chan T W × List W) := do
  let (c, wakers) ← c.addPermit
  if c.isClosed && c.semaphore.isIdle then
    return (c.wakeRx.1, wakers ++ c.wakeRx.2)
  else
    return (c, wakers)

-- semaphore().0.try_acquire(1)
def tryAcquire : Except ChanFault (Except TryAcquireError Unit × Chan T W) :=
  match c.semaphore with
  | .bounded s bound => do
    let (result, s) ← (s.tryAcquire 1).mapError .semaphore
    return (result, { c with semaphore := .bounded s bound })
  | .unbounded _ => .error .noSuchCall

-- semaphore().0.acquire(1), and its number
def acquire : Except ChanFault (Nat × Chan T W) :=
  match c.semaphore with
  | .bounded s bound => .ok (s.created, { c with semaphore := .bounded (s.acquire 1) bound })
  | .unbounded _ => .error .noSuchCall

-- Acquire::poll, and Acquire::drop at the end of the match in `reserve_inner`
def pollAcquire [Wakers W] (i : Nat) (waker : W) : Except ChanFault (Acquired × Chan T W × List W) :=
  match c.semaphore with
  | .bounded s bound => do
    let (result, s, wakers) ← (s.poll i waker).mapError .semaphore
    match result with
    | .pending => return (.pending, { c with semaphore := .bounded s bound }, wakers)
    | .ready result =>
      let (s, more) ← (s.dropAcquire i).mapError .semaphore
      return (.ready result, { c with semaphore := .bounded s bound }, wakers ++ more)
  | .unbounded _ => .error .noSuchCall

-- Acquire::drop of a future that is dropped
def dropAcquire (i : Nat) : Except ChanFault (Chan T W × List W) :=
  match c.semaphore with
  | .bounded s bound => do
    let (s, wakers) ← (s.dropAcquire i).mapError .semaphore
    return ({ c with semaphore := .bounded s bound }, wakers)
  | .unbounded _ => .error .noSuchCall

-- The compare_exchange succeeds on one thread.
def incNumMessages : Except ChanFault (Bool × Chan T W) :=
  match c.semaphore with
  | .bounded .. => .error .noSuchCall
  | .unbounded curr =>
    if curr &&& 1#64 = 1#64 then
      .ok (false, c)
    else if curr = BitVec.allOnes 64 ^^^ 1#64 then
      .error .tooManyMessages
    else
      .ok (true, { c with semaphore := .unbounded (curr + 2#64) })

end Tx

section Rx

def close : Chan T W × List W :=
  if c.rxClosed then
    (c, [])
  else
    ({ c with rxClosed := true, semaphore := c.semaphore.close.1 }, c.semaphore.close.2)

/-- The macro `try_recv!` of `recv`, and what it returns if it does. -/
def popValue : Except ChanFault (Option (Option T) × Chan T W × List W) := do
  let (read, list) ← c.list.pop.mapError .list
  match read with
  | some (.value value) =>
    let (c, wakers) ← { c with list := list }.addPermit
    return (some (some value), c, wakers)
  | some .closed => if c.semaphore.isIdle then return (some none, { c with list := list }, []) else .error .notIdle
  | none => return (none, { c with list := list }, [])

def recv (waker : W) : Except ChanFault (Poll (Option T) × Chan T W × List W) := do
  let (result, c, wakers) ← c.popValue
  match result with
  | some result => return (.ready result, c, wakers)
  | none =>
    -- register_by_ref, and the second try_recv!
    let (result, c, wakers) ← { c with rxWaker := some waker }.popValue
    match result with
    | some result => return (.ready result, c, wakers)
    | none =>
      if c.rxClosed && c.semaphore.isIdle then
        return (.ready none, c, wakers)
      else
        return (.pending, c, wakers)

def tryRecv : Except ChanFault (Except TryRecvError T × Chan T W × List W) := do
  let (result, list) ← c.list.tryPop.mapError .list
  match result with
  | .ok value =>
    let (c, wakers) ← { c with list := list }.addPermit
    return (.ok value, c, wakers)
  | .closed => return (.error .disconnected, { c with list := list }, [])
  | .empty => return (.error .empty, { c with list := list }, [])
  | .busy => .error .todo

def drain (c : Chan T W) : Nat → Except ChanFault (List T × Chan T W × List W)
  | 0 => .error (.list .endless)
  | fuel + 1 => do
    let (read, list) ← c.list.pop.mapError .list
    match read with
    | some (.value value) =>
      let (c, wakers) ← { c with list := list }.addPermit
      let (values, c, more) ← drain c fuel
      return (value :: values, c, wakers ++ more)
    | _ => return ([], { c with list := list }, [])

-- Rx::drop. Each turn of the loop takes a slot up to tail_position.
def dropRx : Except ChanFault (List T × Chan T W × List W) := do
  let (values, d, wakers) ← c.close.1.drain (c.list.tailPosition + 1)
  return (values, d, c.close.2 ++ wakers)

end Rx

end Chan

/-- The calls that wait for capacity. The sender is the one that is borrowed. -/
inductive Request (T : Type) where
  | reserve (sender : Nat)
  -- It has taken the sender.
  | reserveOwned
  | send (sender : Nat) (value : T)

def Request.sender : Request T → Option Nat
  | .reserve sender => some sender
  | .reserveOwned => none
  | .send sender _ => some sender

structure Channel (T W : Type) where
  chan : Chan T W
  receiver : Bool
  -- the handles, by number, and the first number that is free
  senders : List Nat
  made : Nat
  -- each Permit, by the sender that it borrows
  permits : List Nat
  ownedPermits : Nat
  -- the futures, each by the number of its Acquire, which the first poll makes and which holds nothing before
  requests : List (Nat × Request T)

inductive Call (T W : Type) where
  | clone (sender : Nat)
  | dropSender (sender : Nat)
  | unboundedSend (sender : Nat) (value : T)
  | trySend (sender : Nat) (value : T)
  | tryReserve (sender : Nat)
  | tryReserveOwned (sender : Nat)
  | send (sender : Nat) (value : T)
  | reserve (sender : Nat)
  | reserveOwned (sender : Nat)
  | poll (request : Nat) (waker : W)
  | dropRequest (request : Nat)
  | permitSend (sender : Nat) (value : T)
  | permitDrop (sender : Nat)
  | ownedPermitSend (value : T)
  | ownedPermitRelease
  | ownedPermitDrop
  | recv (waker : W)
  | tryRecv
  | close
  | dropReceiver

inductive Reply (T : Type) where
  | unit
  | sender (sender : Nat)
  | request (request : Nat)
  | pending
  | send (result : Except T Unit)
  | trySend (result : Except (TrySendError T) Unit)
  | reserve (result : Except Unit Unit)
  | reserveOwned (result : Except Unit Unit)
  | tryReserve (result : Except (TrySendError Unit) Unit)
  | tryReserveOwned (result : Except (TrySendError Nat) Unit)
  | recv (result : Poll (Option T))
  | tryRecv (result : Except TryRecvError T)
  | dropped (values : List T)

namespace Channel

-- mpsc::channel, which asserts that buffer > 0, as Semaphore::new that it is small
def channel (buffer : Nat) : Option (Channel T W) :=
  if 0 < buffer ∧ buffer < MAX_PERMIT then
    some ⟨.channel (.bounded (.new buffer) buffer), true, [0], 1, [], 0, []⟩
  else
    none

def unboundedChannel : Channel T W := ⟨.channel (.unbounded 0#64), true, [0], 1, [], 0, []⟩

variable (c : Channel T W)

section Senders

def clone : Channel T W :=
  { c with chan := c.chan.cloneTx, senders := c.made :: c.senders, made := c.made + 1 }

def dropSender (sender : Nat) : Except ChanFault (Channel T W × List W) := do
  let (chan, wakers) ← c.chan.dropTx
  return ({ c with chan := chan, senders := c.senders.erase sender }, wakers)

-- UnboundedSender::send
def unboundedSend (message : T) : Except ChanFault (Except T Unit × Channel T W × List W) := do
  let (counted, chan) ← c.chan.incNumMessages
  if counted then
    let (chan, wakers) ← chan.send message
    return (.ok (), { c with chan := chan }, wakers)
  else
    return (.error message, { c with chan := chan }, [])

def trySend (message : T) : Except ChanFault (Except (TrySendError T) Unit × Channel T W × List W) := do
  let (result, chan) ← c.chan.tryAcquire
  match result with
  | .ok () =>
    let (chan, wakers) ← chan.send message
    return (.ok (), { c with chan := chan }, wakers)
  | .error .closed => return (.error (.closed message), { c with chan := chan }, [])
  | .error .noPermits => return (.error (.full message), { c with chan := chan }, [])

def tryReserve (sender : Nat) : Except ChanFault (Except (TrySendError Unit) Unit × Channel T W) := do
  let (result, chan) ← c.chan.tryAcquire
  match result with
  | .ok () => return (.ok (), { c with chan := chan, permits := sender :: c.permits })
  | .error .closed => return (.error (.closed ()), { c with chan := chan })
  | .error .noPermits => return (.error (.full ()), { c with chan := chan })

-- The errors hand the sender back.
def tryReserveOwned (sender : Nat) : Except ChanFault (Except (TrySendError Nat) Unit × Channel T W) := do
  let (result, chan) ← c.chan.tryAcquire
  match result with
  | .ok () =>
    return (.ok (), { c with
      chan := chan
      senders := c.senders.erase sender
      ownedPermits := c.ownedPermits + 1 })
  | .error .closed => return (.error (.closed sender), { c with chan := chan })
  | .error .noPermits => return (.error (.full sender), { c with chan := chan })

def ask (request : Request T) : Except ChanFault (Nat × Channel T W) := do
  let (i, chan) ← c.chan.acquire
  return (i, { c with chan := chan, requests := (i, request) :: c.requests })

def send (sender : Nat) (value : T) : Except ChanFault (Nat × Channel T W) := c.ask (.send sender value)

def reserve (sender : Nat) : Except ChanFault (Nat × Channel T W) := c.ask (.reserve sender)

def reserveOwned (sender : Nat) : Except ChanFault (Nat × Channel T W) :=
  { c with senders := c.senders.erase sender }.ask .reserveOwned

end Senders

section Requests

def request (i : Nat) : Option (Request T) := (c.requests.find? fun entry => entry.1 = i).map Prod.snd

def finish (i : Nat) : Channel T W := { c with requests := c.requests.filter fun entry => entry.1 ≠ i }

/-- What follows `reserve_inner().await` in `reserve`, `reserve_owned` and `send`. -/
def resume (request : Request T) (result : Except Unit Unit) :
    Except ChanFault (Reply T × Channel T W × List W) :=
  match request, result with
  | .reserve sender, .ok () => .ok (.reserve (.ok ()), { c with permits := sender :: c.permits }, [])
  | .reserve _, .error () => .ok (.reserve (.error ()), c, [])
  | .reserveOwned, .ok () => .ok (.reserveOwned (.ok ()), { c with ownedPermits := c.ownedPermits + 1 }, [])
  | .reserveOwned, .error () => do
    -- self, which has been moved in, goes out of scope
    let (chan, wakers) ← c.chan.dropTx
    return (.reserveOwned (.error ()), { c with chan := chan }, wakers)
  | .send _ value, .ok () => do
    let (chan, wakers) ← c.chan.send value
    return (.send (.ok ()), { c with chan := chan }, wakers)
  | .send _ value, .error () => .ok (.send (.error value), c, [])

def poll [Wakers W] (i : Nat) (request : Request T) (waker : W) :
    Except ChanFault (Reply T × Channel T W × List W) := do
  let (result, chan, wakers) ← c.chan.pollAcquire i waker
  match result with
  | .pending => return (.pending, { c with chan := chan }, wakers)
  | .ready result =>
    let (reply, d, more) ← ({ c with chan := chan }.finish i).resume request result
    return (reply, d, wakers ++ more)

def dropRequest (i : Nat) (request : Request T) : Except ChanFault (Channel T W × List W) := do
  let (chan, wakers) ← c.chan.dropAcquire i
  match request with
  | .reserveOwned =>
    let (chan, more) ← chan.dropTx
    return ({ c with chan := chan }.finish i, wakers ++ more)
  | _ => return ({ c with chan := chan }.finish i, wakers)

end Requests

section Permits

-- The permit is forgotten.
def permitSend (sender : Nat) (value : T) : Except ChanFault (Channel T W × List W) := do
  let (chan, wakers) ← c.chan.send value
  return ({ c with chan := chan, permits := c.permits.erase sender }, wakers)

def permitDrop (sender : Nat) : Except ChanFault (Channel T W × List W) := do
  let (chan, wakers) ← c.chan.dropPermit
  return ({ c with chan := chan, permits := c.permits.erase sender }, wakers)

def unwrapPermit : Channel T W :=
  { c with senders := c.made :: c.senders, made := c.made + 1, ownedPermits := c.ownedPermits - 1 }

def ownedPermitSend (value : T) : Except ChanFault (Channel T W × List W) := do
  let (chan, wakers) ← c.chan.send value
  return ({ c with chan := chan }.unwrapPermit, wakers)

def ownedPermitRelease : Except ChanFault (Channel T W × List W) := do
  let (chan, wakers) ← c.chan.addPermit
  return ({ c with chan := chan }.unwrapPermit, wakers)

def ownedPermitDrop : Except ChanFault (Channel T W × List W) := do
  let (chan, wakers) ← c.chan.dropPermit
  let (chan, more) ← chan.dropTx
  return ({ c with chan := chan, ownedPermits := c.ownedPermits - 1 }, wakers ++ more)

end Permits

section Calling

def borrowed (sender : Nat) : Bool :=
  c.permits.contains sender || c.requests.any fun entry => entry.2.sender == some sender

/-- What the types let through: a handle is used while it is alive, and moved while it is not borrowed. -/
def allowed : Call T W → Bool
  | .clone sender => c.senders.contains sender
  | .dropSender sender => c.senders.contains sender && !c.borrowed sender
  | .unboundedSend sender _ => c.senders.contains sender && !c.chan.isBounded
  | .trySend sender _ | .tryReserve sender | .send sender _ | .reserve sender =>
    c.senders.contains sender && c.chan.isBounded
  | .tryReserveOwned sender | .reserveOwned sender =>
    c.senders.contains sender && c.chan.isBounded && !c.borrowed sender
  | .poll i _ | .dropRequest i => (c.request i).isSome
  | .permitSend sender _ | .permitDrop sender => c.permits.contains sender
  | .ownedPermitSend _ | .ownedPermitRelease | .ownedPermitDrop => decide (0 < c.ownedPermits)
  | .recv _ | .tryRecv | .close | .dropReceiver => c.receiver

/-- What a call returns, the channel then, and the wakers that are woken. -/
def perform [Wakers W] : Call T W → Except ChanFault (Reply T × Channel T W × List W)
  | .clone _ => .ok (.sender c.made, c.clone, [])
  | .dropSender sender => (c.dropSender sender).map fun (d, wakers) => (.unit, d, wakers)
  | .unboundedSend _ value => (c.unboundedSend value).map fun (result, d, wakers) => (.send result, d, wakers)
  | .trySend _ value => (c.trySend value).map fun (result, d, wakers) => (.trySend result, d, wakers)
  | .tryReserve sender => (c.tryReserve sender).map fun (result, d) => (.tryReserve result, d, [])
  | .tryReserveOwned sender => (c.tryReserveOwned sender).map fun (result, d) => (.tryReserveOwned result, d, [])
  | .send sender value => (c.send sender value).map fun (i, d) => (.request i, d, [])
  | .reserve sender => (c.reserve sender).map fun (i, d) => (.request i, d, [])
  | .reserveOwned sender => (c.reserveOwned sender).map fun (i, d) => (.request i, d, [])
  | .poll i waker =>
    match c.request i with
    | some request => c.poll i request waker
    | none => .error .noSuchCall
  | .dropRequest i =>
    match c.request i with
    | some request => (c.dropRequest i request).map fun (d, wakers) => (.unit, d, wakers)
    | none => .error .noSuchCall
  | .permitSend sender value => (c.permitSend sender value).map fun (d, wakers) => (.unit, d, wakers)
  | .permitDrop sender => (c.permitDrop sender).map fun (d, wakers) => (.unit, d, wakers)
  | .ownedPermitSend value => (c.ownedPermitSend value).map fun (d, wakers) => (.sender c.made, d, wakers)
  | .ownedPermitRelease => c.ownedPermitRelease.map fun (d, wakers) => (.sender c.made, d, wakers)
  | .ownedPermitDrop => c.ownedPermitDrop.map fun (d, wakers) => (.unit, d, wakers)
  | .recv waker => (c.chan.recv waker).map fun (result, chan, wakers) => (.recv result, { c with chan := chan }, wakers)
  | .tryRecv => c.chan.tryRecv.map fun (result, chan, wakers) => (.tryRecv result, { c with chan := chan }, wakers)
  | .close => .ok (.unit, { c with chan := c.chan.close.1 }, c.chan.close.2)
  | .dropReceiver => c.chan.dropRx.map fun (values, chan, wakers) =>
    (.dropped values, { c with chan := chan, receiver := false }, wakers)

def step [Wakers W] (c : Channel T W) (call : Call T W) : Outcome (Channel T W) ChanFault :=
  if c.allowed call then .attempt (c.perform call) fun (_, d, _) => .next d else .disabled

def machine (T W : Type) [Wakers W] (buffer : Option Nat) : System (Channel T W) (Call T W) ChanFault where
  initial c := match buffer with
    | some buffer => channel buffer = some c
    | none => c = unboundedChannel
  within _ := True
  step c call := c.step call

instance [Wakers W] (buffer : Option Nat) : DecidablePred (machine T W buffer).within :=
  fun _ => inferInstanceAs (Decidable True)

end Calling

end Channel

end Osaka.Sync.Mpsc
