import Mathlib.Tactic.Linarith
import Osaka.Sync.SemaphoreSteps

set_option autoImplicit false

namespace Osaka.Sync

open Transitions

def MAX_READS : Nat := (2 ^ 32 - 1) >>> 3

/-- The guards, with their `permits_acquired` where they have one. -/
inductive Guard where
  | readGuard
  | ownedReadGuard
  | writeGuard (permitsAcquired : Nat)
  | ownedWriteGuard (permitsAcquired : Nat)
  | writeGuardMapped (permitsAcquired : Nat)
  | ownedWriteGuardMapped (permitsAcquired : Nat)
  deriving DecidableEq

namespace Guard

-- what dropping the guard releases
def permits : Guard → Nat
  | readGuard | ownedReadGuard => 1
  | writeGuard permitsAcquired | ownedWriteGuard permitsAcquired => permitsAcquired
  | writeGuardMapped permitsAcquired | ownedWriteGuardMapped permitsAcquired => permitsAcquired

def isRead : Guard → Bool
  | readGuard | ownedReadGuard => true
  | _ => false

def isWrite (g : Guard) : Bool := !g.isRead

def map : Guard → Guard
  | readGuard => readGuard
  | ownedReadGuard => ownedReadGuard
  | writeGuard permitsAcquired | writeGuardMapped permitsAcquired => writeGuardMapped permitsAcquired
  | ownedWriteGuard permitsAcquired | ownedWriteGuardMapped permitsAcquired =>
    ownedWriteGuardMapped permitsAcquired

/-- The guard, mapped if the closure finds something to map it to, or else as it was. -/
def tryMap (g : Guard) (found : Bool) : Guard := if found then g.map else g

end Guard

inductive Mode where
  | read
  | readOwned
  | write
  | writeOwned
  deriving DecidableEq

inductive LockFault where
  | semaphore (fault : Fault)
  -- unreachable!(): the semaphore is never closed
  | unreachable
  -- self.permits_acquired - 1
  | underflow

-- The data is left out. The guards that are alive are ghosts, the lock does not know them.
structure RwLock (W : Type) where
  mr : Nat
  s : Semaphore W
  -- the lock that each Acquire is for
  requests : Nat → Mode
  guards : List Guard

namespace RwLock

variable {W : Type}

def new : RwLock W := ⟨MAX_READS, .new MAX_READS, fun _ => .read, []⟩

def withMaxReaders (maxReads : Nat) : Option (RwLock W) :=
  if maxReads ≤ MAX_READS then some ⟨maxReads, .new maxReads, fun _ => .read, []⟩ else none

variable (l : RwLock W)

def asked : Mode → Nat
  | .read | .readOwned => 1
  | .write | .writeOwned => l.mr

def guard : Mode → Guard
  | .read => .readGuard
  | .readOwned => .ownedReadGuard
  | .write => .writeGuard l.mr
  | .writeOwned => .ownedWriteGuard l.mr

section Acquiring

def lock (mode : Mode) : RwLock W :=
  { l with s := l.s.acquire (l.asked mode), requests := Function.update l.requests l.s.created mode }

def read : RwLock W := l.lock .read

def readOwned : RwLock W := l.lock .readOwned

def write : RwLock W := l.lock .write

def writeOwned : RwLock W := l.lock .writeOwned

-- inner.await
def poll [Wakers W] (i : Nat) (waker : W) : Except LockFault (RwLock W) :=
  match l.s.poll i waker with
  | .ok (.pending, s, _) => .ok { l with s := s }
  | .ok (.ready (.ok ()), s, _) => .ok { l with s := s, guards := l.guard (l.requests i) :: l.guards }
  | .ok (.ready (.error ()), _, _) => .error .unreachable
  | .error fault => .error (.semaphore fault)

def cancel (i : Nat) : Except LockFault (RwLock W) :=
  match l.s.dropAcquire i with
  | .ok (s, _) => .ok { l with s := s }
  | .error fault => .error (.semaphore fault)

def tryLock (mode : Mode) : Except LockFault (RwLock W) :=
  match l.s.tryAcquire (l.asked mode) with
  | .ok (.ok (), s) => .ok { l with s := s, guards := l.guard mode :: l.guards }
  -- Err(TryLockError(()))
  | .ok (.error .noPermits, s) => .ok { l with s := s }
  | .ok (.error .closed, _) => .error .unreachable
  | .error fault => .error (.semaphore fault)

def tryRead : Except LockFault (RwLock W) := l.tryLock .read

def tryReadOwned : Except LockFault (RwLock W) := l.tryLock .readOwned

def tryWrite : Except LockFault (RwLock W) := l.tryLock .write

def tryWriteOwned : Except LockFault (RwLock W) := l.tryLock .writeOwned

end Acquiring

section Guards

def giveBack (g : Guard) (permits : Nat) (others : List Guard) : Except LockFault (RwLock W) :=
  match l.s.release permits with
  | .ok (s, _) => .ok { l with s := s, guards := others ++ l.guards.erase g }
  | .error fault => .error (.semaphore fault)

def dropGuard (g : Guard) : Except LockFault (RwLock W) := l.giveBack g g.permits []

-- The old guard is forgotten, not dropped.
def map (g : Guard) : RwLock W := { l with guards := g.map :: l.guards.erase g }

def tryMap (g : Guard) (found : Bool) : RwLock W := { l with guards := g.tryMap found :: l.guards.erase g }

-- Only the write guards that are not mapped have it.
def downgrade : Guard → Option (Except LockFault (RwLock W))
  | .writeGuard permitsAcquired =>
    some (if permitsAcquired = 0 then .error .underflow
      else l.giveBack (.writeGuard permitsAcquired) (permitsAcquired - 1) [.readGuard])
  | .ownedWriteGuard permitsAcquired =>
    some (if permitsAcquired = 0 then .error .underflow
      else l.giveBack (.ownedWriteGuard permitsAcquired) (permitsAcquired - 1) [.ownedReadGuard])
  | _ => none

end Guards

end RwLock

inductive LockAction (W : Type) where
  | lock (mode : Mode)
  | poll (i : Nat) (waker : W)
  | cancel (i : Nat)
  | tryLock (mode : Mode)
  | dropGuard (g : Guard)
  | map (g : Guard)
  | tryMap (g : Guard) (found : Bool)
  | downgrade (g : Guard)

namespace RwLock

variable {W : Type} [Wakers W]

def step (l : RwLock W) : LockAction W → Outcome (RwLock W) LockFault
  | .lock mode => .next (l.lock mode)
  | .poll i waker => if (l.s.acquires i).completed then .disabled else .attempt (l.poll i waker) .next
  | .cancel i => if i < l.s.created then .attempt (l.cancel i) .next else .disabled
  | .tryLock mode => .attempt (l.tryLock mode) .next
  | .dropGuard g => if g ∈ l.guards then .attempt (l.dropGuard g) .next else .disabled
  | .map g => if g ∈ l.guards then .next (l.map g) else .disabled
  | .tryMap g found => if g ∈ l.guards then .next (l.tryMap g found) else .disabled
  | .downgrade g =>
    if g ∈ l.guards then
      match l.downgrade g with
      | some result => .attempt result .next
      | none => .disabled
    else
      .disabled

/-- A lock made with a bound that the constructor accepts, or by `new`, which has its own. -/
def machine (W : Type) [Wakers W] (maxReads : Nat) : System (RwLock W) (LockAction W) LockFault where
  initial l := withMaxReaders maxReads = some l ∨ maxReads = MAX_READS ∧ l = new
  within _ := True
  step l a := l.step a

end RwLock

end Osaka.Sync
