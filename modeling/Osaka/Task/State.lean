import Osaka.Task.Snapshot

set_option autoImplicit false

namespace Osaka.Task

inductive TransitionToRunning where
  | success
  | cancelled
  | failed
  | dealloc
  deriving DecidableEq

inductive TransitionToIdle where
  | ok
  | okNotified
  | okDealloc
  | cancelled
  deriving DecidableEq

inductive TransitionToNotifiedByVal where
  | doNothing
  | submit
  | dealloc
  deriving DecidableEq

inductive TransitionToNotifiedByRef where
  | doNothing
  | submit
  deriving DecidableEq

/-- `Result<Snapshot, Snapshot>`; either way the word is left as the snapshot says. -/
inductive UpdateResult where
  | ok (next : Snapshot)
  | err (curr : Snapshot)
  deriving DecidableEq

def check (holds : Bool) (fault : Fault) : Except Fault Unit :=
  if holds then .ok () else .error fault

section Transitions

variable {T : Type}

-- A compare_exchange that meets another value runs the closure again on that value; what happens to the
-- word is what the closure says of the value it last saw.
def fetchUpdateAction (f : Snapshot → Except Fault (T × Option Snapshot)) (curr : Snapshot) :
    Except Fault (T × Snapshot) := do
  let (output, next) ← f curr
  match next with
  | some next => return (output, next)
  | none => return (output, curr)

def fetchUpdate (f : Snapshot → Except Fault (Option Snapshot)) (curr : Snapshot) :
    Except Fault UpdateResult := do
  match ← f curr with
  | some next => return .ok next
  | none => return .err curr

def transitionToRunning : Snapshot → Except Fault (TransitionToRunning × Snapshot) :=
  fetchUpdateAction fun next => do
    check next.isNotified .notNotified
    if !next.isIdle then
      let next ← next.refDec
      if next.refCount = 0 then
        return (.dealloc, some next)
      else
        return (.failed, some next)
    else
      let next := next.setRunning.unsetNotified
      if next.isCancelled then
        return (.cancelled, some next)
      else
        return (.success, some next)

def transitionToIdle : Snapshot → Except Fault (TransitionToIdle × Snapshot) :=
  fetchUpdateAction fun curr => do
    check curr.isRunning .notRunning
    if curr.isCancelled then
      return (.cancelled, none)
    else
      let next := curr.unsetRunning
      if !next.isNotified then
        -- Polling the future consumes the ref-count of the Notified.
        let next ← next.refDec
        if next.refCount = 0 then
          return (.okDealloc, some next)
        else
          return (.ok, some next)
      else
        let next ← next.refInc
        return (.okNotified, some next)

def transitionToComplete (prev : Snapshot) : Except Fault Snapshot := do
  check prev.isRunning .notRunning
  check (!prev.isComplete) .alreadyComplete
  return prev.flip

def transitionToTerminal (count : Nat) (prev : Snapshot) : Except Fault (Bool × Snapshot) := do
  check (decide (prev.refCount ≥ count)) .refCount
  return (decide (prev.refCount = count), prev.sub count)

def transitionToNotifiedByVal : Snapshot → Except Fault (TransitionToNotifiedByVal × Snapshot) :=
  fetchUpdateAction fun snapshot => do
    if snapshot.isRunning then
      let snapshot ← snapshot.setNotified.refDec
      -- The thread that set the running bit also holds a ref-count.
      check (decide (snapshot.refCount > 0)) .refCount
      return (.doNothing, some snapshot)
    else if snapshot.isComplete || snapshot.isNotified then
      let snapshot ← snapshot.refDec
      if snapshot.refCount = 0 then
        return (.dealloc, some snapshot)
      else
        return (.doNothing, some snapshot)
    else
      let snapshot ← snapshot.setNotified.refInc
      return (.submit, some snapshot)

def transitionToNotifiedByRef : Snapshot → Except Fault (TransitionToNotifiedByRef × Snapshot) :=
  fetchUpdateAction fun snapshot => do
    if snapshot.isComplete || snapshot.isNotified then
      return (.doNothing, none)
    else if snapshot.isRunning then
      return (.doNothing, some snapshot.setNotified)
    else
      let snapshot ← snapshot.setNotified.refInc
      return (.submit, some snapshot)

def transitionToNotifiedAndCancel : Snapshot → Except Fault (Bool × Snapshot) :=
  fetchUpdateAction fun snapshot => do
    if snapshot.isCancelled || snapshot.isComplete then
      return (false, none)
    else if snapshot.isRunning then
      return (false, some snapshot.setNotified.setCancelled)
    else
      let snapshot := snapshot.setCancelled
      if !snapshot.isNotified then
        let snapshot ← snapshot.setNotified.refInc
        return (true, some snapshot)
      else
        return (false, some snapshot)

-- `prev` is written by each run of the closure; the last one is the one that counts.
def transitionToShutdown : Snapshot → Except Fault (Bool × Snapshot) :=
  fetchUpdateAction fun prev => do
    let snapshot := if prev.isIdle then prev.setRunning else prev
    return (prev.isIdle, some snapshot.setCancelled)

-- compare_exchange_weak may fail although the word is INITIAL_STATE.
def dropJoinHandleFast (spurious : Bool) (curr : Snapshot) : Bool × Snapshot :=
  if curr.val = INITIAL_STATE ∧ spurious = false then
    (true, ⟨(INITIAL_STATE - REF_ONE) &&& ~~~JOIN_INTEREST⟩)
  else
    (false, curr)

def unsetJoinInterested : Snapshot → Except Fault UpdateResult :=
  fetchUpdate fun curr => do
    check curr.isJoinInterested .notJoinInterested
    if curr.isComplete then
      return none
    else
      return some curr.unsetJoinInterested

def setJoinWaker : Snapshot → Except Fault UpdateResult :=
  fetchUpdate fun curr => do
    check curr.isJoinInterested .notJoinInterested
    check (!curr.hasJoinWaker) .hasJoinWaker
    if curr.isComplete then
      return none
    else
      return some curr.setJoinWaker

def unsetWaker : Snapshot → Except Fault UpdateResult :=
  fetchUpdate fun curr => do
    check curr.isJoinInterested .notJoinInterested
    check curr.hasJoinWaker .noJoinWaker
    if curr.isComplete then
      return none
    else
      return some curr.unsetJoinWaker

def refInc (prev : Snapshot) : Except Fault Snapshot := do
  check (decide (prev.val.toNat ≤ 2 ^ 63 - 1)) .overflow
  return prev.add

def refDec (prev : Snapshot) : Except Fault (Bool × Snapshot) := do
  check (decide (prev.refCount ≥ 1)) .refCount
  return (decide (prev.refCount = 1), prev.sub 1)

end Transitions

section Specifications

variable {s : Snapshot} {count : Nat} {fault : Fault} {A B : Type}

@[simp]
theorem check_true : check true fault = .ok () := rfl

@[simp]
theorem ok_then (value : A) (next : A → Except Fault B) : (Except.ok value >>= next) = next value := rfl

theorem transitionToRunning_idle (notified : s.has .notified = true) (running : s.has .running = false)
    (complete : s.has .complete = false) :
    transitionToRunning s = .ok (if s.has .cancelled then .cancelled else .success,
      (s.set .running).unset .notified) := by
  have idle : s.isIdle = true := by simp [Snapshot.isIdle_eq, running, complete]
  cases cancelled : s.has .cancelled <;>
    simp [transitionToRunning, fetchUpdateAction, Snapshot.isNotified, notified, idle, Snapshot.setRunning,
      Snapshot.unsetNotified, Snapshot.isCancelled, cancelled] <;> rfl

theorem transitionToRunning_busy (notified : s.has .notified = true)
    (busy : s.has .running = true ∨ s.has .complete = true) (held : 0 < s.refCount) :
    transitionToRunning s = .ok (if s.refCount = 1 then .dealloc else .failed, s.sub 1) := by
  have idle : s.isIdle = false := by
    rcases busy with running | complete
    · simp [Snapshot.isIdle_eq, running]
    · simp [Snapshot.isIdle_eq, complete]
  have last : s.refCount - 1 = 0 ↔ s.refCount = 1 := by omega
  by_cases one : s.refCount = 1 <;>
    simp [transitionToRunning, fetchUpdateAction, Snapshot.isNotified, notified, idle,
      Snapshot.refDec_eq held, Snapshot.refCount_sub held, last, one] <;> rfl

theorem transitionToIdle_cancelled (running : s.has .running = true) (cancelled : s.has .cancelled = true) :
    transitionToIdle s = .ok (.cancelled, s) := by
  simp [transitionToIdle, fetchUpdateAction, Snapshot.isRunning, running, Snapshot.isCancelled, cancelled]
  rfl

theorem transitionToIdle_notified (running : s.has .running = true) (cancelled : s.has .cancelled = false)
    (notified : s.has .notified = true) (room : s.refCount < 2 ^ 56) :
    transitionToIdle s = .ok (.okNotified, (s.unset .running).add) := by
  have room' : (s.unset .running).refCount < 2 ^ 56 := by simpa using room
  simp [transitionToIdle, fetchUpdateAction, Snapshot.isRunning, running, Snapshot.isCancelled, cancelled,
    Snapshot.isNotified, Snapshot.unsetRunning, notified, Snapshot.refInc_eq room']
  rfl

theorem transitionToIdle_quiet (running : s.has .running = true) (cancelled : s.has .cancelled = false)
    (quiet : s.has .notified = false) (held : 0 < s.refCount) :
    transitionToIdle s = .ok (if s.refCount = 1 then .okDealloc else .ok, (s.unset .running).sub 1) := by
  have held' : 0 < (s.unset .running).refCount := by simpa using held
  have last : s.refCount - 1 = 0 ↔ s.refCount = 1 := by omega
  by_cases one : s.refCount = 1 <;>
    simp [transitionToIdle, fetchUpdateAction, Snapshot.isRunning, running, Snapshot.isCancelled, cancelled,
      Snapshot.isNotified, Snapshot.unsetRunning, quiet, Snapshot.refDec_eq held',
      Snapshot.refCount_sub held', last, one] <;> rfl

theorem transitionToComplete_eq (running : s.has .running = true) (open' : s.has .complete = false) :
    transitionToComplete s = .ok s.flip := by
  simp [transitionToComplete, Snapshot.isRunning, running, Snapshot.isComplete, open', pure, Except.pure]

theorem transitionToTerminal_eq (enough : count ≤ s.refCount) :
    transitionToTerminal count s = .ok (decide (s.refCount = count), s.sub count) := by
  simp [transitionToTerminal, enough, pure, Except.pure]

theorem transitionToNotifiedByVal_running (running : s.has .running = true) (held : 1 < s.refCount) :
    transitionToNotifiedByVal s = .ok (.doNothing, (s.set .notified).sub 1) := by
  have held' : 0 < (s.set .notified).refCount := by
    rw [Snapshot.refCount_set]
    omega
  have left : 0 < s.refCount - 1 := by omega
  simp [transitionToNotifiedByVal, fetchUpdateAction, Snapshot.isRunning, running, Snapshot.setNotified,
    Snapshot.refDec_eq held', Snapshot.refCount_sub held', left]
  rfl

theorem transitionToNotifiedByVal_settled (running : s.has .running = false)
    (settled : s.has .complete = true ∨ s.has .notified = true) (held : 0 < s.refCount) :
    transitionToNotifiedByVal s = .ok (if s.refCount = 1 then .dealloc else .doNothing, s.sub 1) := by
  have last : s.refCount - 1 = 0 ↔ s.refCount = 1 := by omega
  by_cases one : s.refCount = 1 <;>
    simp [transitionToNotifiedByVal, fetchUpdateAction, Snapshot.isRunning, running, Snapshot.isComplete,
      Snapshot.isNotified, settled, Snapshot.refDec_eq held, Snapshot.refCount_sub held, last, one] <;> rfl

theorem transitionToNotifiedByVal_idle (running : s.has .running = false) (complete : s.has .complete = false)
    (quiet : s.has .notified = false) (room : s.refCount < 2 ^ 56) :
    transitionToNotifiedByVal s = .ok (.submit, (s.set .notified).add) := by
  have room' : (s.set .notified).refCount < 2 ^ 56 := by simpa using room
  simp [transitionToNotifiedByVal, fetchUpdateAction, Snapshot.isRunning, running, Snapshot.isComplete,
    complete, Snapshot.isNotified, quiet, Snapshot.setNotified, Snapshot.refInc_eq room']
  rfl

theorem transitionToNotifiedByRef_settled (settled : s.has .complete = true ∨ s.has .notified = true) :
    transitionToNotifiedByRef s = .ok (.doNothing, s) := by
  simp [transitionToNotifiedByRef, fetchUpdateAction, Snapshot.isComplete, Snapshot.isNotified, settled]
  rfl

theorem transitionToNotifiedByRef_running (running : s.has .running = true) (complete : s.has .complete = false)
    (quiet : s.has .notified = false) :
    transitionToNotifiedByRef s = .ok (.doNothing, s.set .notified) := by
  simp [transitionToNotifiedByRef, fetchUpdateAction, Snapshot.isRunning, running, Snapshot.isComplete,
    complete, Snapshot.isNotified, quiet, Snapshot.setNotified]
  rfl

theorem transitionToNotifiedByRef_idle (running : s.has .running = false) (complete : s.has .complete = false)
    (quiet : s.has .notified = false) (room : s.refCount < 2 ^ 56) :
    transitionToNotifiedByRef s = .ok (.submit, (s.set .notified).add) := by
  have room' : (s.set .notified).refCount < 2 ^ 56 := by simpa using room
  simp [transitionToNotifiedByRef, fetchUpdateAction, Snapshot.isRunning, running, Snapshot.isComplete,
    complete, Snapshot.isNotified, quiet, Snapshot.setNotified, Snapshot.refInc_eq room']
  rfl

theorem transitionToNotifiedAndCancel_noop (noop : s.has .cancelled = true ∨ s.has .complete = true) :
    transitionToNotifiedAndCancel s = .ok (false, s) := by
  simp [transitionToNotifiedAndCancel, fetchUpdateAction, Snapshot.isComplete, Snapshot.isCancelled, noop]
  rfl

theorem transitionToNotifiedAndCancel_running (cancelled : s.has .cancelled = false)
    (complete : s.has .complete = false) (running : s.has .running = true) :
    transitionToNotifiedAndCancel s = .ok (false, (s.set .notified).set .cancelled) := by
  simp [transitionToNotifiedAndCancel, fetchUpdateAction, Snapshot.isRunning, running, Snapshot.isComplete,
    complete, Snapshot.isCancelled, cancelled, Snapshot.setNotified, Snapshot.setCancelled]
  rfl

theorem transitionToNotifiedAndCancel_queued (cancelled : s.has .cancelled = false)
    (complete : s.has .complete = false) (running : s.has .running = false)
    (notified : s.has .notified = true) :
    transitionToNotifiedAndCancel s = .ok (false, s.set .cancelled) := by
  simp [transitionToNotifiedAndCancel, fetchUpdateAction, Snapshot.isRunning, running, Snapshot.isComplete,
    complete, Snapshot.isCancelled, cancelled, Snapshot.isNotified, notified, Snapshot.setCancelled]
  rfl

theorem transitionToNotifiedAndCancel_idle (cancelled : s.has .cancelled = false)
    (complete : s.has .complete = false) (running : s.has .running = false)
    (quiet : s.has .notified = false) (room : s.refCount < 2 ^ 56) :
    transitionToNotifiedAndCancel s = .ok (true, ((s.set .cancelled).set .notified).add) := by
  have room' : ((s.set .cancelled).set .notified).refCount < 2 ^ 56 := by simpa using room
  simp [transitionToNotifiedAndCancel, fetchUpdateAction, Snapshot.isRunning, running, Snapshot.isComplete,
    complete, Snapshot.isCancelled, cancelled, Snapshot.isNotified, quiet, Snapshot.setNotified,
    Snapshot.setCancelled, Snapshot.refInc_eq room']
  rfl

theorem transitionToShutdown_eq :
    transitionToShutdown s =
      .ok (s.isIdle, (if s.isIdle then s.set .running else s).set .cancelled) := rfl

theorem dropJoinHandleFast_true {spurious : Bool} {next : Snapshot}
    (fast : dropJoinHandleFast spurious s = (true, next)) :
    s.val = INITIAL_STATE ∧ next = (s.sub 1).unset .joinInterest := by
  unfold dropJoinHandleFast at fast
  split at fast
  next initial =>
    obtain ⟨initial, _⟩ := initial
    obtain rfl : _ = next := (Prod.mk.inj fast).2
    refine ⟨initial, ?_⟩
    rw [Snapshot.unset, Snapshot.sub, initial]
    rfl
  next => simp at fast

theorem dropJoinHandleFast_false {spurious : Bool} {next : Snapshot}
    (slow : dropJoinHandleFast spurious s = (false, next)) : next = s := by
  unfold dropJoinHandleFast at slow
  split at slow
  next => simp at slow
  next => exact (Prod.mk.inj slow).2.symm

theorem unsetJoinInterested_eq (interested : s.has .joinInterest = true) :
    unsetJoinInterested s =
      .ok (if s.has .complete then .err s else .ok (s.unset .joinInterest)) := by
  cases complete : s.has .complete <;>
    simp [unsetJoinInterested, fetchUpdate, Snapshot.isJoinInterested, interested, Snapshot.isComplete,
      complete, Snapshot.unsetJoinInterested] <;> rfl

theorem setJoinWaker_eq (interested : s.has .joinInterest = true) (bare : s.has .joinWaker = false) :
    setJoinWaker s = .ok (if s.has .complete then .err s else .ok (s.set .joinWaker)) := by
  cases complete : s.has .complete <;>
    simp [setJoinWaker, fetchUpdate, Snapshot.isJoinInterested, interested, Snapshot.hasJoinWaker, bare,
      Snapshot.isComplete, complete, Snapshot.setJoinWaker] <;> rfl

theorem unsetWaker_eq (interested : s.has .joinInterest = true) (waker : s.has .joinWaker = true) :
    unsetWaker s = .ok (if s.has .complete then .err s else .ok (s.unset .joinWaker)) := by
  cases complete : s.has .complete <;>
    simp [unsetWaker, fetchUpdate, Snapshot.isJoinInterested, interested, Snapshot.hasJoinWaker, waker,
      Snapshot.isComplete, complete, Snapshot.unsetJoinWaker] <;> rfl

theorem refInc_eq (room : s.refCount < 2 ^ 56) : refInc s = .ok s.add := by
  have roomy := Snapshot.roomy room
  have fits : s.val.toNat ≤ 2 ^ 63 - 1 := by omega
  rw [refInc, decide_eq_true fits]
  rfl

theorem refDec_eq (held : 0 < s.refCount) : refDec s = .ok (decide (s.refCount = 1), s.sub 1) := by
  rw [refDec, decide_eq_true (Nat.succ_le_of_lt held)]
  rfl

end Specifications

end Osaka.Task
