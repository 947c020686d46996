import Osaka.Task.Effects

set_option autoImplicit false

namespace Osaka.Task

open Transitions

/-- The flags that whoever runs or wakes a task goes by. -/
def Flag.scheduling : Flag → Bool
  | .running | .notified => true
  | .complete | .joinInterest | .joinWaker | .cancelled => false

section Words

variable {T A B : Type} {s : Snapshot} {flag flag' : Flag}

/-- What a computation returns, if no assertion of it fails. -/
def Returns (P : A → Prop) : Except Fault A → Prop
  | .ok value => P value
  | .error _ => True

theorem Returns.ok {P : A → Prop} {result : Except Fault A} {value : A} (returns : Returns P result)
    (returned : result = .ok value) : P value := by
  rw [returned] at returns
  exact returns

theorem Returns.bind {P : B → Prop} {result : Except Fault A} {next : A → Except Fault B}
    (each : Returns (fun value => Returns P (next value)) result) : Returns P (result >>= next) := by
  cases result with
  | ok value => exact each
  | error fault => trivial

theorem Returns.check {P : B → Prop} {holds : Bool} {fault : Fault} {next : Unit → Except Fault B}
    (passed : holds = true → Returns P (next ())) : Returns P (Task.check holds fault >>= next) := by
  cases holds with
  | true => exact passed rfl
  | false => trivial

theorem Returns.ite {P : A → Prop} {condition : Prop} [Decidable condition] {left right : Except Fault A}
    (left' : condition → Returns P left) (right' : ¬condition → Returns P right) :
    Returns P (if condition then left else right) := by
  split
  next holds => exact left' holds
  next fails => exact right' fails

theorem Returns.mono {P Q : A → Prop} {result : Except Fault A} (returns : Returns P result)
    (weaker : ∀ value, P value → Q value) : Returns Q result := by
  cases result with
  | ok value => exact weaker value returns
  | error fault => trivial

theorem Returns.action {P : Snapshot → Prop} {f : Snapshot → Except Fault (T × Option Snapshot)}
    (each : Returns (fun r => P (r.2.getD s)) (f s)) :
    Returns (fun r => P r.2) (fetchUpdateAction f s) := by
  unfold fetchUpdateAction
  apply Returns.bind
  apply each.mono
  rintro ⟨output, next⟩ left
  cases next with
  | none => exact left
  | some next => exact left

theorem Snapshot.has_add_fits (fits : s.val.toNat ≤ 2 ^ 63 - 1) : s.add.has flag = s.has flag := by
  have inside := flag.index_lt
  rw [Snapshot.has_eq, Snapshot.add, show REF_ONE = BitVec.ofNat 64 (1 * 2 ^ 6) from rfl,
    PackedWord.has_add (by omega) inside (by omega), Snapshot.has_eq]

theorem Snapshot.refInc_flag : Returns (fun t => t.has flag = s.has flag) s.refInc := by
  unfold Snapshot.refInc
  split
  next fits => exact Snapshot.has_add_fits fits
  next => trivial

theorem Snapshot.refDec_flag : Returns (fun t => t.has flag = s.has flag) s.refDec := by
  unfold Snapshot.refDec
  split
  next held => exact Snapshot.has_sub held
  next => trivial

theorem Snapshot.has_set_other (other : flag' ≠ flag) : (s.set flag').has flag = s.has flag := by
  simp [other]

theorem Snapshot.has_unset_other (other : flag' ≠ flag) : (s.unset flag').has flag = s.has flag := by
  simp [other]

theorem Flag.free_ne (free : flag.scheduling = false) (scheduling : flag'.scheduling = true) : flag' ≠ flag := by
  rintro rfl
  simp [free] at scheduling

theorem setNotified_flag (free : flag.scheduling = false) : s.setNotified.has flag = s.has flag :=
  Snapshot.has_set_other (Flag.free_ne free rfl)

theorem transitionToRunning_flag (free : flag.scheduling = false) :
    Returns (fun r => r.2.has flag = s.has flag) (transitionToRunning s) := by
  unfold transitionToRunning
  apply Returns.action (P := fun t => t.has flag = s.has flag)
  apply Returns.check
  intro notified
  apply Returns.ite
  · intro busy
    apply Returns.bind
    apply Snapshot.refDec_flag.mono
    intro next same
    apply Returns.ite
    · exact fun _ => same
    · exact fun _ => same
  · intro idle
    have same : s.setRunning.unsetNotified.has flag = s.has flag :=
      (Snapshot.has_unset_other (Flag.free_ne free rfl)).trans (Snapshot.has_set_other (Flag.free_ne free rfl))
    apply Returns.ite
    · exact fun _ => same
    · exact fun _ => same

theorem transitionToIdle_flag (free : flag.scheduling = false) :
    Returns (fun r => r.2.has flag = s.has flag) (transitionToIdle s) := by
  unfold transitionToIdle
  apply Returns.action (P := fun t => t.has flag = s.has flag)
  apply Returns.check
  intro running
  have same : s.unsetRunning.has flag = s.has flag := Snapshot.has_unset_other (Flag.free_ne free rfl)
  apply Returns.ite
  · exact fun _ => rfl
  · intro uncancelled
    apply Returns.ite
    · intro quiet
      apply Returns.bind
      apply Snapshot.refDec_flag.mono
      intro next left
      apply Returns.ite
      · exact fun _ => left.trans same
      · exact fun _ => left.trans same
    · intro notified
      apply Returns.bind
      apply Snapshot.refInc_flag.mono
      exact fun next left => left.trans same

theorem transitionToComplete_flag (free : flag.scheduling = false) (other : .complete ≠ flag) :
    Returns (fun t => t.has flag = s.has flag) (transitionToComplete s) := by
  unfold transitionToComplete
  apply Returns.check
  intro running
  apply Returns.check
  intro incomplete
  change s.flip.has flag = s.has flag
  have away : flag ≠ .running := (Flag.free_ne free rfl).symm
  simp [away, other.symm]

theorem transitionToTerminal_flag (count : Nat) :
    Returns (fun r => r.2.has flag = s.has flag) (transitionToTerminal count s) := by
  unfold transitionToTerminal
  apply Returns.check
  intro enough
  exact Snapshot.has_sub (of_decide_eq_true enough)

theorem transitionToNotifiedByVal_flag (free : flag.scheduling = false) :
    Returns (fun r => r.2.has flag = s.has flag) (transitionToNotifiedByVal s) := by
  unfold transitionToNotifiedByVal
  apply Returns.action (P := fun t => t.has flag = s.has flag)
  have same : s.setNotified.has flag = s.has flag := setNotified_flag free
  apply Returns.ite
  · intro running
    apply Returns.bind
    apply Snapshot.refDec_flag.mono
    intro next left
    apply Returns.check
    exact fun _ => left.trans same
  · intro unlocked
    apply Returns.ite
    · intro settled
      apply Returns.bind
      apply Snapshot.refDec_flag.mono
      intro next left
      apply Returns.ite
      · exact fun _ => left
      · exact fun _ => left
    · intro idle
      apply Returns.bind
      apply Snapshot.refInc_flag.mono
      exact fun next left => left.trans same

theorem transitionToNotifiedByRef_flag (free : flag.scheduling = false) :
    Returns (fun r => r.2.has flag = s.has flag) (transitionToNotifiedByRef s) := by
  unfold transitionToNotifiedByRef
  apply Returns.action (P := fun t => t.has flag = s.has flag)
  have same : s.setNotified.has flag = s.has flag := setNotified_flag free
  apply Returns.ite
  · exact fun _ => rfl
  · intro open'
    apply Returns.ite
    · exact fun _ => same
    · intro idle
      apply Returns.bind
      apply Snapshot.refInc_flag.mono
      exact fun next left => left.trans same

theorem refInc_flag : Returns (fun t => t.has flag = s.has flag) (refInc s) := by
  unfold refInc
  apply Returns.check
  intro fits
  exact Snapshot.has_add_fits (of_decide_eq_true fits)

theorem refDec_flag : Returns (fun r => r.2.has flag = s.has flag) (refDec s) := by
  unfold refDec
  apply Returns.check
  intro held
  exact Snapshot.has_sub (of_decide_eq_true held)

def UpdateResult.word : UpdateResult → Snapshot
  | .ok next => next
  | .err curr => curr

theorem Returns.update {P : Snapshot → Prop} {f : Snapshot → Except Fault (Option Snapshot)}
    (each : Returns (fun r => P (r.getD s)) (f s)) : Returns (fun r => P r.word) (fetchUpdate f s) := by
  unfold fetchUpdate
  apply Returns.bind
  apply each.mono
  intro next left
  cases next with
  | none => exact left
  | some next => exact left

theorem transitionToNotifiedAndCancel_flag (free : flag.scheduling = false) (other : .cancelled ≠ flag) :
    Returns (fun r => r.2.has flag = s.has flag) (transitionToNotifiedAndCancel s) := by
  unfold transitionToNotifiedAndCancel
  apply Returns.action (P := fun t => t.has flag = s.has flag)
  have cancelled : s.setCancelled.has flag = s.has flag := Snapshot.has_set_other other
  apply Returns.ite
  · exact fun _ => rfl
  · intro open'
    apply Returns.ite
    · exact fun _ => (Snapshot.has_set_other other).trans (setNotified_flag free)
    · intro unlocked
      apply Returns.ite
      · intro quiet
        apply Returns.bind
        apply Snapshot.refInc_flag.mono
        exact fun next left => (left.trans (setNotified_flag free)).trans cancelled
      · exact fun _ => cancelled

theorem transitionToShutdown_flag (free : flag.scheduling = false) (other : .cancelled ≠ flag) :
    Returns (fun r => r.2.has flag = s.has flag) (transitionToShutdown s) := by
  rw [transitionToShutdown_eq]
  change ((if s.isIdle then s.set .running else s).set .cancelled).has flag = s.has flag
  rw [Snapshot.has_set_other other]
  split
  next => exact Snapshot.has_set_other (Flag.free_ne free rfl)
  next => rfl

theorem unsetJoinInterested_flag (other : .joinInterest ≠ flag) :
    Returns (fun r => r.word.has flag = s.has flag) (unsetJoinInterested s) := by
  unfold unsetJoinInterested
  apply Returns.update (P := fun t => t.has flag = s.has flag)
  apply Returns.check
  intro interested
  apply Returns.ite
  · exact fun _ => rfl
  · intro incomplete
    exact Snapshot.has_unset_other other

theorem setJoinWaker_flag (other : .joinWaker ≠ flag) :
    Returns (fun r => r.word.has flag = s.has flag) (setJoinWaker s) := by
  unfold setJoinWaker
  apply Returns.update (P := fun t => t.has flag = s.has flag)
  apply Returns.check
  intro interested
  apply Returns.check
  intro bare
  apply Returns.ite
  · exact fun _ => rfl
  · intro incomplete
    exact Snapshot.has_set_other other

theorem unsetWaker_flag (other : .joinWaker ≠ flag) :
    Returns (fun r => r.word.has flag = s.has flag) (unsetWaker s) := by
  unfold unsetWaker
  apply Returns.update (P := fun t => t.has flag = s.has flag)
  apply Returns.check
  intro interested
  apply Returns.check
  intro waker
  apply Returns.ite
  · exact fun _ => rfl
  · intro incomplete
    exact Snapshot.has_unset_other other

theorem dropJoinHandleFast_flag (spurious : Bool) (other : .joinInterest ≠ flag) :
    (dropJoinHandleFast spurious s).2.has flag = s.has flag := by
  cases fast : dropJoinHandleFast spurious s with
  | mk dropped next =>
    cases dropped with
    | true =>
      obtain ⟨initial, left⟩ := dropJoinHandleFast_true fast
      have held : 1 ≤ s.refCount := by
        rw [show s = ⟨INITIAL_STATE⟩ from congrArg Snapshot.mk initial, initial_refCount]
        decide
      simp [left, other, Snapshot.has_sub held]
    | false => rw [dropJoinHandleFast_false fast]

end Words

section Steps

variable {V : Type} {c d : Cell V} {flag : Flag}

def Keeps (flag : Flag) (c d : Cell V) : Prop := d.state.has flag = c.state.has flag

theorem Keeps.freed {last : Bool} (keeps : Keeps flag c d) : Keeps flag c (if last then d.dealloc else d) := by
  cases last with
  | false => exact keeps
  | true => exact keeps

theorem dropReference_keeps (keeps : Keeps flag c d) : d.dropReference.Leads (Keeps flag c) := by
  apply Outcome.Leads.attempt
  rintro ⟨last, state⟩ left
  have same : state.has flag = d.state.has flag := refDec_flag.ok left
  exact Keeps.freed (same.trans keeps)

theorem storeJoinWaker_keeps (keeps : Keeps flag c d) (snapshot : Snapshot) :
    (d.storeJoinWaker snapshot).Leads (Keeps flag c) := by
  unfold Cell.storeJoinWaker
  split
  next => trivial
  next =>
    split
    next => trivial
    next => exact keeps

theorem readAfter_keeps (keeps : Keeps flag c d) (snapshot : Snapshot) : (d.readAfter snapshot).Leads (Keeps flag c) := by
  unfold Cell.readAfter
  split
  next => exact keeps
  next => trivial

theorem runNotified_keeps (free : flag.scheduling = false) : c.runNotified.Leads (Keeps flag c) := by
  unfold Cell.runNotified
  split
  next => trivial
  next =>
    apply Outcome.Leads.attempt
    rintro ⟨action, state⟩ left
    have same : state.has flag = c.state.has flag := (transitionToRunning_flag free).ok left
    cases action with
    | success =>
      dsimp only [Cell.poll]
      split
      next => exact lock_leads same
      next => trivial
    | cancelled => exact lock_leads same
    | failed => exact same
    | dealloc => exact same

theorem dropNotified_keeps : c.dropNotified.Leads (Keeps flag c) := by
  unfold Cell.dropNotified
  split
  next => trivial
  next => exact dropReference_keeps rfl

theorem pollPending_keeps (free : flag.scheduling = false) : c.pollPending.Leads (Keeps flag c) := by
  unfold Cell.pollPending
  split
  next =>
    apply Outcome.Leads.attempt
    rintro ⟨action, state⟩ left
    have same : state.has flag = c.state.has flag := (transitionToIdle_flag free).ok left
    cases action with
    | ok | okNotified | okDealloc | cancelled => exact same
  next => trivial

theorem complete_keeps (free : flag.scheduling = false) (other : .complete ≠ flag) : c.complete.Leads (Keeps flag c) := by
  unfold Cell.complete
  split
  next =>
    apply Outcome.Leads.attempt
    intro snapshot left
    exact (transitionToComplete_flag free other).ok left
  next => trivial

theorem terminate_keeps : c.terminate.Leads (Keeps flag c) := by
  unfold Cell.terminate
  split
  next count terminal =>
    apply Outcome.Leads.attempt
    rintro ⟨last, state⟩ left
    have same : state.has flag = c.state.has flag := (transitionToTerminal_flag count).ok left
    exact Keeps.freed same
  next => trivial

theorem wakeByVal_keeps (free : flag.scheduling = false) : c.wakeByVal.Leads (Keeps flag c) := by
  unfold Cell.wakeByVal
  split
  next => trivial
  next =>
    apply Outcome.Leads.attempt
    rintro ⟨action, state⟩ left
    have same : state.has flag = c.state.has flag := (transitionToNotifiedByVal_flag free).ok left
    cases action with
    | submit | dealloc | doNothing => exact same

theorem wakeByRef_keeps (free : flag.scheduling = false) : c.wakeByRef.Leads (Keeps flag c) := by
  unfold Cell.wakeByRef
  split
  next => trivial
  next =>
    apply Outcome.Leads.attempt
    rintro ⟨action, state⟩ left
    have same : state.has flag = c.state.has flag := (transitionToNotifiedByRef_flag free).ok left
    cases action with
    | submit | doNothing => exact same

theorem cloneWaker_keeps : c.cloneWaker.Leads (Keeps flag c) := by
  unfold Cell.cloneWaker
  split
  next => trivial
  next =>
    apply Outcome.Leads.attempt
    intro state left
    exact refInc_flag.ok left

theorem unsetJoinWaker_keeps (other : .joinWaker ≠ flag) : c.unsetJoinWaker.Leads (Keeps flag c) := by
  unfold Cell.unsetJoinWaker
  split
  next =>
    apply Outcome.Leads.attempt
    intro result left
    cases result with
    | ok snapshot =>
      have same : snapshot.has flag = c.state.has flag := (unsetWaker_flag other).ok left
      have keeps : Keeps flag c { c with state := snapshot } := same
      exact storeJoinWaker_keeps keeps snapshot
    | err snapshot => exact readAfter_keeps rfl snapshot
  next => trivial

theorem setJoinWaker_keeps (other : .joinWaker ≠ flag) : c.setJoinWaker.Leads (Keeps flag c) := by
  unfold Cell.setJoinWaker
  split
  next =>
    apply Outcome.Leads.attempt
    intro result left
    cases result with
    | ok snapshot =>
      have same : snapshot.has flag = c.state.has flag := (setJoinWaker_flag other).ok left
      exact same
    | err snapshot => exact readAfter_keeps rfl snapshot
  next => trivial

theorem dropJoinHandle_keeps (spurious : Bool) (other : .joinInterest ≠ flag) : (c.dropJoinHandle spurious).Leads (Keeps flag c) := by
  unfold Cell.dropJoinHandle
  split
  next =>
    have same := dropJoinHandleFast_flag (s := c.state) spurious other
    split
    next fast =>
      rw [fast] at same
      exact same
    next slow =>
      rw [slow] at same
      exact same
  next => trivial

theorem dropJoinHandleSlow_keeps (other : .joinInterest ≠ flag) : c.dropJoinHandleSlow.Leads (Keeps flag c) := by
  unfold Cell.dropJoinHandleSlow
  split
  next =>
    apply Outcome.Leads.attempt
    intro result left
    cases result with
    | ok snapshot =>
      have same : snapshot.has flag = c.state.has flag := (unsetJoinInterested_flag other).ok left
      exact same
    | err snapshot => exact rfl
  next => trivial

theorem remoteAbort_keeps (free : flag.scheduling = false) (other : .cancelled ≠ flag) :
    c.remoteAbort.Leads (Keeps flag c) := by
  unfold Cell.remoteAbort
  split
  next =>
    apply Outcome.Leads.attempt
    rintro ⟨submit, state⟩ left
    have same : state.has flag = c.state.has flag := (transitionToNotifiedAndCancel_flag free other).ok left
    cases submit with
    | false | true => exact same
  next => trivial

theorem shutdown_keeps (free : flag.scheduling = false) (other : .cancelled ≠ flag) :
    c.shutdown.Leads (Keeps flag c) := by
  unfold Cell.shutdown
  split
  next =>
    apply Outcome.Leads.attempt
    rintro ⟨idle, state⟩ left
    have same : state.has flag = c.state.has flag := (transitionToShutdown_flag free other).ok left
    cases idle with
    | false => exact same
    | true => exact lock_leads same
  next => trivial

def Action.touches : Action V → Flag → Bool
  | .complete, .complete => true
  | .remoteAbort, .cancelled | .shutdown, .cancelled => true
  | .unsetJoinWaker, .joinWaker | .setJoinWaker, .joinWaker => true
  | .dropJoinHandle _, .joinInterest | .dropJoinHandleSlow, .joinInterest => true
  | _, flag => flag.scheduling

theorem Action.touches_free {a : Action V} (untouched : a.touches flag = false) : flag.scheduling = false := by
  cases flag with
  | running | notified => cases a <;> simp [Action.touches, Flag.scheduling] at untouched
  | complete | joinInterest | joinWaker | cancelled => rfl

theorem step_keeps (a : Action V) (untouched : a.touches flag = false) : (c.step a).Leads (Keeps flag c) := by
  have free := Action.touches_free untouched
  cases a with
  | runNotified => exact runNotified_keeps free
  | dropNotified => exact dropNotified_keeps
  | pollPending => exact pollPending_keeps free
  | complete => exact complete_keeps free (by rintro rfl; simp [Action.touches] at untouched)
  | terminate => exact terminate_keeps
  | wakeByVal => exact wakeByVal_keeps free
  | wakeByRef => exact wakeByRef_keeps free
  | cloneWaker => exact cloneWaker_keeps
  | unsetJoinWaker => exact unsetJoinWaker_keeps (by rintro rfl; simp [Action.touches] at untouched)
  | setJoinWaker => exact setJoinWaker_keeps (by rintro rfl; simp [Action.touches] at untouched)
  | dropJoinHandle spurious => exact dropJoinHandle_keeps spurious (by rintro rfl; simp [Action.touches] at untouched)
  | dropJoinHandleSlow => exact dropJoinHandleSlow_keeps (by rintro rfl; simp [Action.touches] at untouched)
  | remoteAbort => exact remoteAbort_keeps free (by rintro rfl; simp [Action.touches] at untouched)
  | shutdown => exact shutdown_keeps free (by rintro rfl; simp [Action.touches] at untouched)
  | dropWaker =>
    dsimp only [Cell.step, Cell.dropWaker]
    split
    next => trivial
    next => exact dropReference_keeps rfl
  | finishDrop =>
    dsimp only [Cell.step, Cell.finishDrop]
    split
    next => trivial
    next => exact dropReference_keeps rfl
  | dropJoinReference =>
    dsimp only [Cell.step, Cell.dropJoinReference]
    split
    next => exact dropReference_keeps rfl
    next => trivial
  -- the others do not touch the word
  | canReadOutput willWake =>
    dsimp only [Cell.step, Cell.canReadOutput]
    repeat' split
    all_goals first
      | trivial
      | exact storeJoinWaker_keeps rfl c.state
  | pollReady | pollPanic | cancelTask | store | discard | wakeJoin | release | popOwned | unwindJoin | takeOutput
  | dropJoinOutput =>
    dsimp only [Cell.step, Cell.pollReady, Cell.pollPanic, Cell.cancelTask, Cell.store, Cell.discard,
      Cell.wakeJoin, Cell.release, Cell.popOwned, Cell.unwindJoin, Cell.takeOutput, Cell.dropJoinOutput]
    repeat' split
    all_goals trivial

end Steps

end Osaka.Task
