import Osaka.Runtime.Closing
import Osaka.Util.Lists

set_option autoImplicit false

namespace Osaka.Shutdown

open Transitions Osaka.Task

variable {V : Type} {p q : Pool V} {i : TaskId} {c d : Cell V}

section Calls

/-- The call of `remove` that the next step of `shutdown` makes. -/
def Pool.shutdownCall (p : Pool V) (task : TaskId) : Option (LinkedList.Call Unit TaskId) :=
  match p.cells[task]? with
  | none => none
  | some c =>
    match c.owner, c.runner with
    | .listed, some .releasing | .released, some .releasing => some (.remove () task)
    | _, _ => none

/-- The call that a step makes on the linked list of the OwnedTasks. -/
def Pool.listCall (p : Pool V) : Act V → Option (LinkedList.Call Unit TaskId)
  | .spawn _ => if p.owned.closed then none else some (.pushFront () p.cells.length)
  | .task task .release => some (.remove () task)
  | .advance _ =>
    match p.stack with
    | task :: _ => p.shutdownCall task
    | [] =>
      match p.core with
      | .dropping .closing => some (.popBack ())
      | _ => none
  | .shutdownElsewhere task _ => p.shutdownCall task
  | _ => none

def called (list : List TaskId) : Option (LinkedList.Call Unit TaskId) → List TaskId
  | none => list
  | some call => LinkedList.Sequences.step (fun _ => list) call ()

theorem stepTask_owned {a : Action V} (stepped : p.stepTask i a = .next q) :
    q.owned = match a with
      | .release => p.owned.remove i
      | _ => p.owned := by
  obtain ⟨c, d, -, -, rfl⟩ := stepTask_afterStep stepped
  cases a <;> rfl

theorem stepTask_unreleased {a : Action V} (stepped : p.stepTask i a = .next q) (other : a ≠ .release) :
    q.owned.list = p.owned.list := by
  have owned := stepTask_owned stepped
  cases a <;> first | exact congrArg OwnedTasks.list owned | exact absurd rfl other

theorem endTask_list {returned : Pool V} {panics : Bool} (same : returned.owned = p.owned)
    (stepped : p.endTask returned i c panics = .next q) :
    q.owned.list = called p.owned.list (match c.runner with
      | some .releasing => some (.remove () i)
      | _ => none) := by
  unfold Pool.endTask at stepped
  split at stepped
  next away =>
    cases stepped
    rw [away, same]
    rfl
  next runner busy =>
    rw [busy]
    split at stepped
    next a next =>
      cases runner with
      | releasing =>
        obtain rfl := Option.some.inj next
        exact congrArg OwnedTasks.list (stepTask_owned stepped)
      | polling => cases next
      | cancelling | storing _ | completing | discarding | wakingJoin | terminal _ =>
        obtain rfl := Option.some.inj next
        exact stepTask_unreleased stepped (by simp)
    next => cases stepped

theorem shutdownTask_list {returned : Pool V} {panics : Bool} (same : returned.owned = p.owned)
    (stepped : p.shutdownTask returned i panics = .next q) : q.owned.list = called p.owned.list (p.shutdownCall i) := by
  unfold Pool.shutdownTask at stepped
  unfold Pool.shutdownCall
  cases found : p.cells[i]? with
  | none => simp [found] at stepped
  | some c =>
    simp only [found] at stepped ⊢
    cases owner : c.owner with
    | popped =>
      simp only [owner] at stepped ⊢
      have kept := stepTask_unreleased stepped (by simp)
      split at kept
      next => exact kept
      next => exact kept.trans (congrArg OwnedTasks.list same)
    | listed | released =>
      simp only [owner] at stepped ⊢
      have list := endTask_list same stepped
      split <;> simp_all

theorem spawn_list {here : Bool} (stepped : p.spawn here = .next q) :
    q.owned.list = called p.owned.list (p.listCall (.spawn here)) := by
  unfold Pool.spawn at stepped
  split at stepped
  next => cases stepped
  next =>
    split at stepped
    next closed =>
      have kept := stepTask_unreleased stepped (by simp)
      simp only [Pool.listCall, closed, if_true, called]
      rw [kept]
      split <;> rfl
    next opened =>
      cases stepped
      simp only [Pool.listCall, OwnedTasks.bind, opened, Bool.false_eq_true, if_false, called]
      exact (LinkedList.Sequences.put_self (fun _ => p.owned.list) () _).symm

theorem advance_list {panics : Bool} (stepped : p.advance panics = .next q) :
    q.owned.list = called p.owned.list (p.listCall (.advance panics)) := by
  unfold Pool.advance at stepped
  unfold Pool.listCall
  cases stack : p.stack with
  | cons task rest =>
    simp only [stack] at stepped ⊢
    refine shutdownTask_list ?_ stepped
    rfl
  | nil =>
    simp only [stack] at stepped ⊢
    split at stepped
    next closing =>
      simp only [closing, called]
      split at stepped
      next task owned popped =>
        have kept := stepTask_unreleased stepped (by simp)
        obtain ⟨list, -⟩ := popBack_eq popped
        rw [kept, list]
        exact (List.dropLast_concat).symm
      next empty =>
        cases stepped
        change p.owned.list = _
        rw [popBack_none empty]
        rfl
    next draining =>
      simp only [draining, called]
      split at stepped
      next => exact (stepTask_unreleased stepped (by simp)).trans rfl
      next =>
        cases stepped
        rfl
    next task rest draining =>
      simp only [draining, called]
      exact (stepTask_unreleased stepped (by simp)).trans rfl
    next draining =>
      simp only [draining, called]
      split at stepped
      next =>
        cases stepped
        rfl
      next => cases stepped
    all_goals cases stepped

theorem step_list {a : Act V} (stepped : p.step a = .next q) : q.owned.list = called p.owned.list (p.listCall a) := by
  cases a with
  | spawn here => exact spawn_list stepped
  | task task a =>
    simp only [Pool.step] at stepped
    split at stepped
    next => cases stepped
    next =>
      by_cases release : a = .release
      · subst release
        exact congrArg OwnedTasks.list (stepTask_owned stepped)
      · have none : p.listCall (.task task a) = none := by
          cases a <;> first | rfl | exact absurd rfl release
        rw [none]
        exact stepTask_unreleased stepped release
  | schedule _ _ | enter | leave | lose | endRun | runTask _ | dropLost | drop _ =>
    change q.owned.list = p.owned.list
    simp only [Pool.step, Pool.schedule, Pool.enter, Pool.leave, Pool.lose, Pool.endRun, Pool.runTask, Pool.dropLost,
      Pool.drop] at stepped
    repeat' split at stepped
    all_goals first
      | exact (stepTask_unreleased stepped (by simp)).trans rfl
      | (cases stepped; done)
      | (cases stepped; rfl)
  | advance panics => exact advance_list stepped
  | shutdownElsewhere task panics =>
    simp only [Pool.step, Pool.shutdownElsewhere] at stepped
    split at stepped
    next =>
      refine shutdownTask_list ?_ stepped
      rfl
    next => cases stepped

theorem shutdownCall_push {list : Unit} {node : TaskId} : p.shutdownCall i ≠ some (.pushFront list node) := by
  unfold Pool.shutdownCall
  split
  next => exact nofun
  next => split <;> exact nofun

theorem listCall_push {a : Act V} {list : Unit} {node : TaskId} (calls : p.listCall a = some (.pushFront list node)) :
    node = p.cells.length := by
  cases a with
  | spawn here =>
    simp only [Pool.listCall] at calls
    split at calls
    next => cases calls
    next =>
      cases calls
      rfl
  | task task a => cases a <;> cases calls
  | advance panics =>
    simp only [Pool.listCall] at calls
    split at calls
    next => exact absurd calls shutdownCall_push
    next => split at calls <;> cases calls
  | shutdownElsewhere task panics => exact absurd calls shutdownCall_push
  | _ => cases calls

theorem listCall_allowed (coherent : Coherent p) {a : Act V} {call : LinkedList.Call Unit TaskId}
    (calls : p.listCall a = some call) : LinkedList.Sequences.Allows (fun _ => p.owned.list) call := by
  cases call with
  | pushFront list node =>
    intro _ member
    have known := coherent.shape.listed node member
    rw [listCall_push calls] at known
    exact Nat.lt_irrefl _ known
  | remove list node => exact fun j apart => absurd rfl apart
  | popBack | isEmpty | last => trivial

end Calls

section Linking

def link (list : Except LinkedList.Fault (LinkedList.Lists Unit TaskId)) (p : Pool V) (a : Act V) (_ : Pool V) :
    Except LinkedList.Fault (LinkedList.Lists Unit TaskId) :=
  match p.listCall a with
  | none => list
  | some call => list.bind fun lists => (lists.call call).map Prod.snd

/-- The runtime whose owned tasks are the nodes of an intrusive list. -/
def linked (V : Type) := (machine V).observed (.ok LinkedList.Lists.new) link

/-- No assert of the list has failed, and the nodes are the tasks of the OwnedTasks. -/
def Linked (p : Pool V) (list : Except LinkedList.Fault (LinkedList.Lists Unit TaskId)) : Prop :=
  ∃ lists, list = .ok lists ∧ lists.Refines fun _ => p.owned.list

theorem reachable_linked {s : Pool V × Except LinkedList.Fault (LinkedList.Lists Unit TaskId)}
    (reached : (linked V).Reachable s) : Linked s.1 s.2 := by
  refine System.Reachable.watched (P := Linked) ?_ ?_ reached
  · rintro _ rfl
    exact ⟨_, rfl, LinkedList.Lists.new_refines⟩
  · rintro p _ a q reached ⟨lists, rfl, refines⟩ - stepped
    have list := step_list stepped
    unfold link
    cases calls : p.listCall a with
    | none =>
      rw [calls] at list
      refine ⟨lists, rfl, ?_⟩
      rw [list]
      exact refines
    | some call =>
      obtain ⟨next, called', refines⟩ := refines.call (listCall_allowed (reachable_coherent reached) calls)
      refine ⟨next, ?_, ?_⟩
      · change (lists.call call).map Prod.snd = .ok next
        rw [called']
        rfl
      · rw [calls] at list
        rw [list]
        exact refines

end Linking

section Placement

/-- A call of `shutdown` has not returned, or whoever runs the task ends it: it is cancelled, or past its last poll. -/
def ShuttingDown (p : Pool V) (task : TaskId) (c : Cell V) : Prop :=
  p.Holds task ∨ Runner.locks c.runner = true ∧ (c.runner = some .polling → c.state.isCancelled = true)

theorem owned_once (coherent : Coherent p) (found : p.cells[i]? = some c) :
    p.owned.list.count i = 1 ∨ p.owned.list.count i = 0 ∧ (c.state.isComplete = true ∨ ShuttingDown p i c) := by
  have fits := coherent.fits i c found
  by_cases listed : i ∈ p.owned.list
  · exact .inl (List.count_eq_one_of_mem coherent.shape.nodup listed)
  · refine .inr ⟨List.count_eq_zero_of_not_mem listed, ?_⟩
    cases owner : c.owner with
    | listed => exact absurd (fits.listed.mp owner) listed
    | popped => exact .inr (.inl (fits.popped owner))
    | released =>
      by_cases complete : c.state.has .complete = true
      · exact .inl complete
      · have ending := fits.sound.scheduled.owner owner (by simpa using complete)
        exact .inr (.inr ending)

end Placement

section References

theorem release_next (coherent : Coherent p) (found : p.cells[i]? = some c) (releasing : c.runner = some .releasing) :
    ∃ q d, p.stepTask i .release = .next q ∧ q.cells[i]? = some d ∧ i ∉ q.owned.list ∧
      d.runner = some (.terminal (if i ∈ p.owned.list then 2 else 1)) := by
  have fits := coherent.fits i c found
  have known := (List.getElem?_eq_some_iff.mp found).1
  have gone : i ∉ p.owned.list.erase i := coherent.shape.nodup.not_mem_erase
  by_cases listed : i ∈ p.owned.list
  · have owner := fits.listed.mpr listed
    have stepped : c.step .release = .next { c with owner := .released, runner := some (.terminal 2) } := by
      simp [Cell.step, Cell.release, releasing, owner]
    refine ⟨_, _, stepTask_next found stepped, List.getElem?_set_self known, gone, ?_⟩
    rw [if_pos listed]
  · have owner : c.owner ≠ .listed := fun owner => listed (fits.listed.mp owner)
    have stepped : c.step .release = .next { c with runner := some (.terminal 1) } := by
      cases own : c.owner <;> simp_all [Cell.step, Cell.release]
    refine ⟨_, _, stepTask_next found stepped, List.getElem?_set_self known, gone, ?_⟩
    rw [if_neg listed]

theorem shutdownTask_release {returned : Pool V} {panics : Bool} {call : LinkedList.Call Unit TaskId}
    (calls : p.shutdownCall i = some call) (stepped : p.shutdownTask returned i panics = .next q) :
    call = .remove () i ∧ p.stepTask i .release = .next q := by
  unfold Pool.shutdownCall at calls
  unfold Pool.shutdownTask at stepped
  cases found : p.cells[i]? with
  | none => simp [found] at calls
  | some c =>
    simp only [found] at calls stepped
    split at calls
    next owner releasing =>
      cases calls
      simp only [owner, Pool.endTask, releasing, nextAction] at stepped
      exact ⟨rfl, stepped⟩
    next owner releasing =>
      cases calls
      simp only [owner, Pool.endTask, releasing, nextAction] at stepped
      exact ⟨rfl, stepped⟩
    next => cases calls

theorem remove_release {a : Act V} (calls : p.listCall a = some (.remove () i)) (stepped : p.step a = .next q) :
    p.stepTask i .release = .next q := by
  cases a with
  | spawn here =>
    simp only [Pool.listCall] at calls
    split at calls <;> cases calls
  | task task a =>
    simp only [Pool.step] at stepped
    split at stepped
    next => cases stepped
    next =>
      cases a with
      | release =>
        cases calls
        exact stepped
      | _ => cases calls
  | advance panics =>
    simp only [Pool.step, Pool.advance] at stepped
    simp only [Pool.listCall] at calls
    cases stack : p.stack with
    | cons task rest =>
      simp only [stack] at calls stepped
      obtain ⟨same, released⟩ := shutdownTask_release calls stepped
      cases same
      exact released
    | nil =>
      simp only [stack] at calls
      split at calls <;> cases calls
  | shutdownElsewhere task panics =>
    simp only [Pool.step, Pool.shutdownElsewhere] at stepped
    split at stepped
    next =>
      obtain ⟨same, released⟩ := shutdownTask_release calls stepped
      cases same
      exact released
    next => cases stepped
  | _ => cases calls

theorem release_releasing (stepped : p.stepTask i .release = .next q) :
    ∃ c, p.cells[i]? = some c ∧ c.runner = some .releasing := by
  obtain ⟨c, d, found, taken, -⟩ := stepTask_afterStep stepped
  simp only [Cell.step, Cell.release] at taken
  split at taken
  next releasing => exact ⟨c, found, releasing⟩
  next => cases taken

theorem terminate_next {count : Nat} (sound : Sound c) (terminal : c.runner = some (.terminal count)) :
    ∃ d, c.step .terminate = .next d ∧ d.state.refCount + count = c.state.refCount ∧
      d.deallocs = if d.state.refCount = 0 then 1 else 0 := by
  have held : count ≤ c.live := by
    simp only [Cell.live, terminal, Runner.references]
    omega
  have enough : count ≤ c.state.refCount := by rwa [sound.counted.references]
  have stepped : c.step .terminate = .next (if decide (c.state.refCount = count)
      then Cell.dealloc { c with state := c.state.sub count, runner := none }
      else { c with state := c.state.sub count, runner := none }) := by
    simp only [Cell.step, Cell.terminate, terminal, transitionToTerminal_eq enough, Outcome.attempt_ok]
  have after := ((terminate_kept sound).next stepped).sound.counted
  refine ⟨_, stepped, ?_, ?_⟩
  · rw [apply_ite Cell.state, show (Cell.dealloc { c with state := c.state.sub count, runner := none }).state =
      c.state.sub count from rfl, ite_self, Snapshot.refCount_sub enough]
    omega
  · rw [after.references]
    exact after.freed

end References

section Result

variable {s : Pool V × Except LinkedList.Fault (LinkedList.Lists Unit TaskId)}

theorem release_answers {a : Act V} (reached : (linked V).Reachable s) (stepped : s.1.step a = .next q)
    (calls : s.1.listCall a = some (.remove () i)) : ∃ lists next d, s.2 = .ok lists ∧
      lists.call (.remove () i) = .ok (.node (if i ∈ s.1.owned.list then some i else none), next) ∧
      q.cells[i]? = some d ∧ d.runner = some (.terminal (if i ∈ s.1.owned.list then 2 else 1)) ∧ i ∉ q.owned.list := by
  have coherent := reachable_coherent reached.of_observed
  obtain ⟨lists, ok, refines⟩ := reachable_linked reached
  obtain ⟨next, called, -⟩ := refines.call (listCall_allowed coherent calls)
  have released := remove_release calls stepped
  obtain ⟨c, found, releasing⟩ := release_releasing released
  obtain ⟨r, d, stepped', present, gone, terminal⟩ := release_next coherent found releasing
  obtain rfl : q = r := Outcome.next.inj (released.symm.trans stepped')
  exact ⟨lists, next, d, ok, called, present, terminal, gone⟩

theorem owned_tasks (reached : (linked V).Reachable s) :
    Linked s.1 s.2 ∧
    (∀ (i : TaskId) (c : Cell V), s.1.cells[i]? = some c → s.1.owned.list.count i = 1 ∨
      s.1.owned.list.count i = 0 ∧ (c.state.isComplete = true ∨ ShuttingDown s.1 i c)) ∧
    -- release, and transition_to_terminal after it
    (∀ a q i, s.1.step a = .next q → s.1.listCall a = some (.remove () i) → ∃ lists next d, s.2 = .ok lists ∧
      lists.call (.remove () i) = .ok (.node (if i ∈ s.1.owned.list then some i else none), next) ∧
      q.cells[i]? = some d ∧ d.runner = some (.terminal (if i ∈ s.1.owned.list then 2 else 1)) ∧
      i ∉ q.owned.list) ∧
    (∀ (i : TaskId) (c : Cell V) (count : Nat), s.1.cells[i]? = some c → c.runner = some (.terminal count) →
      ∃ d, c.step .terminate = .next d ∧ d.state.refCount + count = c.state.refCount ∧
        d.deallocs = if d.state.refCount = 0 then 1 else 0) ∧
    ((machine V).within s.1 → ∀ a fault, s.1.step a = .failed fault → fault = .neverPlacedBack) ∧
    -- close_and_shutdown_all is never stuck, and has so many steps to make
    (s.1.core = .dropping .closing →
      ((machine V).within s.1 → ∀ panics, ∃ q, s.1.step (.advance panics) = .next q) ∧
      ∀ actions q, (machine V).run s.1 actions = some q → q.core = .dropping .closing →
        actions.countP Act.advances ≤ s.1.closingWork + 9 * actions.countP Act.spawnsHere) ∧
    -- when it has returned, and ever after
    (s.1.Drops → s.1.core ≠ .dropping .closing →
      (∀ (i : TaskId) (c : Cell V), s.1.cells[i]? = some c → ¬s.1.Holds i → c.state.isComplete = true) ∧
      ∀ later q, (machine V).run s.1 later = some q → q.core ≠ .dropping .closing ∧ q.owned.list = []) := by
  have coherent := reachable_coherent reached.of_observed
  refine ⟨reachable_linked reached, fun i c => owned_once coherent, fun a q i => release_answers reached, ?_, ?_, ?_, ?_⟩
  · intro i c count found terminal
    exact terminate_next (coherent.fits i c found).sound terminal
  · intro within a fault failed
    by_contra other
    refine (step_follows a coherent within fun lost panicking here => ?_).sound fault failed
    subst here
    cases panicking with
    | true => rfl
    | false =>
      simp only [Pool.step, Pool.drop, lost, Bool.false_eq_true, if_false, Outcome.failed.injEq] at failed
      exact absurd failed.symm other
  · intro closing
    refine ⟨fun within panics => ?_, fun actions q ran still => ?_⟩
    · obtain ⟨q, next, -⟩ := advance_next panics coherent within (by rw [closing]; rfl)
      exact ⟨q, next⟩
    · exact (closing_bounded coherent ⟨_, closing⟩ ran still).2
  · intro drops opened
    exact ⟨fun i c => coherent.complete drops opened, fun later q => closed_stays coherent drops opened⟩

def exampleRelease : List (Act Nat) :=
  [.spawn false, .enter, .schedule 0 true, .runTask false, .task 0 (.pollReady 5 false), .task 0 .store, .task 0 .complete]

theorem exampleRelease_answers :
    ((machine Nat).run .new exampleRelease).bind (fun p => ((machine Nat).run p [.task 0 .release]).map
      fun q => (p.owned.list, q.owned.list)) = some ([0], []) := by
  decide +kernel

/-- The first removal of a task that its list still has. -/
theorem owned_tasks_released : ∃ (lists next : LinkedList.Lists Unit TaskId) (q : Pool Nat) (d : Cell Nat),
    lists.call (.remove () 0) = .ok (.node (some 0), next) ∧ q.cells[0]? = some d ∧ d.runner = some (.terminal 2) ∧
      q.owned.list = [] := by
  obtain ⟨p, before, released⟩ := Option.bind_eq_some_iff.mp exampleRelease_answers
  obtain ⟨q, ran, answers⟩ := Option.map_eq_some_iff.mp released
  obtain ⟨r, -, stepped, last⟩ := (machine Nat).run_cons ran
  obtain rfl : r = q := Option.some.inj last
  simp only [Prod.mk.injEq] at answers
  obtain ⟨list, reached⟩ := System.Reachable.observed (System.reachable_run _ new_reachable before)
  obtain ⟨lists, next, d, -, called, found, terminal, -⟩ := (owned_tasks reached).2.2.1 (.task 0 .release) _ 0 stepped rfl
  simp only [answers.1, List.mem_singleton, if_true] at called terminal
  exact ⟨lists, next, r, d, called, found, terminal, answers.2⟩

end Result

end Osaka.Shutdown
