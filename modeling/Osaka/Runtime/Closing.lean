import Mathlib.Algebra.Order.BigOperators.Group.List
import Mathlib.Algebra.Order.Group.Nat
import Osaka.Runtime.RuntimeDrop

set_option autoImplicit false

namespace Osaka.Shutdown

open Transitions Osaka.Task

variable {V : Type} {p q : Pool V} {i j : TaskId} {c d : Cell V}

section Bystanders

theorem bystander_same (a : Action V) (foreign : schedules a = false) (unrun : runs a = false) :
    (c.step a).Leads fun d => d.owner = c.owner ∧ d.runner = c.runner := by
  have submits {outcome : Outcome (Cell V) Task.Fault} (leads : outcome.Leads (Submits c)) :
      outcome.Leads fun d => d.owner = c.owner ∧ d.runner = c.runner :=
    leads.mono fun _ same => ⟨same.owner, same.runner⟩
  have framed {outcome : Outcome (Cell V) Task.Fault} (leads : outcome.Leads (Frame c)) :
      outcome.Leads fun d => d.owner = c.owner ∧ d.runner = c.runner := submits (leads.mono fun _ => Frame.submits)
  cases a with
  | runNotified | dropNotified | popOwned | shutdown => cases foreign
  | pollPending | pollReady _ _ | pollPanic | cancelTask _ | store | complete | discard | wakeJoin | release
  | terminate => cases unrun
  | wakeByVal => exact submits wakeByVal_submits
  | wakeByRef => exact submits wakeByRef_submits
  | remoteAbort => exact submits remoteAbort_submits
  | cloneWaker => exact framed cloneWaker_frame
  | dropWaker => exact framed dropWaker_frame
  | finishDrop => exact framed finishDrop_frame
  | canReadOutput willWake => exact framed (canReadOutput_frame willWake)
  | unsetJoinWaker => exact framed unsetJoinWaker_frame
  | setJoinWaker => exact framed setJoinWaker_frame
  | unwindJoin => exact framed unwindJoin_frame
  | takeOutput => exact framed takeOutput_frame
  | dropJoinHandle spurious => exact framed (dropJoinHandle_frame spurious)
  | dropJoinHandleSlow => exact framed dropJoinHandleSlow_frame
  | dropJoinOutput => exact framed dropJoinOutput_frame
  | dropJoinReference => exact framed dropJoinReference_frame

theorem remaining_same (owner : d.owner = c.owner) (runner : d.runner = c.runner) : remaining d = remaining c := by
  unfold remaining
  rw [owner, runner]

end Bystanders

section Calls

theorem remainingAt_congr (cells : q.cells = p.cells) (task : TaskId) : q.remainingAt task = p.remainingAt task := by
  unfold Pool.remainingAt
  rw [cells]

theorem remainingAt_afterStep_le {a : Action V} (found : p.cells[i]? = some c) (less : remaining d ≤ remaining c)
    (task : TaskId) : (p.afterStep i a c d).remainingAt task ≤ p.remainingAt task := by
  by_cases same : task = i
  · subst same
    rw [remainingAt_afterStep found]
    simpa only [Pool.remainingAt, found] using less
  · unfold Pool.remainingAt
    rw [afterStep_cells, List.getElem?_set_ne (Ne.symm same)]

theorem stepTask_afterStep {a : Action V} (stepped : p.stepTask i a = .next q) :
    ∃ c d, p.cells[i]? = some c ∧ c.step a = .next d ∧ q = p.afterStep i a c d := by
  unfold Pool.stepTask at stepped
  split at stepped
  next => cases stepped
  next c found =>
    split at stepped
    next d taken =>
      cases stepped
      exact ⟨c, d, found, taken, rfl⟩
    next => cases stepped
    next => cases stepped

theorem shutdownTask_remaining {returned : Pool V} {panics : Bool} (cells : returned.cells = p.cells)
    (stepped : p.shutdownTask returned i panics = .next q) (task : TaskId) :
    q.remainingAt task ≤ p.remainingAt task := by
  unfold Pool.shutdownTask at stepped
  split at stepped
  next => cases stepped
  next c found =>
    have ending (unpopped : c.owner ≠ .popped) (stepped : p.endTask returned i c panics = .next q) :
        q.remainingAt task ≤ p.remainingAt task := by
      unfold Pool.endTask at stepped
      split at stepped
      next =>
        cases stepped
        exact (remainingAt_congr cells task).le
      next runner busy =>
        split at stepped
        next a next =>
          obtain ⟨b, d, found', taken, rfl⟩ := stepTask_afterStep stepped
          obtain rfl : c = b := Option.some.inj (found.symm.trans found')
          have proceeds := (nextAction_proceeds next).next taken
          exact remainingAt_afterStep_le found (proceeds_less proceeds unpopped).le task
        next => cases stepped
    cases owner : c.owner with
    | popped =>
      simp only [owner] at stepped
      have most (d : Cell V) : remaining d ≤ remaining c := by
        rw [show remaining c = 8 by simp [remaining, owner]]
        exact remaining_le d
      obtain ⟨b, d, found', -, rfl⟩ := stepTask_afterStep stepped
      have same : (if c.state.isIdle then p else returned).cells = p.cells := by
        split
        next => rfl
        next => exact cells
      rw [same] at found'
      obtain rfl : c = b := Option.some.inj (found.symm.trans found')
      rw [← remainingAt_congr same task]
      exact remainingAt_afterStep_le (same ▸ found) (most d) task
    | listed | released =>
      simp only [owner] at stepped
      exact ending (by simp [owner]) stepped

end Calls

section Paying

/-- What is left of `close_and_shutdown_all` and of the calls of `shutdown` on its thread. -/
def Pool.closingWork (p : Pool V) : Nat :=
  10 * p.owned.list.length + (p.stack.map fun task => p.remainingAt task + 1).sum

structure Nearer (p q : Pool V) : Prop where
  core : q.core = p.core
  stack : q.stack = p.stack
  list : q.owned.list.length ≤ p.owned.list.length
  remaining : ∀ task ∈ p.stack, q.remainingAt task ≤ p.remainingAt task

theorem Nearer.refl (p : Pool V) : Nearer p p := ⟨rfl, rfl, le_rfl, fun _ _ => le_rfl⟩

theorem Nearer.work (nearer : Nearer p q) : q.closingWork ≤ p.closingWork := by
  have calls : (p.stack.map fun task => q.remainingAt task + 1).sum ≤
      (p.stack.map fun task => p.remainingAt task + 1).sum :=
    List.sum_le_sum fun task called => Nat.add_le_add_right (nearer.remaining task called) 1
  have list := nearer.list
  unfold Pool.closingWork
  rw [nearer.stack]
  omega

theorem stepTask_nearer {a : Action V}
    (same : i ∈ p.stack → ∀ c : Cell V, (c.step a).Leads fun d => d.owner = c.owner ∧ d.runner = c.runner)
    (stepped : p.stepTask i a = .next q) : Nearer p q := by
  obtain ⟨c, d, found, taken, rfl⟩ := stepTask_afterStep stepped
  refine ⟨rfl, rfl, afterStep_list_length a, fun task called => ?_⟩
  by_cases here : task = i
  · subst here
    obtain ⟨owner, runner⟩ := (same called c).next taken
    exact remainingAt_afterStep_le found (remaining_same owner runner).le task
  · unfold Pool.remainingAt
    rw [afterStep_cells, List.getElem?_set_ne (Ne.symm here)]

theorem dropNotified_nearer (stepped : p.stepTask i .dropNotified = .next q) : Nearer p q := by
  apply stepTask_nearer _ stepped
  intro _ c
  exact dropNotified_consumes.mono fun d consumed => ⟨consumed.1.owner, consumed.2⟩

theorem spawn_pays {here : Bool} (coherent : Coherent p) (drops : p.Drops) (stepped : p.spawn here = .next q) :
    q.core = p.core ∧ q.closingWork ≤ p.closingWork + if here then 9 else 0 := by
  have closed := coherent.shape.closed.mpr drops
  unfold Pool.spawn at stepped
  split at stepped
  next => cases stepped
  next =>
    have nearer := dropNotified_nearer stepped
    have known {r : Pool V} (cells : r.cells = p.cells ++ [Cell.spawn true]) : ∀ task ∈ p.stack,
        r.remainingAt task + 1 = p.remainingAt task + 1 := by
      intro task called
      unfold Pool.remainingAt
      rw [cells, List.getElem?_append_left (coherent.shape.held task (.inl called))]
    cases here with
    | true =>
      simp only [if_true] at nearer ⊢
      refine ⟨nearer.core, nearer.work.trans ?_⟩
      have calls := List.map_congr_left (known (r := { p with
        cells := p.cells ++ [Cell.spawn true], stack := p.cells.length :: p.stack }) rfl)
      have most := Pool.remainingAt_le { p with
        cells := p.cells ++ [Cell.spawn true], stack := p.cells.length :: p.stack } p.cells.length
      simp only [Pool.closingWork, List.map_cons, List.sum_cons, calls]
      omega
    | false =>
      simp only [Bool.false_eq_true, if_false] at nearer ⊢
      refine ⟨nearer.core, nearer.work.trans ?_⟩
      have calls := List.map_congr_left (known (r := { p with
        cells := p.cells ++ [Cell.spawn true], elsewhere := p.cells.length :: p.elsewhere }) rfl)
      simp only [Pool.closingWork, calls]
      exact le_rfl

theorem schedule_nearer {inside : Bool} (stepped : p.schedule i inside = .next q) : Nearer p q := by
  simp only [Pool.schedule] at stepped
  repeat' split at stepped
  all_goals first
    | exact { dropNotified_nearer stepped with }
    | (cases stepped; done)
    | (cases stepped; exact { Nearer.refl p with })

theorem shutdownElsewhere_nearer {panics : Bool} (coherent : Coherent p) (within : (machine V).within p)
    (drops : p.Drops) (stepped : p.shutdownElsewhere i panics = .next q) : Nearer p q := by
  unfold Pool.shutdownElsewhere at stepped
  split at stepped
  next present =>
    have less := shutdownTask_remaining (by rfl) stepped
    obtain ⟨c, r, -, next, shutting⟩ := shutdownTask_next (i := i)
      (q := { p with elsewhere := p.elsewhere.erase i }) panics coherent within drops (.inr present) rfl
    obtain rfl : q = r := Outcome.next.inj (stepped.symm.trans next)
    cases shutting with
    | step _ _ => exact ⟨rfl, rfl, afterStep_list_length _, fun task _ => less task⟩
    | refused _ => exact ⟨rfl, rfl, le_rfl, fun task _ => less task⟩
    | returned => exact ⟨rfl, rfl, le_rfl, fun task _ => less task⟩
  next => cases stepped

theorem shutdownTask_pays {rest : List TaskId} {panics : Bool} (coherent : Coherent p) (within : (machine V).within p)
    (drops : p.Drops) (stack : p.stack = i :: rest)
    (stepped : p.shutdownTask { p with stack := rest } i panics = .next q) :
    q.core = p.core ∧ q.closingWork + 1 ≤ p.closingWork := by
  have less := shutdownTask_remaining (by rfl) stepped
  obtain ⟨c, r, found, next, shutting⟩ := shutdownTask_next (i := i) (q := { p with stack := rest }) panics
    coherent within drops (.inl (by simp [stack])) rfl
  obtain rfl : q = r := Outcome.next.inj (stepped.symm.trans next)
  have calls : (rest.map fun task => q.remainingAt task + 1).sum ≤ (rest.map fun task => p.remainingAt task + 1).sum :=
    List.sum_le_sum fun task _ => Nat.add_le_add_right (less task) 1
  cases shutting with
  | @step a d fewer _ =>
    refine ⟨rfl, ?_⟩
    have list := afterStep_list_length (p := p) (i := i) (c := c) (d := d) a
    have first := remainingAt_afterStep (p := p) (d := d) found a
    have before : p.remainingAt i = remaining c := by simp [Pool.remainingAt, found]
    simp only [Pool.closingWork, afterStep_stack, stack, List.map_cons, List.sum_cons]
    omega
  | @refused d _ =>
    refine ⟨rfl, ?_⟩
    simp only [Pool.closingWork, stack, List.map_cons, List.sum_cons]
    change 10 * p.owned.list.length + (rest.map _).sum + 1 ≤ _
    omega
  | returned =>
    refine ⟨rfl, ?_⟩
    simp only [Pool.closingWork, stack, List.map_cons, List.sum_cons]
    omega

theorem advance_pays {panics : Bool} (coherent : Coherent p) (within : (machine V).within p) (drops : p.Drops)
    (stepped : p.advance panics = .next q) (closing : q.core = .dropping .closing) :
    p.core = .dropping .closing ∧ q.closingWork + 1 ≤ p.closingWork := by
  unfold Pool.advance at stepped
  split at stepped
  next task rest stack =>
    obtain ⟨core, less⟩ := shutdownTask_pays coherent within drops stack stepped
    exact ⟨core ▸ closing, less⟩
  next stack =>
    split at stepped
    next closing =>
      refine ⟨closing, ?_⟩
      split at stepped
      next task owned popped =>
        obtain ⟨list, -⟩ := popBack_eq popped
        obtain ⟨c, d, -, -, rfl⟩ := stepTask_afterStep stepped
        have most := Pool.remainingAt_le (Pool.afterStep { p with owned := owned, stack := [task] } task .popOwned c d) task
        have shorter := afterStep_list_length (p := { p with owned := owned, stack := [task] }) (i := task) (c := c)
          (d := d) .popOwned
        simp only [Pool.closingWork, afterStep_stack, stack, list, List.map_cons, List.map_nil, List.sum_cons,
          List.sum_nil, List.length_append, List.length_singleton]
        dsimp only at shorter
        omega
      next =>
        cases stepped
        cases closing
    next draining =>
      split at stepped
      next =>
        obtain ⟨c, d, -, -, rfl⟩ := stepTask_afterStep stepped
        simp [draining] at closing
      next =>
        cases stepped
        cases closing
    next draining =>
      obtain ⟨c, d, -, -, rfl⟩ := stepTask_afterStep stepped
      cases closing
    next =>
      split at stepped
      next =>
        cases stepped
        cases closing
      next => cases stepped
    all_goals cases stepped

end Paying

section Runs

def Act.advances : Act V → Bool
  | .advance _ => true
  | _ => false

def Act.spawnsHere : Act V → Bool
  | .spawn here => here
  | _ => false

/-- A step of `close_and_shutdown_all` leaves less of it, and only a destructor that spawns leaves more. -/
theorem step_pays {a : Act V} (coherent : Coherent p) (within : (machine V).within p) (drops : p.Drops)
    (stepped : p.step a = .next q) (closing : q.core = .dropping .closing) : p.core = .dropping .closing ∧
      q.closingWork + a.advances.toNat ≤ p.closingWork + 9 * a.spawnsHere.toNat := by
  have free (nearer : Nearer p q) : p.core = .dropping .closing ∧ q.closingWork + 0 ≤ p.closingWork + 9 * 0 :=
    ⟨nearer.core ▸ closing, nearer.work⟩
  cases a with
  | spawn here =>
    obtain ⟨core, work⟩ := spawn_pays coherent drops stepped
    refine ⟨core ▸ closing, work.trans ?_⟩
    cases here <;> exact le_rfl
  | schedule task inside => exact free (schedule_nearer stepped)
  | task task a =>
    simp only [Pool.step] at stepped
    split at stepped
    next => cases stepped
    next foreign =>
      refine free (stepTask_nearer (fun called c => ?_) stepped)
      simp only [called, decide_true, Bool.true_or, Bool.and_true, Bool.or_eq_true, not_or,
        Bool.not_eq_true] at foreign
      exact bystander_same a foreign.1 foreign.2
  | advance panics => exact advance_pays coherent within drops stepped closing
  | shutdownElsewhere task panics => exact free (shutdownElsewhere_nearer coherent within drops stepped)
  | enter | leave | lose | dropLost | runTask _ | endRun | drop _ =>
    obtain ⟨phase, dropping⟩ := drops
    simp [Pool.step, Pool.enter, Pool.leave, Pool.lose, Pool.dropLost, Pool.runTask, Pool.endRun, Pool.drop,
      dropping] at stepped

/-- However its steps interleave with those of the other threads and of the destructors that it runs. -/
theorem closing_bounded {actions : List (Act V)} (coherent : Coherent p) (drops : p.Drops)
    (ran : (machine V).run p actions = some q) (closing : q.core = .dropping .closing) : p.core = .dropping .closing ∧
      actions.countP Act.advances ≤ p.closingWork + 9 * actions.countP Act.spawnsHere := by
  have pays (s : Pool V) (a : Act V) (t : Pool V) (kept : Coherent s ∧ s.Drops) (within : (machine V).within s)
      (stepped : s.step a = .next t) : (Coherent t ∧ t.Drops) ∧ (t.core = .dropping .closing → s.core = .dropping .closing ∧
        t.closingWork + a.advances.toNat ≤ s.closingWork + 9 * a.spawnsHere.toNat) := by
    have follows := next_follows kept.1 within stepped
    exact ⟨⟨follows.coherent, follows.drops kept.2⟩, step_pays kept.1 within kept.2 stepped⟩
  obtain ⟨there, paid⟩ := (machine V).run_pays _ _ 9 pays ⟨coherent, drops⟩ ran closing
  exact ⟨there, (Nat.le_add_left _ _).trans paid⟩

theorem closed_stays {later : List (Act V)} (coherent : Coherent p) (drops : p.Drops)
    (opened : p.core ≠ .dropping .closing) (ran : (machine V).run p later = some q) :
    q.core ≠ .dropping .closing ∧ q.owned.list = [] := by
  have away : q.core ≠ .dropping .closing := fun closing => opened (closing_bounded coherent drops ran closing).1
  have first : Shut p p := ⟨coherent, drops, Later.refl p⟩
  have shut := (first.run ran).1
  exact ⟨away, shut.coherent.shape.drained shut.drops away⟩

end Runs

end Osaka.Shutdown
