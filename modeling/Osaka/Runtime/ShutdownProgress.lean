import Osaka.Runtime.ShutdownSteps

set_option autoImplicit false

namespace Osaka.Shutdown

open Transitions Osaka.Task

variable {V : Type} {p q : Pool V} {i : TaskId} {c d : Cell V}

section Work

def remaining (c : Cell V) : Nat :=
  match c.owner with
  | .popped => 8
  | .listed | .released => Runner.remaining c.runner

theorem remaining_le (c : Cell V) : remaining c ≤ 8 := by
  have short : Runner.remaining c.runner ≤ 8 := by
    match c.runner with
    | none | some .polling | some .cancelling | some (.storing _) | some .completing | some .discarding
    | some .wakingJoin | some .releasing | some (.terminal _) => simp [Runner.remaining]
  unfold remaining
  split
  next => exact le_rfl
  next => exact short
  next => exact short

theorem remaining_of_unpopped (unpopped : c.owner ≠ .popped) : remaining c = Runner.remaining c.runner := by
  unfold remaining
  split
  next popped => exact absurd popped unpopped
  next => rfl
  next => rfl

def Phase.work : Phase → Nat
  | .closing => 3
  | .drainingLocal => 2
  | .drainingRemote rest => 1 + rest.length
  | .finished => 0

namespace Pool

def remainingAt (p : Pool V) (task : TaskId) : Nat :=
  match p.cells[task]? with
  | some c => remaining c
  | none => 0

theorem remainingAt_le (p : Pool V) (task : TaskId) : p.remainingAt task ≤ 8 := by
  unfold remainingAt
  split
  next c _ => exact remaining_le c
  next => exact Nat.zero_le _

def stackWork (p : Pool V) : List TaskId → Nat
  | [] => 0
  | task :: rest => p.remainingAt task + 1 + 9 * rest.length

theorem stackWork_le (p : Pool V) (stack : List TaskId) : p.stackWork stack ≤ 9 * stack.length := by
  cases stack with
  | nil => exact Nat.zero_le _
  | cons task rest =>
    have short := p.remainingAt_le task
    simp only [stackWork, List.length_cons]
    omega

def others (p : Pool V) : Nat :=
  10 * p.owned.list.length + p.tasks.length + (p.queue.getD []).length +
    match p.core with
    | .dropping phase => phase.work
    | .slot | .running _ | .lost | .abandoned => 0

/-- The steps of the thread that drops the runtime, if nobody else takes one. -/
def work (p : Pool V) : Nat := p.others + p.stackWork p.stack

end Pool

end Work

section Steps

theorem stepTask_next {a : Action V} (found : p.cells[i]? = some c) (stepped : c.step a = .next d) :
    p.stepTask i a = .next (p.afterStep i a c d) := by
  simp [Pool.stepTask, found, stepped]

theorem afterStep_within {a : Action V} (within : (machine V).within p) (found : p.cells[i]? = some c)
    (live : d.live ≤ c.live) : (machine V).within (p.afterStep i a c d) := by
  intro b present
  rcases List.mem_or_eq_of_mem_set present with present | rfl
  · exact within b present
  · exact live.trans_lt (within c (List.mem_of_getElem? found))

theorem nextAction_proceeds {runner : Runner V} {a : Action V} {panics : Bool}
    (next : nextAction panics runner = some a) : (c.step a).Leads (Proceeds (ownerAfter a c.owner) c) := by
  cases runner with
  | polling => simp [nextAction] at next
  | cancelling => obtain rfl := Option.some.inj next; exact cancelTask_proceeds panics
  | storing result => obtain rfl := Option.some.inj next; exact store_proceeds
  | completing => obtain rfl := Option.some.inj next; exact complete_proceeds
  | discarding => obtain rfl := Option.some.inj next; exact discard_proceeds
  | wakingJoin => obtain rfl := Option.some.inj next; exact wakeJoin_proceeds
  | releasing => obtain rfl := Option.some.inj next; exact release_proceeds
  | terminal count => obtain rfl := Option.some.inj next; exact terminate_proceeds

theorem proceeds_less {a : Action V} (proceeds : Proceeds (ownerAfter a c.owner) c d) (owner : c.owner ≠ .popped) :
    remaining d < remaining c := by
  have owner' : d.owner ≠ .popped := by
    rw [proceeds.effect.owner]
    cases a with
    | release => cases at' : c.owner <;> simp [ownerAfter, Owner.removed, at'] at owner ⊢
    | _ => exact owner
  rw [remaining_of_unpopped owner, remaining_of_unpopped owner']
  exact proceeds.remaining

theorem nextAction_next {runner : Runner V} {a : Action V} {panics : Bool} (sound : Sound c)
    (within : c.live < 2 ^ 56) (busy : c.runner = some runner) (next : nextAction panics runner = some a) :
    ∃ d, c.step a = .next d ∧ Proceeds (ownerAfter a c.owner) c d := by
  have enabled : c.step a ≠ .disabled := by
    cases runner with
    | polling => simp [nextAction] at next
    | cancelling | storing result | discarding =>
      obtain rfl := Option.some.inj next
      simp [Cell.step, Cell.cancelTask, Cell.store, Cell.discard, busy]
    | completing =>
      obtain rfl := Option.some.inj next
      simp only [Cell.step, Cell.complete, busy]
      exact Outcome.attempt_enabled fun _ => by simp
    | wakingJoin =>
      obtain rfl := Option.some.inj next
      simp only [Cell.step, Cell.wakeJoin, busy]
      split <;> simp
    | releasing =>
      obtain rfl := Option.some.inj next
      simp only [Cell.step, Cell.release, busy]
      split <;> simp
    | terminal count =>
      obtain rfl := Option.some.inj next
      simp only [Cell.step, Cell.terminate, busy]
      exact Outcome.attempt_enabled fun _ => by simp
  obtain ⟨d, stepped, _⟩ := (step_stepped a sound within).taken enabled
  exact ⟨d, stepped, (nextAction_proceeds next).next stepped⟩

inductive Shutting (p q : Pool V) (i : TaskId) (c : Cell V) : Pool V → Prop where
  | step {a : Action V} {d : Cell V} : remaining d < remaining c → d.live ≤ c.live →
    Shutting p q i c (p.afterStep i a c d)
  | refused {d : Cell V} : d.live ≤ c.live → Shutting p q i c (q.afterStep i .shutdown c d)
  | returned : Shutting p q i c q

theorem endTask_next (panics : Bool) (coherent : Coherent p) (within : (machine V).within p) (drops : p.Drops)
    (found : p.cells[i]? = some c) (owner : c.owner ≠ .popped) :
    ∃ r, p.endTask q i c panics = .next r ∧ Shutting p q i c r := by
  have fits := coherent.fits i c found
  unfold Pool.endTask
  split
  next => exact ⟨q, rfl, .returned⟩
  next runner busy =>
    have unpolled : runner ≠ .polling := by
      rintro rfl
      obtain ⟨phase, dropping⟩ := drops
      have running := fits.polling busy
      simp [dropping] at running
    obtain ⟨a, next⟩ : ∃ a, nextAction panics runner = some a := by
      cases runner <;> first | exact ⟨_, rfl⟩ | exact absurd rfl unpolled
    obtain ⟨d, stepped, proceeds⟩ :=
      nextAction_next fits.sound (within c (List.mem_of_getElem? found)) busy next
    simp only [next, stepTask_next found stepped]
    exact ⟨_, rfl, .step (proceeds_less proceeds owner) proceeds.live⟩

theorem shutdownTask_next (panics : Bool) (coherent : Coherent p) (within : (machine V).within p)
    (drops : p.Drops) (held : p.Holds i) (cells : q.cells = p.cells) :
    ∃ c r, p.cells[i]? = some c ∧ p.shutdownTask q i panics = .next r ∧ Shutting p q i c r := by
  obtain ⟨c, found⟩ : ∃ c, p.cells[i]? = some c := ⟨_, List.getElem?_eq_getElem (coherent.shape.held i held)⟩
  have fits := coherent.fits i c found
  simp only [Pool.shutdownTask, found]
  cases owner : c.owner with
  | popped =>
    obtain ⟨d, shut, shuts⟩ := shutdown_next fits.sound owner
    rcases shuts.runner with ⟨idle, _, cancelling⟩ | ⟨busy, _⟩
    · refine ⟨c, p.afterStep i .shutdown c d, rfl, ?_, .step ?_ shuts.live.le⟩
      · simp only [idle, if_true]
        exact stepTask_next found shut
      · simp [remaining, owner, shuts.owner, cancelling, Runner.remaining]
    · have found' := found
      rw [← cells] at found'
      refine ⟨c, q.afterStep i .shutdown c d, rfl, ?_, .refused shuts.live.le⟩
      simp only [busy, Bool.false_eq_true, if_false]
      exact stepTask_next found' shut
  | listed =>
    obtain ⟨r, next, shutting⟩ :=
      endTask_next (q := q) panics coherent within drops found (by simp [owner])
    exact ⟨c, r, rfl, by simpa only [owner] using next, shutting⟩
  | released =>
    obtain ⟨r, next, shutting⟩ :=
      endTask_next (q := q) panics coherent within drops found (by simp [owner])
    exact ⟨c, r, rfl, by simpa only [owner] using next, shutting⟩

end Steps

section Advancing

theorem afterStep_list_length (a : Action V) :
    (p.afterStep i a c d).owned.list.length ≤ p.owned.list.length := by
  rcases afterStep_list (p := p) (i := i) (c := c) (d := d) a with same | erased
  · rw [same]
  · rw [erased]
    exact List.length_erase_le

theorem afterStep_others (a : Action V) : (p.afterStep i a c d).others ≤ p.others := by
  have shorter := afterStep_list_length (p := p) (i := i) (c := c) (d := d) a
  unfold Pool.others
  rw [afterStep_tasks, afterStep_queue, afterStep_core]
  omega

theorem remainingAt_afterStep (found : p.cells[i]? = some c) (a : Action V) :
    (p.afterStep i a c d).remainingAt i = remaining d := by
  simp [Pool.remainingAt, afterStep_cells, List.getElem?_set_self (List.getElem?_eq_some_iff.mp found).1]

theorem dropNotified_next' (coherent : Coherent p) (within : (machine V).within p) (taken : Taken i p q)
    (stack : p.stack = []) (less : q.others < p.others) :
    ∃ r, q.stepTask i .dropNotified = .next r ∧ (machine V).within r ∧ r.work < p.work ∧ r.core = q.core := by
  have placed : 0 < p.placed i := by
    rw [taken.placed]
    simp
  obtain ⟨c, found⟩ : ∃ c, p.cells[i]? = some c := ⟨_, List.getElem?_eq_getElem (coherent.shape.placed i placed)⟩
  have fits := coherent.fits i c found
  have counted := fits.placed
  obtain ⟨d, dropped⟩ := dropNotified_next fits.sound (by omega)
  have live := (dropNotified_consumes.next dropped).1.live
  rw [← taken.cells] at found
  have within' : (machine V).within q := by
    change ∀ c ∈ q.cells, _
    rw [taken.cells]
    exact within
  refine ⟨_, stepTask_next found dropped, afterStep_within within' found live, ?_, rfl⟩
  have others := afterStep_others (p := q) (i := i) (c := c) (d := d) .dropNotified
  simp only [Pool.work, afterStep_stack, taken.stack, stack, Pool.stackWork]
  omega

theorem popBack_next {owned : OwnedTasks} (coherent : Coherent p) (within : (machine V).within p)
    (stack : p.stack = []) (popped : p.owned.popBack = some (i, owned)) :
    ∃ r, Pool.stepTask { p with owned := owned, stack := [i] } i .popOwned = .next r ∧
      (machine V).within r ∧ r.work < p.work ∧ r.core = p.core := by
  obtain ⟨list, _⟩ := popBack_eq popped
  have listed : i ∈ p.owned.list := by simp [list]
  obtain ⟨c, found⟩ : ∃ c, p.cells[i]? = some c := ⟨_, List.getElem?_eq_getElem (coherent.shape.listed i listed)⟩
  have owner := (coherent.fits i c found).listed.mpr listed
  refine ⟨_, stepTask_next (p := { p with owned := owned, stack := [i] }) found (popOwned_next owner), ?_, ?_, rfl⟩
  · refine afterStep_within (p := { p with owned := owned, stack := [i] }) within found ?_
    simp [Cell.live, owner, Owner.references]
  · have fewer := afterStep_others (p := { p with owned := owned, stack := [i] }) (i := i) (c := c)
      (d := { c with owner := .popped }) .popOwned
    have ten : Pool.others { p with owned := owned, stack := [i] } + 10 = p.others := by
      simp only [Pool.others, list, List.length_append, List.length_singleton]
      omega
    have nine := remainingAt_afterStep (p := { p with owned := owned, stack := [i] })
      (d := { c with owner := .popped }) found .popOwned
    have eight : remaining { c with owner := .popped } = 8 := rfl
    simp only [Pool.work, afterStep_stack, stack, Pool.stackWork, List.length_nil]
    omega

/-- The thread that drops the runtime is never stuck, and each of its steps brings it nearer to the end. -/
theorem advance_next (panics : Bool) (coherent : Coherent p) (within : (machine V).within p)
    (dropping : p.core.isDropping = true) :
    ∃ q, p.advance panics = .next q ∧ (machine V).within q ∧ q.work < p.work ∧
      (q.core.isDropping = true ∨ q.core = .dropping .finished) := by
  have shape := coherent.shape
  unfold Pool.advance
  split
  next task rest stack =>
    have drops : p.Drops := by
      cases core : p.core with
      | dropping phase => exact ⟨phase, core⟩
      | slot | running _ | lost | abandoned => simp [core, CorePlace.isDropping] at dropping
    obtain ⟨c, r, found, next, shutting⟩ := shutdownTask_next (i := task) (q := { p with stack := rest }) panics
      coherent within drops (.inl (by simp [stack])) rfl
    have before : p.work = p.others + (remaining c + 1 + 9 * rest.length) := by
      simp [Pool.work, stack, Pool.stackWork, Pool.remainingAt, found]
    refine ⟨r, next, ?_⟩
    cases shutting with
    | @step a d less live =>
      refine ⟨afterStep_within within found live, ?_, .inl dropping⟩
      have others := afterStep_others (p := p) (i := task) (c := c) (d := d) a
      rw [before, Pool.work, afterStep_stack, stack, Pool.stackWork, remainingAt_afterStep found]
      omega
    | @refused d live =>
      refine ⟨afterStep_within (p := { p with stack := rest }) within found live, ?_, .inl dropping⟩
      have others : _ ≤ p.others :=
        afterStep_others (p := { p with stack := rest }) (i := task) (c := c) (d := d) .shutdown
      have short := Pool.stackWork_le (Pool.afterStep { p with stack := rest } task .shutdown c d) rest
      rw [before, Pool.work, afterStep_stack]
      dsimp only
      omega
    | returned =>
      refine ⟨within, ?_, .inl dropping⟩
      have short := Pool.stackWork_le { p with stack := rest } rest
      rw [before]
      change p.others + Pool.stackWork { p with stack := rest } rest < _
      omega
  next stack =>
    have before : p.work = p.others := by simp [Pool.work, stack, Pool.stackWork]
    split
    next closing =>
      split
      next task owned popped =>
        obtain ⟨r, next, within', less, core⟩ := popBack_next coherent within stack popped
        exact ⟨r, next, within', less, .inl (core ▸ dropping)⟩
      next empty =>
        refine ⟨_, rfl, within, ?_, .inl rfl⟩
        rw [before]
        simp [Pool.work, Pool.others, stack, Pool.stackWork, closing, Phase.work]
    next draining =>
      split
      next task rest tasks =>
        obtain ⟨r, next, within', less, core⟩ :=
          dropNotified_next' coherent within (drainLocal_taken draining tasks) stack (by simp [Pool.others, tasks])
        exact ⟨r, next, within', less, .inl (core ▸ dropping)⟩
      next empty =>
        refine ⟨_, rfl, within, ?_, .inl rfl⟩
        rw [before]
        simp [Pool.work, Pool.others, stack, Pool.stackWork, draining, Phase.work]
        omega
    next task rest draining =>
      obtain ⟨r, next, within', less, core⟩ := dropNotified_next' coherent within (drainRemote_taken coherent draining)
        stack (by simp [Pool.others, draining, Phase.work])
      exact ⟨r, next, within', less, .inl (core ▸ rfl)⟩
    next draining =>
      have drained := shape.drained ⟨_, draining⟩ (by simp [draining])
      simp only [drained, List.isEmpty_nil, if_true]
      refine ⟨_, rfl, within, ?_, .inr rfl⟩
      rw [before]
      simp [Pool.work, Pool.others, stack, Pool.stackWork, draining, Phase.work]
    all_goals simp_all [CorePlace.isDropping]

end Advancing

end Osaka.Shutdown
