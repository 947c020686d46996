import Osaka.Runtime.ShutdownInvariant

set_option autoImplicit false

namespace Osaka.Shutdown

open Transitions Osaka.Task

variable {V : Type} {p q : Pool V} {i j : TaskId} {c d : Cell V}

section Cells

theorem foreign_effect (a : Action V) (foreign : schedules a = false) :
    (c.step a).Leads (Effect (ownerAfter a c.owner) c) := by
  apply step_effect
  · rintro rfl
    simp [schedules] at foreign
  · rintro rfl
    simp [schedules] at foreign
  · rintro rfl
    simp [schedules] at foreign
  · rintro rfl
    simp [schedules] at foreign

theorem stepTask_kept {a : Action V} {P : Pool V → Prop}
    (sound : ∀ c, p.cells[i]? = some c → Sound c) (within : (machine V).within p)
    (each : ∀ c d, p.cells[i]? = some c → c.step a = .next d → Sound d → P (p.afterStep i a c d)) :
    (p.stepTask i a).Kept P := by
  unfold Pool.stepTask
  cases found : p.cells[i]? with
  | none => trivial
  | some c =>
    have kept := step_stepped a (sound c found) (within c (List.mem_of_getElem? found))
    cases stepped : c.step a with
    | next d =>
      simp only [stepped]
      exact each c d found stepped (kept.next stepped).sound
    | disabled =>
      simp only [stepped]
      trivial
    | failed fault => exact absurd stepped (kept.sound fault)

def Ends (c d : Cell V) : Prop :=
  c.runner = some .polling ∨ d.endings = c.endings ∨ ∃ panics, d.endings = c.endings ++ [.cancelled panics]

theorem afterStep_follows {a : Action V} (coherent : Coherent (q.afterStep i a c d)) (cells : q.cells = p.cells)
    (found : q.cells[i]? = some c) (ends : Ends c d) (drops : p.Drops → q.Drops)
    (finished : p.core = .dropping .finished → q.core = .dropping .finished) :
    Follows p (q.afterStep i a c d) := by
  constructor
  · exact coherent
  · exact drops
  · exact finished
  · intro task b present
    rw [← cells]
    rcases afterStep_found present with ⟨rfl, rfl⟩ | ⟨_, present⟩
    · exact .inr ⟨c, found, ends⟩
    · exact .inr ⟨b, present, .inr (.inl rfl)⟩

theorem effect_ends {owner : Owner} (effect : Effect owner c d) : Ends c d := by
  by_cases polling : c.runner = some .polling
  · exact .inl polling
  · exact .inr ((effect.endings polling).imp id And.right)

end Cells

section Tasks

theorem effect_fits {a : Action V} (fits : Fits p 0 i c) (nodup : p.owned.list.Nodup) (sound : Sound d)
    (effect : Effect (ownerAfter a c.owner) c d) : Fits (p.afterStep i a c d) 0 i d := by
  constructor
  · exact sound
  · rw [effect.owner]
    cases a with
    | release =>
      have gone : i ∉ p.owned.list.erase i := fun present => (nodup.not_mem_erase present)
      cases c.owner <;> simpa [ownerAfter, Owner.removed, Pool.afterStep, OwnedTasks.remove] using gone
    | _ => exact fits.listed
  · have before := fits.placed
    rw [afterStep_placed]
    rcases effect.notified with same | more
    · simp [same, before]
    · simp [more, before]
  · intro popped
    rw [effect.owner] at popped
    apply fits.popped
    cases a with
    | release => cases owner : c.owner <;> simp [ownerAfter, owner, Owner.removed] at popped ⊢
    | _ => exact popped
  · exact fun busy => fits.runner (fun idle => busy (effect.idle idle))
  · exact fun polling => fits.polling (effect.polling polling)
  · intro waiting busy
    apply fits.waiting
    · intro released
      apply waiting
      rw [effect.owner, released]
      cases a <;> rfl
    · exact fun idle => busy (effect.idle idle)

theorem task_follows {a : Action V} (coherent : Coherent p) (within : (machine V).within p)
    (foreign : schedules a = false) : (p.stepTask i a).Kept (Follows p) := by
  apply stepTask_kept (fun c found => (coherent.fits i c found).sound) within
  intro c d found stepped sound
  have effect := (foreign_effect a foreign).next stepped
  have fits := coherent.fits i c found
  apply afterStep_follows _ rfl found (effect_ends effect) id id
  apply afterStep_coherent coherent.shape found
  · exact fun task b _ present => coherent.fits task b present
  · exact effect_fits fits coherent.shape.nodup sound effect

end Tasks

section Notifieds

structure Taken (i : TaskId) (p q : Pool V) : Prop where
  cells : q.cells = p.cells
  owned : q.owned = p.owned
  stack : q.stack = p.stack
  elsewhere : q.elsewhere = p.elsewhere
  placed : ∀ task, p.placed task = q.placed task + if task = i then 1 else 0
  drops : q.Drops ↔ p.Drops
  dropping : q.core.isDropping = p.core.isDropping
  drained : q.core ≠ .dropping .closing → p.core ≠ .dropping .closing
  emptied : q.Drops → q.core ≠ .dropping .closing → q.core ≠ .dropping .drainingLocal →
    q.tasks = [] ∧ q.queue = none

theorem Taken.holds (taken : Taken i p q) : q.Holds j ↔ p.Holds j := by
  unfold Pool.Holds
  rw [taken.stack, taken.elsewhere]

theorem Taken.shape (taken : Taken i p q) (shape : Shape p) : Shape q := by
  obtain ⟨nodup, listed, held, placed, apart, closed, stack, late, drained, emptied⟩ := shape
  constructor
  · rwa [taken.owned]
  · rwa [taken.owned, taken.cells]
  · intro task holds
    rw [taken.cells]
    exact held task (taken.holds.mp holds)
  · intro task present
    rw [taken.cells]
    apply placed
    rw [taken.placed]
    omega
  · rwa [taken.elsewhere]
  · rw [taken.owned, taken.drops]
    exact closed
  · rwa [taken.stack, taken.dropping]
  · rwa [taken.elsewhere, taken.drops]
  · intro drops opened
    rw [taken.owned]
    exact drained (taken.drops.mp drops) (taken.drained opened)
  · exact taken.emptied

theorem Taken.fits (taken : Taken i p q) (fits : Fits p 0 i c)
    (current : p.core = .running (some i) → q.core = .running (some i)) : Fits q 1 i c := by
  constructor
  · exact fits.sound
  · rw [taken.owned, fits.listed]
  · rw [fits.placed, taken.placed]
    simp
  · exact fun popped => taken.holds.mpr (fits.popped popped)
  · exact fun busy => (fits.runner busy).imp taken.holds.mpr current
  · exact fun polling => current (fits.polling polling)
  · exact fun waiting busy => current (fits.waiting waiting busy)

theorem Taken.others (taken : Taken i p q) (different : j ≠ i) (fits : Fits p 0 j c)
    (current : p.core = .running (some j) → q.core = .running (some j)) : Fits q 0 j c := by
  apply fits.other _ _ taken.holds.mpr (fun _ => current)
  · rw [taken.owned]
  · rw [taken.placed, if_neg different]
    rfl

theorem dropNotified_follows (coherent : Coherent p) (within : (machine V).within p) (taken : Taken i p q)
    (current : ∀ task, p.core = .running (some task) → q.core = .running (some task))
    (finished : p.core = .dropping .finished → q.core = .dropping .finished) :
    (q.stepTask i .dropNotified).Kept (Follows p) := by
  apply stepTask_kept
  · intro c found
    rw [taken.cells] at found
    exact (coherent.fits i c found).sound
  · change ∀ c ∈ q.cells, _
    rw [taken.cells]
    exact within
  · intro c d found stepped sound
    obtain ⟨⟨owner, notified, endings, _⟩, runner⟩ := dropNotified_consumes.next stepped
    have before := found
    rw [taken.cells] at before
    have fits := taken.fits (coherent.fits i c before) (current i)
    apply afterStep_follows _ taken.cells found (.inr (.inl endings)) taken.drops.mpr finished
    apply afterStep_coherent (taken.shape coherent.shape) found
    · intro task b different present
      rw [taken.cells] at present
      exact taken.others different (coherent.fits task b present) (current task)
    · constructor
      · exact sound
      · rw [owner]
        exact fits.listed
      · have counted := fits.placed
        rw [afterStep_placed, if_neg (by omega)]
        omega
      · rw [owner]
        exact fits.popped
      · rw [runner]
        exact fits.runner
      · rw [runner]
        exact fits.polling
      · rw [owner, runner]
        exact fits.waiting

theorem runNotified_follows (coherent : Coherent p) (within : (machine V).within p) (taken : Taken i p q)
    (free : p.core = .running none) (current : q.core = .running (some i)) :
    (q.stepTask i .runNotified).Kept (Follows p) := by
  apply stepTask_kept
  · intro c found
    rw [taken.cells] at found
    exact (coherent.fits i c found).sound
  · change ∀ c ∈ q.cells, _
    rw [taken.cells]
    exact within
  · intro c d found stepped sound
    obtain ⟨owner, notified, endings⟩ := runNotified_consumes.next stepped
    have before := found
    rw [taken.cells] at before
    have fits := taken.fits (coherent.fits i c before) (fun _ => current)
    apply afterStep_follows _ taken.cells found (.inr (.inl endings)) taken.drops.mpr
    · simp [free]
    · apply afterStep_coherent (taken.shape coherent.shape) found
      · intro task b different present
        rw [taken.cells] at present
        exact taken.others different (coherent.fits task b present) (by simp [free])
      · constructor
        · exact sound
        · rw [owner]
          exact fits.listed
        · have counted := fits.placed
          rw [afterStep_placed, if_neg (by omega)]
          omega
        · rw [owner]
          exact fits.popped
        · exact fun _ => .inr current
        · exact fun _ => current
        · exact fun _ _ => current

end Notifieds

section Moves

structure Moved (p q : Pool V) : Prop where
  cells : q.cells = p.cells
  list : q.owned.list = p.owned.list
  stack : q.stack = p.stack
  elsewhere : q.elsewhere = p.elsewhere
  placed : ∀ task, q.placed task = p.placed task
  current : ∀ (task : TaskId) (c : Cell V), p.cells[task]? = some c → c.runner ≠ none →
    p.core = .running (some task) → q.core = .running (some task)
  closed : q.owned.closed = true ↔ q.Drops
  drops : p.Drops → q.Drops
  dropping : p.stack ≠ [] → q.core.isDropping = true
  drained : q.Drops → q.core ≠ .dropping .closing → p.owned.list = []
  emptied : q.Drops → q.core ≠ .dropping .closing → q.core ≠ .dropping .drainingLocal →
    q.tasks = [] ∧ q.queue = none
  finished : p.core = .dropping .finished → q.core = .dropping .finished

theorem Moved.kept (moved : Moved p q) (coherent : Coherent p) :
    (Outcome.next q : Outcome (Pool V) Fault).Kept (Follows p) := by
  obtain ⟨cells, list, stack, elsewhere, placed, current, closed, drops, dropping, drained, emptied, finished⟩ :=
    moved
  have holds (task : TaskId) : q.Holds task ↔ p.Holds task := by
    unfold Pool.Holds
    rw [stack, elsewhere]
  have shape := coherent.shape
  constructor
  · constructor
    · constructor
      · rw [list]
        exact shape.nodup
      · rw [list, cells]
        exact shape.listed
      · intro task held
        rw [cells]
        exact shape.held task ((holds task).mp held)
      · intro task present
        rw [placed] at present
        rw [cells]
        exact shape.placed task present
      · rw [elsewhere]
        exact shape.apart
      · exact closed
      · rw [stack]
        exact dropping
      · rw [elsewhere]
        exact fun late => drops (shape.late late)
      · rw [list]
        exact drained
      · exact emptied
    · intro task c found
      rw [cells] at found
      apply (coherent.fits task c found).other
      · rw [list]
      · exact placed task
      · exact (holds task).mpr
      · exact current task c found
  · exact drops
  · exact finished
  · intro task d found
    rw [cells] at found
    exact .inr ⟨d, found, .inr (.inl rfl)⟩

theorem count_erase_add {tasks : List TaskId} (present : i ∈ tasks) (task : TaskId) :
    tasks.count task = (tasks.erase i).count task + if task = i then 1 else 0 := by
  have counted := List.count_pos_iff.mpr present
  by_cases same : task = i
  · rw [same, List.count_erase_self, if_pos rfl]
    omega
  · rw [List.count_erase_of_ne same, if_neg same]
    rfl

theorem count_cons_add (task : TaskId) (rest : List TaskId) (other : TaskId) :
    (task :: rest).count other = rest.count other + if other = task then 1 else 0 := by
  rw [List.count_cons]
  by_cases same : other = task
  · simp [same]
  · simp [same, Ne.symm same]

theorem schedule_follows (inside : Bool) (coherent : Coherent p) (within : (machine V).within p) :
    (p.schedule i inside).Kept (Follows p) := by
  have shape := coherent.shape
  unfold Pool.schedule
  split
  next present =>
    have counted := count_erase_add present
    have taken : Taken i p { p with submitted := p.submitted.erase i } := by
      constructor
      case placed =>
        intro task
        have submitted := counted task
        simp only [Pool.placed]
        omega
      case emptied => exact shape.emptied
      all_goals first | rfl | exact Iff.rfl | exact id
    have dropped : (Pool.stepTask { p with submitted := p.submitted.erase i } i .dropNotified).Kept (Follows p) :=
      dropNotified_follows coherent within taken (fun _ => id) id
    cases inside with
    | true =>
      simp only [if_true]
      split
      next current running =>
        have idle : ¬p.Drops := by simp [Pool.Drops, running]
        apply Moved.kept _ coherent
        constructor
        case placed =>
          intro task
          have submitted := counted task
          by_cases same : task = i
          · simp [Pool.placed, same] at submitted ⊢
            omega
          · simp [Pool.placed, same, Ne.symm same] at submitted ⊢
        case current => exact fun _ _ _ _ => id
        case closed => exact shape.closed
        case dropping => exact shape.stack
        case drained => exact fun drops => absurd drops idle
        case emptied => exact fun drops => absurd drops idle
        all_goals first | rfl | exact id
      next =>
        split
        next => exact dropped
        next => trivial
      all_goals trivial
    | false =>
      simp only [Bool.false_eq_true, if_false]
      split
      next queue filled =>
        apply Moved.kept _ coherent
        constructor
        case placed =>
          intro task
          have submitted := counted task
          by_cases same : task = i
          · simp [Pool.placed, filled, same] at submitted ⊢
            omega
          · simp [Pool.placed, filled, same, Ne.symm same] at submitted ⊢
        case current => exact fun _ _ _ _ => id
        case closed => exact shape.closed
        case dropping => exact shape.stack
        case drained => exact shape.drained
        case emptied =>
          intro drops opened further
          simp [(shape.emptied drops opened further).2] at filled
        all_goals first | rfl | exact id
      next => exact dropped
  next => trivial

theorem place_follows {place : CorePlace} (coherent : Coherent p) (idle : ¬p.Drops)
    (outside : ∀ phase, place ≠ .dropping phase)
    (current : ∀ (task : TaskId) (c : Cell V), p.cells[task]? = some c → c.runner ≠ none →
      p.core = .running (some task) → place = .running (some task)) :
    (Outcome.next { p with core := place } : Outcome (Pool V) Fault).Kept (Follows p) := by
  have shape := coherent.shape
  have after : ¬Pool.Drops { p with core := place } := by
    rintro ⟨phase, at'⟩
    exact outside phase at'
  have unqueued {core : CorePlace} (out : ∀ phase, core ≠ .dropping phase) : core.rest = [] := by
    cases core with
    | dropping phase => exact absurd rfl (out phase)
    | slot | running _ | lost | abandoned => rfl
  apply Moved.kept _ coherent
  constructor
  case placed =>
    intro task
    simp [Pool.placed, unqueued outside, unqueued (fun phase at' => idle ⟨phase, at'⟩)]
  case current => exact current
  case closed =>
    have shut := shape.closed
    simp only [idle, after, iff_false] at shut ⊢
    exact shut
  case drops => exact fun drops => absurd drops idle
  case dropping =>
    intro stacked
    have dropping := shape.stack stacked
    cases core : p.core with
    | dropping phase => exact absurd ⟨phase, core⟩ idle
    | slot | running _ | lost | abandoned => simp [core, CorePlace.isDropping] at dropping
  case drained => exact fun drops => absurd drops after
  case emptied => exact fun drops => absurd drops after
  case finished => exact fun finished => absurd ⟨_, finished⟩ idle
  all_goals rfl

theorem enter_follows (coherent : Coherent p) : p.enter.Kept (Follows p) := by
  unfold Pool.enter
  split
  next slot => apply place_follows coherent <;> simp [Pool.Drops, slot]
  next => trivial

theorem leave_follows (coherent : Coherent p) : p.leave.Kept (Follows p) := by
  unfold Pool.leave
  split
  next free => apply place_follows coherent <;> simp [Pool.Drops, free]
  next => trivial

theorem lose_follows (coherent : Coherent p) : p.lose.Kept (Follows p) := by
  unfold Pool.lose
  split
  next free => apply place_follows coherent <;> simp [Pool.Drops, free]
  next => trivial

theorem endRun_follows (coherent : Coherent p) : p.endRun.Kept (Follows p) := by
  unfold Pool.endRun
  split
  next running task current =>
    split
    next c found =>
      split
      next ended =>
        apply place_follows coherent
        · simp [Pool.Drops, current]
        · simp
        · intro other b present busy same
          obtain rfl : task = other := by simpa [current] using same
          obtain rfl : c = b := Option.some.inj (found.symm.trans present)
          simp [Option.isNone_iff_eq_none.mp ended] at busy
      next => trivial
    next => trivial
  next => trivial

theorem runTask_follows (remote : Bool) (coherent : Coherent p) (within : (machine V).within p) :
    (p.runTask remote).Kept (Follows p) := by
  unfold Pool.runTask
  split
  next free =>
    cases remote with
    | true =>
      simp only [if_true]
      split
      next task rest queue =>
        apply runNotified_follows coherent within _ free rfl
        constructor
        case placed =>
          intro other
          simp only [Pool.placed, queue, free, CorePlace.rest, Option.getD_some, count_cons_add task rest]
          omega
        all_goals first | rfl | simp [Pool.Drops, free, CorePlace.isDropping]
      next => trivial
    | false =>
      simp only [Bool.false_eq_true, if_false]
      split
      next task rest tasks =>
        apply runNotified_follows coherent within _ free rfl
        constructor
        case placed =>
          intro other
          simp only [Pool.placed, tasks, free, CorePlace.rest, count_cons_add task rest]
          omega
        all_goals first | rfl | simp [Pool.Drops, free, CorePlace.isDropping]
      next => trivial
  next => trivial

end Moves

section Dropping

theorem dropLost_follows (coherent : Coherent p) (within : (machine V).within p) : p.dropLost.Kept (Follows p) := by
  unfold Pool.dropLost
  split
  next task rest lost tasks =>
    refine dropNotified_follows coherent within ?_ (fun _ => id) id
    constructor
    case placed =>
      intro other
      simp only [Pool.placed, tasks, count_cons_add task rest]
      omega
    all_goals first | rfl | exact id | exact Iff.rfl | simp [Pool.Drops, lost]
  next task rest abandoned tasks =>
    refine dropNotified_follows coherent within ?_ (fun _ => id) id
    constructor
    case placed =>
      intro other
      simp only [Pool.placed, tasks, count_cons_add task rest]
      omega
    all_goals first | rfl | exact id | exact Iff.rfl | simp [Pool.Drops, abandoned]
  next => trivial

theorem drop_follows {panicking : Bool} (coherent : Coherent p) (present : p.core = .lost → panicking = true) :
    (p.drop panicking).Kept (Follows p) := by
  unfold Pool.drop
  split
  next slot =>
    apply Moved.kept _ coherent
    constructor
    case placed => simp [Pool.placed, slot, CorePlace.rest]
    case current => simp [slot]
    all_goals first | rfl | simp [Pool.Drops, slot, CorePlace.isDropping]
  next lost =>
    simp only [present lost, if_true]
    apply place_follows coherent <;> simp [Pool.Drops, lost]
  all_goals trivial

structure Returned (i : TaskId) (p q : Pool V) : Prop where
  cells : q.cells = p.cells
  owned : q.owned = p.owned
  core : q.core = p.core
  tasks : q.tasks = p.tasks
  queue : q.queue = p.queue
  submitted : q.submitted = p.submitted
  stack : q.stack.Sublist p.stack
  elsewhere : q.elsewhere.Sublist p.elsewhere
  others : ∀ task, task ≠ i → p.Holds task → q.Holds task

theorem Returned.drops (returned : Returned i p q) : q.Drops ↔ p.Drops := by
  unfold Pool.Drops
  rw [returned.core]

theorem Returned.placed (returned : Returned i p q) : q.placed j = p.placed j := by
  unfold Pool.placed
  rw [returned.submitted, returned.tasks, returned.queue, returned.core]

theorem Returned.shape (returned : Returned i p q) (shape : Shape p) : Shape q := by
  constructor
  · rw [returned.owned]
    exact shape.nodup
  · rw [returned.owned, returned.cells]
    exact shape.listed
  · rw [returned.cells]
    rintro task (held | held)
    · exact shape.held task (.inl (returned.stack.subset held))
    · exact shape.held task (.inr (returned.elsewhere.subset held))
  · intro task present
    rw [returned.placed] at present
    rw [returned.cells]
    exact shape.placed task present
  · exact shape.apart.sublist returned.elsewhere
  · rw [returned.owned, returned.drops]
    exact shape.closed
  · intro stacked
    rw [returned.core]
    apply shape.stack
    intro empty
    exact stacked (List.sublist_nil.mp (empty ▸ returned.stack))
  · intro late
    rw [returned.drops]
    apply shape.late
    intro empty
    exact late (List.sublist_nil.mp (empty ▸ returned.elsewhere))
  · rw [returned.drops, returned.core, returned.owned]
    exact shape.drained
  · rw [returned.drops, returned.core, returned.tasks, returned.queue]
    exact shape.emptied

theorem Returned.other (returned : Returned i p q) (different : j ≠ i) (fits : Fits p 0 j c) : Fits q 0 j c := by
  apply fits.other
  · rw [returned.owned]
  · exact returned.placed
  · exact returned.others j different
  · rw [returned.core]
    exact fun _ => id

theorem Returned.fits {loose : Nat} (returned : Returned i p q) (fits : Fits p loose i c) (owner : c.owner ≠ .popped)
    (away : c.runner = none) : Fits q loose i c := by
  constructor
  · exact fits.sound
  · rw [returned.owned]
    exact fits.listed
  · rw [returned.placed]
    exact fits.placed
  · exact fun popped => absurd popped owner
  · exact fun busy => absurd away busy
  · simp [away]
  · exact fun _ busy => absurd away busy

theorem Fits.unstarted {loose : Nat} (fits : Fits p loose i c) (drops : p.Drops) (owner : c.owner ≠ .released) :
    c.runner = none := by
  by_contra busy
  obtain ⟨phase, dropping⟩ := drops
  have running := fits.waiting owner busy
  simp [dropping] at running

theorem shut_fits (fits : Fits p 0 i c) (popped : c.owner = .popped) (sound : Sound d) (shuts : Shuts c d)
    (owned : q.owned = p.owned) (placed : q.placed i = p.placed i) (held : d.runner ≠ none → q.Holds i)
    (away : d.runner ≠ some .polling) : Fits (q.afterStep i .shutdown c d) 0 i d := by
  have owner := shuts.owner
  constructor
  · exact sound
  · have unlisted := fits.listed
    rw [afterStep_owned rfl, owned]
    simpa [owner, popped] using unlisted
  · rw [afterStep_placed, shuts.notified, fits.placed, placed]
    simp
  · simp [owner]
  · exact fun busy => .inl (held busy)
  · exact fun polling => absurd polling away
  · exact fun waiting => absurd owner waiting

theorem endTask_follows (panics : Bool) (coherent : Coherent p) (within : (machine V).within p)
    (found : p.cells[i]? = some c) (owner : c.owner ≠ .popped) (returned : Returned i p q) :
    (p.endTask q i c panics).Kept (Follows p) := by
  unfold Pool.endTask
  split
  next away =>
    constructor
    · constructor
      · exact returned.shape coherent.shape
      · intro task b present
        rw [returned.cells] at present
        by_cases same : task = i
        · subst same
          obtain rfl : c = b := Option.some.inj (found.symm.trans present)
          exact returned.fits (coherent.fits task c found) owner away
        · exact returned.other same (coherent.fits task b present)
    · exact returned.drops.mpr
    · rw [returned.core]
      exact id
    · intro task b present
      rw [returned.cells] at present
      exact .inr ⟨b, present, .inr (.inl rfl)⟩
  next runner _ =>
    split
    next a next =>
      apply task_follows coherent within
      cases runner <;> simp [nextAction] at next <;> rw [← next] <;> rfl
    next => trivial

theorem shutdownTask_follows (panics : Bool) (coherent : Coherent p) (within : (machine V).within p)
    (drops : p.Drops) (held : p.Holds i) (returned : Returned i p q) :
    (p.shutdownTask q i panics).Kept (Follows p) := by
  have shape := coherent.shape
  have others (task : TaskId) (b : Cell V) (different : task ≠ i) (present : q.cells[task]? = some b) :
      Fits q 0 task b := by
    rw [returned.cells] at present
    exact returned.other different (coherent.fits task b present)
  unfold Pool.shutdownTask
  split
  next => trivial
  next c found =>
    have fits := coherent.fits i c found
    split
    next popped =>
      have away := fits.unstarted drops (by simp [popped])
      obtain ⟨d, shut, shuts⟩ := shutdown_next fits.sound popped
      rcases shuts.runner with ⟨idle, _, cancelling⟩ | ⟨busy, same⟩
      · simp only [idle, if_true]
        apply stepTask_kept (fun c found => (coherent.fits i c found).sound) within
        intro b e present stepped sound
        obtain rfl : c = b := Option.some.inj (found.symm.trans present)
        obtain rfl : d = e := Outcome.next.inj (shut.symm.trans stepped)
        apply afterStep_follows _ rfl found (.inr (.inl shuts.endings)) id id
        apply afterStep_coherent shape found (fun task b _ present => coherent.fits task b present)
        exact shut_fits fits popped sound shuts rfl rfl (fun _ => held) (by simp [cancelling])
      · simp only [busy, Bool.false_eq_true, if_false]
        rw [away] at same
        have found' := found
        rw [← returned.cells] at found'
        apply stepTask_kept
        · intro b present
          rw [returned.cells] at present
          exact (coherent.fits i b present).sound
        · change ∀ c ∈ q.cells, _
          rw [returned.cells]
          exact within
        · intro b e present stepped sound
          obtain rfl : c = b := Option.some.inj (found'.symm.trans present)
          obtain rfl : d = e := Outcome.next.inj (shut.symm.trans stepped)
          apply afterStep_follows _ returned.cells found' (.inr (.inl shuts.endings)) returned.drops.mpr
          · rw [returned.core]
            exact id
          · apply afterStep_coherent (returned.shape shape) found' others
            exact shut_fits fits popped sound shuts returned.owned returned.placed (fun busy => absurd same busy)
              (by simp [same])
    next listed => exact endTask_follows panics coherent within found (by simp [listed]) returned
    next released => exact endTask_follows panics coherent within found (by simp [released]) returned

theorem shutdownElsewhere_follows (panics : Bool) (coherent : Coherent p) (within : (machine V).within p) :
    (p.shutdownElsewhere i panics).Kept (Follows p) := by
  unfold Pool.shutdownElsewhere
  split
  next present =>
    have late : p.elsewhere ≠ [] := List.ne_nil_of_mem present
    apply shutdownTask_follows panics coherent within (coherent.shape.late late) (.inr present)
    constructor
    case stack => exact List.Sublist.refl _
    case elsewhere => exact List.erase_sublist
    case others =>
      rintro task different (held | held)
      · exact .inl held
      · exact .inr ((List.mem_erase_of_ne different).mpr held)
    all_goals rfl
  next => trivial

theorem popBack_eq {owned : OwnedTasks} (popped : p.owned.popBack = some (i, owned)) :
    p.owned.list = owned.list ++ [i] ∧ owned.closed = p.owned.closed := by
  unfold OwnedTasks.popBack at popped
  split at popped
  next task last =>
    obtain ⟨rest, list⟩ := List.getLast?_eq_some_iff.mp last
    obtain ⟨rfl, rfl⟩ := Prod.mk.inj (Option.some.inj popped)
    simp [list]
  next => simp at popped

theorem popBack_none (empty : p.owned.popBack = none) : p.owned.list = [] := by
  unfold OwnedTasks.popBack at empty
  split at empty
  next => simp at empty
  next last => exact List.getLast?_eq_none_iff.mp last

theorem popBack_follows {owned : OwnedTasks} (coherent : Coherent p) (within : (machine V).within p)
    (closing : p.core = .dropping .closing) (stack : p.stack = []) (popped : p.owned.popBack = some (i, owned)) :
    (Pool.stepTask { p with owned := owned, stack := [i] } i .popOwned).Kept (Follows p) := by
  have shape := coherent.shape
  have drops : p.Drops := ⟨_, closing⟩
  obtain ⟨list, closed⟩ := popBack_eq popped
  have nodup := shape.nodup
  rw [list, List.nodup_append] at nodup
  obtain ⟨nodup, _, apart⟩ := nodup
  have known : i < p.cells.length := shape.listed i (by simp [list])
  apply stepTask_kept (p := { p with owned := owned, stack := [i] })
    (fun c found => (coherent.fits i c found).sound) within
  intro c d found stepped sound
  have fits := coherent.fits i c found
  have listed : c.owner = .listed := fits.listed.mpr (by simp [list])
  have away := fits.unstarted drops (by simp [listed])
  obtain rfl : { c with owner := .popped } = d := Outcome.next.inj ((popOwned_next listed).symm.trans stepped)
  refine afterStep_follows ?_ rfl found (.inr (.inl rfl)) id id
  refine afterStep_coherent ?_ found ?_ ?_
  case refine_2 =>
    intro task b different present
    apply (coherent.fits task b present).other
    · simp [list, different]
    · rfl
    · rintro (held | held)
      · simp [stack] at held
      · exact .inr held
    · exact fun _ => id
  case refine_3 =>
    constructor
    · exact sound
    · have gone : i ∉ owned.list := fun present => apart i present i (by simp) rfl
      simpa [afterStep_owned (a := Action.popOwned) rfl] using gone
    · rw [afterStep_placed, if_neg (by simp)]
      exact fits.placed
    · exact fun _ => .inl (List.mem_singleton_self i)
    · exact fun busy => absurd away busy
    · simp [away]
    · exact fun _ busy => absurd away busy
  case refine_1 =>
    constructor
    · exact nodup
    · exact fun task present => shape.listed task (by simp [list, present])
    · rintro task (held | held)
      · exact List.mem_singleton.mp held ▸ known
      · exact shape.held task (.inr held)
    · exact shape.placed
    · exact shape.apart
    · change owned.closed = true ↔ p.Drops
      rw [closed]
      exact shape.closed
    · simp [closing, CorePlace.isDropping]
    · exact shape.late
    · exact fun _ opened => absurd closing opened
    · exact fun _ opened => absurd closing opened

theorem drainLocal_taken {rest : List TaskId} (draining : p.core = .dropping .drainingLocal)
    (tasks : p.tasks = i :: rest) : Taken i p { p with tasks := rest } := by
  constructor
  case placed =>
    intro other
    simp only [Pool.placed, tasks, count_cons_add i rest]
    omega
  all_goals first | rfl | exact id | exact Iff.rfl | simp [draining]

theorem drainRemote_taken {rest : List TaskId} (coherent : Coherent p)
    (draining : p.core = .dropping (.drainingRemote (i :: rest))) :
    Taken i p { p with core := .dropping (.drainingRemote rest) } := by
  constructor
  case placed =>
    intro other
    simp only [Pool.placed, draining, CorePlace.rest, count_cons_add i rest]
    omega
  case emptied =>
    exact fun _ _ _ => coherent.shape.emptied ⟨_, draining⟩ (by simp [draining]) (by simp [draining])
  all_goals first | rfl | simp [Pool.Drops, draining, CorePlace.isDropping]

theorem advance_follows (panics : Bool) (coherent : Coherent p) (within : (machine V).within p) :
    (p.advance panics).Kept (Follows p) := by
  have shape := coherent.shape
  unfold Pool.advance
  split
  next task rest stack =>
    have dropping := shape.stack (by simp [stack])
    have drops : p.Drops := by
      cases core : p.core with
      | dropping phase => exact ⟨phase, core⟩
      | slot | running _ | lost | abandoned => simp [core, CorePlace.isDropping] at dropping
    apply shutdownTask_follows panics coherent within drops (.inl (by simp [stack]))
    constructor
    case stack =>
      rw [stack]
      exact List.sublist_cons_self task rest
    case elsewhere => exact List.Sublist.refl _
    case others =>
      rintro other different (held | held)
      · rw [stack, List.mem_cons] at held
        exact .inl (held.resolve_left different)
      · exact .inr held
    all_goals rfl
  next stack =>
    split
    next closing =>
      split
      next task owned popped => exact popBack_follows coherent within closing stack popped
      next empty =>
        have none := popBack_none empty
        apply Moved.kept _ coherent
        constructor
        case placed => simp [Pool.placed, closing, CorePlace.rest]
        case current => simp [closing]
        case closed => simpa [Pool.Drops, closing] using shape.closed
        case drained => exact fun _ _ => none
        all_goals first | rfl | simp [Pool.Drops, closing, CorePlace.isDropping]
    next draining =>
      split
      next task rest tasks =>
        exact dropNotified_follows coherent within (drainLocal_taken draining tasks) (fun _ => id) id
      next empty =>
        apply Moved.kept _ coherent
        constructor
        case placed => simp [Pool.placed, draining, CorePlace.rest]
        case current => simp [draining]
        case closed => simpa [Pool.Drops, draining] using shape.closed
        case drained => exact fun _ _ => shape.drained ⟨_, draining⟩ (by simp [draining])
        all_goals first | rfl | simp [Pool.Drops, draining, CorePlace.isDropping, empty]
    next task rest draining =>
      apply dropNotified_follows coherent within (drainRemote_taken coherent draining) <;> simp [draining]
    next draining =>
      have drained := shape.drained ⟨_, draining⟩ (by simp [draining])
      simp only [drained, List.isEmpty_nil, if_true]
      apply Moved.kept _ coherent
      constructor
      case placed => simp [Pool.placed, draining, CorePlace.rest]
      case current => simp [draining]
      case closed => simpa [Pool.Drops, draining] using shape.closed
      case dropping => exact fun stacked => absurd stack stacked
      case drained => exact fun _ _ => drained
      case emptied => exact fun _ _ _ => shape.emptied ⟨_, draining⟩ (by simp [draining]) (by simp [draining])
      all_goals first | rfl | simp [Pool.Drops, draining]
    all_goals trivial

end Dropping

section Spawning

theorem appended_found {b : Cell V} {cells : List (Cell V)} (found : (cells ++ [c])[j]? = some b) :
    j = cells.length ∧ b = c ∨ j ≠ cells.length ∧ cells[j]? = some b := by
  rw [List.getElem?_append] at found
  split at found
  next before => exact .inr ⟨Nat.ne_of_lt before, found⟩
  next past =>
    rw [List.getElem?_singleton] at found
    split at found
    next first =>
      have last : j = cells.length := Nat.le_antisymm (Nat.sub_eq_zero_iff_le.mp first) (Nat.not_lt.mp past)
      exact .inl ⟨last, (Option.some.inj found).symm⟩
    next => simp at found

theorem Shape.unknown (shape : Shape p) :
    p.cells.length ∉ p.owned.list ∧ ¬p.Holds p.cells.length ∧ p.placed p.cells.length = 0 := by
  refine ⟨fun listed => lt_irrefl _ (shape.listed _ listed), fun held => lt_irrefl _ (shape.held _ held), ?_⟩
  by_contra placed
  exact lt_irrefl _ (shape.placed _ (Nat.pos_of_ne_zero placed))

theorem bound_follows (coherent : Coherent p) (opened : p.owned.closed = false) :
    (Outcome.next
      { p with
        cells := p.cells ++ [Cell.spawn false]
        owned := p.owned.bind p.cells.length
        submitted := p.cells.length :: p.submitted } : Outcome (Pool V) Fault).Kept (Follows p) := by
  have shape := coherent.shape
  obtain ⟨unlisted, unheld, unplaced⟩ := shape.unknown
  have idle : ¬p.Drops := by simp [← shape.closed, opened]
  have bound : p.owned.bind p.cells.length = { p.owned with list := p.cells.length :: p.owned.list } := by
    simp [OwnedTasks.bind, opened]
  rw [bound]
  constructor
  · constructor
    · constructor
      · exact List.nodup_cons.mpr ⟨unlisted, shape.nodup⟩
      · intro task listed
        rw [List.length_append, List.length_singleton]
        rcases List.mem_cons.mp listed with rfl | listed
        · exact Nat.lt_succ_self _
        · exact Nat.lt_succ_of_lt (shape.listed task listed)
      · intro task held
        rw [List.length_append, List.length_singleton]
        exact Nat.lt_succ_of_lt (shape.held task held)
      · intro task present
        rw [List.length_append, List.length_singleton]
        by_cases new : task = p.cells.length
        · exact new ▸ Nat.lt_succ_self _
        · apply Nat.lt_succ_of_lt
          apply shape.placed
          simpa [Pool.placed, List.count_cons_of_ne (Ne.symm new)] using present
      · exact shape.apart
      · exact shape.closed
      · exact shape.stack
      · exact shape.late
      · exact fun drops => absurd drops idle
      · exact fun drops => absurd drops idle
    · intro task b found
      rcases appended_found found with ⟨rfl, rfl⟩ | ⟨old, found⟩
      · constructor
        · exact spawn_sound false
        · simp [Cell.spawn]
        · change 1 = _
          have counted := unplaced
          simp only [Pool.placed, List.count_cons_self] at counted ⊢
          omega
        · simp [Cell.spawn]
        · simp [Cell.spawn]
        · simp [Cell.spawn]
        · simp [Cell.spawn]
      · apply (coherent.fits task b found).other
        · simp [old]
        · simp [Pool.placed, List.count_cons_of_ne (Ne.symm old)]
        · exact id
        · exact fun _ => id
  · exact fun drops => absurd drops idle
  · exact id
  · intro task b found
    rcases appended_found found with ⟨rfl, rfl⟩ | ⟨old, found⟩
    · exact .inl ⟨by simp, rfl⟩
    · exact .inr ⟨b, found, .inr (.inl rfl)⟩

theorem late_follows (coherent : Coherent p) (within : (machine V).within p) (drops : p.Drops)
    (cells : q.cells = p.cells ++ [Cell.spawn true]) (owned : q.owned = p.owned) (core : q.core = p.core)
    (placed : ∀ task, q.placed task = p.placed task) (tasks : q.tasks = p.tasks) (queue : q.queue = p.queue)
    (holds : ∀ task, q.Holds task ↔ task = p.cells.length ∨ p.Holds task) (apart : q.elsewhere.Nodup)
    (stack : q.stack ≠ [] → q.core.isDropping = true) :
    (q.stepTask p.cells.length .dropNotified).Kept (Follows p) := by
  have shape := coherent.shape
  obtain ⟨unlisted, unheld, unplaced⟩ := shape.unknown
  have drops' : q.Drops ↔ p.Drops := by
    unfold Pool.Drops
    rw [core]
  have length : q.cells.length = p.cells.length + 1 := by simp [cells]
  have new : q.cells[p.cells.length]? = some (Cell.spawn true) := by simp [cells]
  apply stepTask_kept
  · intro c found
    obtain rfl : Cell.spawn true = c := Option.some.inj (new.symm.trans found)
    exact spawn_sound true
  · intro c present
    rw [cells, List.mem_append, List.mem_singleton] at present
    rcases present with present | rfl
    · exact within c present
    · change 3 < 2 ^ 56
      decide
  · intro c d found stepped sound
    obtain rfl : Cell.spawn true = c := Option.some.inj (new.symm.trans found)
    obtain ⟨⟨owner, notified, endings, _⟩, runner⟩ := dropNotified_consumes.next stepped
    have held : q.Holds p.cells.length := (holds _).mpr (.inl rfl)
    constructor
    · apply afterStep_coherent _ found
      · intro task b different present
        rw [cells] at present
        rcases appended_found present with ⟨rfl, _⟩ | ⟨_, present⟩
        · exact absurd rfl different
        · apply (coherent.fits task b present).other
          · rw [owned]
          · exact placed task
          · exact fun held => (holds task).mpr (.inr held)
          · rw [core]
            exact fun _ => id
      · constructor
        · exact sound
        · rw [afterStep_owned rfl, owner, owned]
          simp [Cell.spawn, unlisted]
        · have one : (Cell.spawn true : Cell V).notified = 1 := rfl
          rw [afterStep_placed, if_neg (by omega), placed, unplaced]
          omega
        · exact fun _ => held
        · exact fun _ => .inl held
        · rw [runner]
          simp [Cell.spawn]
        · rw [runner]
          simp [Cell.spawn]
      · constructor
        · rw [owned]
          exact shape.nodup
        · intro task listed
          rw [owned] at listed
          rw [length]
          exact Nat.lt_succ_of_lt (shape.listed task listed)
        · intro task held
          rw [length]
          rcases (holds task).mp held with rfl | held
          · exact Nat.lt_succ_self _
          · exact Nat.lt_succ_of_lt (shape.held task held)
        · intro task present
          rw [placed] at present
          rw [length]
          exact Nat.lt_succ_of_lt (shape.placed task present)
        · exact apart
        · rw [owned, drops']
          exact shape.closed
        · exact stack
        · exact fun _ => drops'.mpr drops
        · rw [owned, core, drops']
          exact shape.drained
        · rw [core, tasks, queue, drops']
          exact shape.emptied
    · exact drops'.mpr
    · exact core.trans
    · intro task b present
      rcases afterStep_found present with ⟨rfl, rfl⟩ | ⟨different, present⟩
      · exact .inl ⟨by simp, endings⟩
      · rw [cells] at present
        rcases appended_found present with ⟨rfl, _⟩ | ⟨_, present⟩
        · exact absurd rfl different
        · exact .inr ⟨b, present, .inr (.inl rfl)⟩

theorem spawn_follows (here : Bool) (coherent : Coherent p) (within : (machine V).within p) :
    (p.spawn here).Kept (Follows p) := by
  have shape := coherent.shape
  obtain ⟨_, unheld, _⟩ := shape.unknown
  unfold Pool.spawn
  dsimp only
  split
  next => trivial
  next allowed =>
    split
    next closed =>
      have drops := shape.closed.mp closed
      cases here with
      | true =>
        have dropping : p.core.isDropping = true := by simpa using allowed
        apply late_follows coherent within drops
        case holds =>
          intro task
          simp [Pool.Holds, or_assoc]
        case apart => exact shape.apart
        case stack => exact fun _ => dropping
        all_goals intros; rfl
      | false =>
        apply late_follows coherent within drops
        case holds =>
          intro task
          simp [Pool.Holds]
          tauto
        case apart => exact List.nodup_cons.mpr ⟨fun late => unheld (.inr late), shape.apart⟩
        case stack => exact shape.stack
        all_goals intros; rfl
    next opened =>
      apply bound_follows coherent
      simpa using opened

end Spawning

/-- A step fails only when the runtime is dropped without its core. -/
theorem step_follows (a : Act V) (coherent : Coherent p) (within : (machine V).within p)
    (present : p.core = .lost → ∀ panicking, a = .drop panicking → panicking = true) :
    (p.step a).Kept (Follows p) := by
  cases a with
  | spawn here => exact spawn_follows here coherent within
  | schedule task inside => exact schedule_follows inside coherent within
  | task task a =>
    unfold Pool.step
    dsimp only
    split
    next => trivial
    next allowed =>
      apply task_follows coherent within
      cases scheduled : schedules a with
      | false => rfl
      | true => simp [scheduled] at allowed
  | enter => exact enter_follows coherent
  | leave => exact leave_follows coherent
  | lose => exact lose_follows coherent
  | dropLost => exact dropLost_follows coherent within
  | runTask remote => exact runTask_follows remote coherent within
  | endRun => exact endRun_follows coherent
  | drop panicking => exact drop_follows coherent fun lost => present lost panicking rfl
  | advance panics => exact advance_follows panics coherent within
  | shutdownElsewhere task panics => exact shutdownElsewhere_follows panics coherent within

end Osaka.Shutdown
