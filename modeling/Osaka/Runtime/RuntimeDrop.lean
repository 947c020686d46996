import Osaka.Runtime.ShutdownProgress
import Osaka.Task.Lifecycle

set_option autoImplicit false

namespace Osaka.Shutdown

open Transitions Osaka.Task

variable {V : Type} {p q r : Pool V} {i : TaskId} {c d : Cell V}

section Runs

theorem next_follows {a : Act V} (coherent : Coherent p) (within : (machine V).within p)
    (stepped : p.step a = .next q) : Follows p q := by
  apply (step_follows a coherent within _).next stepped
  rintro lost panicking rfl
  cases panicking with
  | true => rfl
  | false => simp [Pool.step, Pool.drop, lost] at stepped

theorem reachable_coherent (reached : (machine V).Reachable p) : Coherent p := by
  induction reached with
  | initial first =>
    rw [first]
    exact new_coherent
  | step _ within stepped ih => exact (next_follows ih within stepped).coherent

/-- The endings that have come since `p`, when nothing was polled any more. -/
def Later (p q : Pool V) : Prop :=
  ∀ (task : TaskId) (d : Cell V), q.cells[task]? = some d →
    (∀ c : Cell V, p.cells[task]? = some c → c.endings = []) →
    ∀ ending ∈ d.endings, ∃ panics, ending = .cancelled panics

theorem Later.refl (p : Pool V) : Later p p := by
  intro task d found fresh ending present
  simp [fresh d found] at present

theorem Later.step (later : Later p q) (follows : Follows q r)
    (unpolled : ∀ (task : TaskId) (c : Cell V), q.cells[task]? = some c → c.runner ≠ some .polling) :
    Later p r := by
  intro task d found fresh ending present
  rcases follows.endings task d found with ⟨_, none⟩ | ⟨c, before, polling | same | ⟨panics, more⟩⟩
  · simp [none] at present
  · exact absurd polling (unpolled task c before)
  · rw [same] at present
    exact later task c before fresh ending present
  · rw [more, List.mem_append, List.mem_singleton] at present
    rcases present with present | rfl
    · exact later task c before fresh ending present
    · exact ⟨panics, rfl⟩

theorem Coherent.unpolled (coherent : Coherent p) (idle : ∀ task, p.core ≠ .running (some task)) (task : TaskId)
    (c : Cell V) (found : p.cells[task]? = some c) : c.runner ≠ some .polling := by
  intro polling
  exact idle task ((coherent.fits task c found).polling polling)

theorem Drops.idle (drops : p.Drops) (task : TaskId) : p.core ≠ .running (some task) := by
  obtain ⟨phase, dropping⟩ := drops
  simp [dropping]

structure Shut (p q : Pool V) : Prop where
  coherent : Coherent q
  drops : q.Drops
  later : Later p q

theorem Shut.next {a : Act V} (shut : Shut p q) (within : (machine V).within q) (stepped : q.step a = .next r) :
    Shut p r := by
  have follows := next_follows shut.coherent within stepped
  exact ⟨follows.coherent, follows.drops shut.drops,
    shut.later.step follows (shut.coherent.unpolled (Drops.idle shut.drops))⟩

theorem Shut.run {actions : List (Act V)} (shut : Shut p q) (ran : (machine V).run q actions = some r) :
    Shut p r ∧ (q.core = .dropping .finished → r.core = .dropping .finished) := by
  induction actions generalizing q with
  | nil =>
    obtain rfl : q = r := Option.some.inj ran
    exact ⟨shut, id⟩
  | cons a rest ih =>
    obtain ⟨s, within, stepped, ran⟩ := (machine V).run_cons ran
    obtain ⟨after, stays⟩ := ih (shut.next within stepped) ran
    exact ⟨after, fun finished => stays ((next_follows shut.coherent within stepped).finished finished)⟩

theorem drop_shut {panicking : Bool} {actions : List (Act V)} (coherent : Coherent p) (slot : p.core = .slot)
    (ran : (machine V).run p (.drop panicking :: actions) = some q) : Shut p q := by
  obtain ⟨s, within, stepped, ran⟩ := (machine V).run_cons ran
  change p.step (.drop panicking) = .next s at stepped
  have follows := next_follows coherent within stepped
  have drops : s.Drops := by
    simp only [Pool.step, Pool.drop, slot, Outcome.next.injEq] at stepped
    exact ⟨.closing, by rw [← stepped]⟩
  have first : Shut p s :=
    ⟨follows.coherent, drops, (Later.refl p).step follows (coherent.unpolled (by simp [slot]))⟩
  exact (first.run ran).1

end Runs

section Ends

theorem advance_ends (shut : Shut p q) (within : (machine V).within q) (panics : Nat → Bool) :
    ∃ k ≤ q.work, ∃ r, (machine V).run q ((List.range k).map fun n => .advance (panics n)) = some r ∧
      r.core = .dropping .finished := by
  have progress (s : Pool V) (b : Bool) (kept : Shut p s ∧ (machine V).within s)
      (unfinished : ¬s.core = .dropping .finished) : (machine V).within s ∧
        ∃ t, s.step (.advance b) = .next t ∧ (Shut p t ∧ (machine V).within t) ∧ t.work < s.work := by
    obtain ⟨shut, within⟩ := kept
    have dropping : s.core.isDropping = true := by
      obtain ⟨phase, core⟩ := shut.drops
      rw [core] at unfinished ⊢
      cases phase with
      | finished => exact absurd rfl unfinished
      | closing | drainingLocal | drainingRemote _ => rfl
    obtain ⟨t, next, within', less, _⟩ := advance_next b shut.coherent within dropping
    exact ⟨within, t, next, ⟨shut.next (a := .advance b) within next, within'⟩, less⟩
  obtain ⟨k, short, r, ran, _, done⟩ := (machine V).run_ends (f := Act.advance) progress ⟨shut, within⟩ panics
  exact ⟨k, short, r, ran, done⟩

theorem shutdownElsewhere_ends (shut : Shut p q) (within : (machine V).within q) (panics : Nat → Bool) :
    ∃ k ≤ 9, ∃ r, (machine V).run q ((List.range k).map fun n => .shutdownElsewhere i (panics n)) = some r ∧
      i ∉ r.elsewhere := by
  have progress (s : Pool V) (b : Bool) (kept : Shut p s ∧ (machine V).within s) (unfinished : ¬i ∉ s.elsewhere) :
      (machine V).within s ∧ ∃ t, s.step (.shutdownElsewhere i b) = .next t ∧ (Shut p t ∧ (machine V).within t) ∧
        (if i ∈ t.elsewhere then t.remainingAt i + 1 else 0) < if i ∈ s.elsewhere then s.remainingAt i + 1 else 0 := by
    obtain ⟨shut, within⟩ := kept
    have present : i ∈ s.elsewhere := by simpa using unfinished
    obtain ⟨c, t, found, next, shutting⟩ := shutdownTask_next (i := i)
      (q := { s with elsewhere := s.elsewhere.erase i }) b shut.coherent within shut.drops (.inr present) rfl
    have stepped : s.step (.shutdownElsewhere i b) = .next t := by
      simp only [Pool.step, Pool.shutdownElsewhere, present, if_true]
      exact next
    have gone : i ∉ s.elsewhere.erase i := fun again => shut.coherent.shape.apart.not_mem_erase again
    refine ⟨within, t, stepped, ⟨shut.next within stepped, ?_⟩, ?_⟩
    · cases shutting with
      | step _ live => exact afterStep_within within found live
      | refused live =>
        exact afterStep_within (p := { s with elsewhere := s.elsewhere.erase i }) within found live
      | returned => exact within
    · cases shutting with
      | step less _ =>
        simp only [afterStep_elsewhere, present, if_true, remainingAt_afterStep found]
        simp only [Pool.remainingAt, found]
        omega
      | refused _ => simp [present, gone]
      | returned => simp [present, gone]
  obtain ⟨k, short, r, ran, _, done⟩ := (machine V).run_ends (f := Act.shutdownElsewhere i)
    (m := fun s => if i ∈ s.elsewhere then s.remainingAt i + 1 else 0) progress ⟨shut, within⟩ panics
  have most := q.remainingAt_le i
  refine ⟨k, ?_, r, ran, done⟩
  split at short <;> omega

end Ends

section Result

/-- A JoinHandle whose task was cancelled: what its poll returns. -/
structure Resolves (c : Cell V) (result : Except JoinError V) : Prop where
  handed : ∀ other ∈ c.handed, other = result
  poll : c.join = .held → c.handed = [] → ∀ willWake, ∃ d e,
    c.step (.canReadOutput willWake) = .next d ∧ d.step .takeOutput = .next e ∧ e.handed = [result]

structure Dropped (p q : Pool V) : Prop where
  owned : q.owned = p.owned.closeAndShutdownAll
  tasks : q.tasks = []
  queue : q.queue = none
  unpolled : ∀ (task : TaskId) (c : Cell V), q.cells[task]? = some c → c.runner ≠ some .polling
  -- but for the tasks that another thread is just spawning
  complete : ∀ (task : TaskId) (c : Cell V), q.cells[task]? = some c → task ∉ q.elsewhere →
    c.state.isComplete = true ∧ c.stage.futures = 0 ∧ c.futureDrops = 1
  -- the tasks that were not complete before, and those spawned since
  cancelled : ∀ (task : TaskId) (c : Cell V), q.cells[task]? = some c → task ∉ q.elsewhere →
    (∀ b : Cell V, p.cells[task]? = some b → b.state.isComplete = false) →
    ∃ panics, c.endings = [.cancelled panics] ∧
      Resolves c (if panics then .error .panic else .error .cancelled)

theorem Coherent.complete (coherent : Coherent p) (drops : p.Drops) (opened : p.core ≠ .dropping .closing)
    (found : p.cells[i]? = some c) (unheld : ¬p.Holds i) : c.state.has .complete = true := by
  have fits := coherent.fits i c found
  have drained := coherent.shape.drained drops opened
  have away : c.runner = none := by
    by_contra busy
    rcases fits.runner busy with held | running
    · exact unheld held
    · obtain ⟨phase, dropping⟩ := drops
      simp [dropping] at running
  have owner : c.owner = .released := by
    cases owner : c.owner with
    | listed => simpa [drained] using fits.listed.mp owner
    | popped => exact absurd (fits.popped owner) unheld
    | released => rfl
  by_contra incomplete
  have locks := (fits.sound.scheduled.owner owner (by simpa using incomplete)).1
  simp [away, Runner.locks] at locks

theorem Shut.complete (shut : Shut p q) (finished : q.core = .dropping .finished) (found : q.cells[i]? = some c)
    (settled : i ∉ q.elsewhere) : c.state.has .complete = true := by
  apply shut.coherent.complete shut.drops (by simp [finished]) found
  rintro (held | held)
  · have dropping := shut.coherent.shape.stack (List.ne_nil_of_mem held)
    simp [finished, CorePlace.isDropping] at dropping
  · exact settled held

theorem resolves {ending : Ending V} (sound : Sound c) (complete : c.state.has .complete = true)
    (single : c.endings = [ending]) : Resolves c ending.result := by
  have results : c.results = [ending.result] := by simp [Cell.results, single]
  constructor
  · intro other handed
    have same := (sound.settled.handed other handed).2
    rw [results] at same
    exact (List.cons.inj same).1.symm
  · intro held unread willWake
    obtain ⟨d, e, result, polled, taken, handed, same⟩ := join_next sound willWake complete held unread
    rw [results] at same
    obtain rfl : ending.result = result := (List.cons.inj same).1
    exact ⟨d, e, polled, taken, handed⟩

theorem Shut.dropped (shut : Shut p q) (coherent : Coherent p) (slot : p.core = .slot)
    (finished : q.core = .dropping .finished) : Dropped p q := by
  have shape := shut.coherent.shape
  have opened : q.core ≠ .dropping .closing := by simp [finished]
  have further : q.core ≠ .dropping .drainingLocal := by simp [finished]
  obtain ⟨tasks, queue⟩ := shape.emptied shut.drops opened further
  constructor
  · have list := shape.drained shut.drops opened
    have closed := shape.closed.mpr shut.drops
    cases owned : q.owned with
    | mk tasks closed' => simp_all [OwnedTasks.closeAndShutdownAll]
  · exact tasks
  · exact queue
  · exact shut.coherent.unpolled (Drops.idle shut.drops)
  · intro task c found settled
    have complete := shut.complete finished found settled
    have sound := (shut.coherent.fits task c found).sound
    have dropped := sound.dropped (.inr complete)
    have future := sound.settled.future
    exact ⟨complete, by omega, dropped⟩
  · intro task c found settled unfinished
    have complete := shut.complete finished found settled
    have sound := (shut.coherent.fits task c found).sound
    have fresh (b : Cell V) (before : p.cells[task]? = some b) : b.endings = [] := by
      have fits := coherent.fits task b before
      have unheld : ¬p.Holds task := by
        rintro (held | held)
        · simpa [slot, CorePlace.isDropping] using coherent.shape.stack (List.ne_nil_of_mem held)
        · simpa [Pool.Drops, slot] using coherent.shape.late (List.ne_nil_of_mem held)
      have away : b.runner = none := by
        by_contra busy
        rcases fits.runner busy with held | running
        · exact unheld held
        · simp [slot] at running
      exact (fits.sound.settled.fresh (unfinished b before) (by rw [away]; rfl)).2
    obtain ⟨result, _, results⟩ := sound.settled.ended complete
    obtain ⟨ending, single, _⟩ := List.map_eq_singleton_iff.mp results
    obtain ⟨panics, rfl⟩ := shut.later task c found fresh ending (by simp [single])
    refine ⟨panics, single, ?_⟩
    have resolved := resolves sound complete single
    cases panics with
    | false => exact resolved
    | true => exact resolved

/-- A late spawn is left with a task to shut down, and gives its Notified to nobody. -/
theorem late_spawn (coherent : Coherent q) (drops : q.Drops) :
    ∃ r, q.step (.spawn false) = .next r ∧ q.cells.length ∈ r.elsewhere ∧ r.submitted = q.submitted := by
  have closed := coherent.shape.closed.mpr drops
  obtain ⟨d, dropped⟩ :=
    dropNotified_next (spawn_sound true : Sound (Cell.spawn true : Cell V)) (show 0 < 1 by decide)
  have consumed := (dropNotified_consumes.next dropped).1.notified
  simp only [Pool.step, Pool.spawn, Bool.false_and, Bool.false_eq_true, if_false, closed, if_true]
  refine ⟨_, stepTask_next (by simp) dropped, List.mem_cons_self, ?_⟩
  simp only [Pool.afterStep]
  rw [if_neg (by omega)]

theorem runtime_drop {panicking : Bool} {actions : List (Act V)} (reached : (machine V).Reachable p)
    (slot : p.core = .slot) (ran : (machine V).run p (.drop panicking :: actions) = some q) :
    ((machine V).within q →
      (∀ a fault, q.step a ≠ .failed fault) ∧
      -- the drop comes to its end, whichever destructors panic
      (∀ panics : Nat → Bool, ∃ k ≤ q.work, ∃ r,
        (machine V).run q ((List.range k).map fun n => .advance (panics n)) = some r ∧
        r.core = .dropping .finished) ∧
      -- and so does the spawn of a late task
      (∃ r, q.step (.spawn false) = .next r ∧ q.cells.length ∈ r.elsewhere ∧ r.submitted = q.submitted) ∧
      (∀ task, ∀ panics : Nat → Bool, ∃ k ≤ 9, ∃ r,
        (machine V).run q ((List.range k).map fun n => .shutdownElsewhere task (panics n)) = some r ∧
        task ∉ r.elsewhere)) ∧
    -- at its end and ever after
    (q.core = .dropping .finished → ∀ later r, (machine V).run q later = some r →
      r.core = .dropping .finished ∧ Dropped p r) := by
  have coherent := reachable_coherent reached
  have shut := drop_shut coherent slot ran
  constructor
  · intro within
    refine ⟨?_, advance_ends shut within, late_spawn shut.coherent shut.drops,
      fun task => shutdownElsewhere_ends shut within⟩
    intro a fault failed
    apply (step_follows a shut.coherent within _).sound fault failed
    intro lost
    obtain ⟨phase, dropping⟩ := shut.drops
    simp [dropping] at lost
  · intro finished later r ran
    obtain ⟨after, stays⟩ := shut.run ran
    exact ⟨stays finished, after.dropped coherent slot (stays finished)⟩

end Result

section Examples

def exampleDrop : List (Act Nat) :=
  .drop false :: List.replicate 12 (.advance false)

theorem exampleDrop_answers :
    ((machine Nat).run .new [.spawn false, .schedule 0 false]).bind (fun p =>
      ((machine Nat).run p exampleDrop).map (fun q => (p.core, q.core, q.cells.length, q.elsewhere))) =
      some (.slot, .dropping .finished, 1, []) := by
  decide +kernel

theorem runtime_drop_run : ∃ q : Pool Nat, q.cells.length = 1 ∧ q.queue = none ∧
    ∀ c, q.cells[0]? = some c → c.state.isComplete = true ∧ c.futureDrops = 1 := by
  obtain ⟨p, before, dropped⟩ := Option.bind_eq_some_iff.mp exampleDrop_answers
  obtain ⟨q, ran, answers⟩ := Option.map_eq_some_iff.mp dropped
  simp only [Prod.mk.injEq] at answers
  obtain ⟨slot, finished, one, none⟩ := answers
  have reached := System.reachable_run _ new_reachable before
  have left := ((runtime_drop reached slot ran).2 finished [] q rfl).2
  refine ⟨q, one, left.queue, ?_⟩
  intro c found
  obtain ⟨complete, _, future⟩ := left.complete 0 c found (by simp [none])
  exact ⟨complete, future⟩

theorem lost_core_answers :
    ((machine Nat).run .new [.enter, .lose]).map (fun p => p.core) = some .lost := by
  decide +kernel

def lateSpawn : List (Act Nat) :=
  .drop false :: List.replicate 3 (.advance false) ++ .spawn false :: List.replicate 7 (.shutdownElsewhere 0 true) ++
    [.task 0 (.canReadOutput false), .task 0 .takeOutput]

theorem lateSpawn_answers :
    ((machine Nat).run .new lateSpawn).map
      (fun q => (q.core, q.elsewhere, q.cells.map fun c => c.handed.map fun
        | .ok _ => none
        | .error error => some error)) = some (.dropping .finished, [], [[some .panic]]) := by
  decide +kernel

/-- The drop panics when the core was lost; a late task whose destructor panics is not just cancelled. -/
theorem runtime_drop_not_clean :
    (∃ p : Pool Nat, (machine Nat).Reachable p ∧ p.core = .lost ∧
      p.step (.drop false) = .failed .neverPlacedBack) ∧
    ∃ q : Pool Nat, (machine Nat).run .new lateSpawn = some q ∧ q.core = .dropping .finished ∧
      q.cells.map (fun c => c.handed.map fun
        | .ok _ => none
        | .error error => some error) = [[some .panic]] := by
  constructor
  · obtain ⟨p, ran, lost⟩ := Option.map_eq_some_iff.mp lost_core_answers
    refine ⟨p, System.reachable_run _ new_reachable ran, lost, ?_⟩
    simp [Pool.step, Pool.drop, lost]
  · obtain ⟨q, ran, answers⟩ := Option.map_eq_some_iff.mp lateSpawn_answers
    simp only [Prod.mk.injEq] at answers
    exact ⟨q, ran, answers.1, answers.2.2⟩

end Examples

end Osaka.Shutdown
