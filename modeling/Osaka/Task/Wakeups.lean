import Osaka.Task.Counting

set_option autoImplicit false

namespace Osaka.Task

open Transitions

variable {V : Type} {c d : Cell V}

def Runner.polls : Option (Runner V) → Bool
  | some .polling => true
  | _ => false

theorem Runner.polls_iff {runner : Option (Runner V)} : Runner.polls runner = true ↔ runner = some .polling := by
  constructor
  · intro polls
    unfold Runner.polls at polls
    split at polls
    next => rfl
    next => simp at polls
  · intro polling
    rw [polling]
    rfl

def Action.wakes : Action V → Bool
  | .wakeByVal | .wakeByRef => true
  | _ => false

structure Watch where
  -- each creation of a Notified; spawn makes the first
  submissions : Nat
  -- each start of a poll of the future
  polls : Nat
  -- there was a submission, and no start of a poll and no completion since
  pending : Bool
  -- there was a wake while the task was not complete, and no Notified has been run since that took RUNNING
  woken : Bool

def Watch.first : Watch := ⟨1, 0, true, false⟩

def Watch.observe (w : Watch) (c : Cell V) (a : Action V) (d : Cell V) : Watch :=
  let submits := decide (c.notified < d.notified)
  let starts := Runner.polls d.runner && !Runner.polls c.runner
  let completes := d.state.isComplete && !c.state.isComplete
  let runs := !c.state.isRunning && d.state.isRunning && decide (d.notified < c.notified)
  { submissions := if submits then w.submissions + 1 else w.submissions
    polls := if starts then w.polls + 1 else w.polls
    pending := !starts && !completes && (submits || w.pending)
    woken := a.wakes && !c.state.isComplete || !runs && w.woken }

def watched (V : Type) : System (Cell V × Watch) (Action V) Fault :=
  (machine V).observed .first Watch.observe

instance : DecidablePred (watched V).within :=
  fun s => inferInstanceAs (Decidable (s.1.live < 2 ^ 56))

theorem watched_reachable (closed : Bool) : (watched V).Reachable (Cell.spawn closed, .first) :=
  .initial ⟨⟨closed, rfl⟩, rfl⟩

section Wakes

theorem wakeByVal_marks (sound : Sound c) (within : c.live < 2 ^ 56) (incomplete : c.state.has .complete = false)
    (woke : c.wakeByVal = .next d) : d.state.has .notified = true := by
  unfold Cell.wakeByVal at woke
  split at woke
  next => simp at woke
  next present =>
    have references := sound.counted.references
    cases running : c.state.has .running with
    | true =>
      have locks : Runner.locks c.runner = true := by rw [← sound.scheduled.running, running]
      have own := Runner.references_locks locks
      have two : 1 < c.state.refCount := by simp only [references, Cell.live]; omega
      have held : 1 ≤ (c.state.set .notified).refCount := by rw [Snapshot.refCount_set]; omega
      rw [transitionToNotifiedByVal_running running two, Outcome.attempt_ok, Outcome.next.injEq] at woke
      simp [← woke, Snapshot.has_sub held]
    | false =>
      cases notified : c.state.has .notified with
      | true =>
        have held : 1 ≤ c.state.refCount := by simp only [references, Cell.live]; omega
        rw [transitionToNotifiedByVal_settled running (.inr notified) held] at woke
        by_cases one : c.state.refCount = 1
        · simp only [one, if_true, Outcome.attempt_ok, Outcome.next.injEq] at woke
          rw [← woke]
          exact (Snapshot.has_sub held).trans notified
        · simp only [one, if_false, Outcome.attempt_ok, Outcome.next.injEq] at woke
          rw [← woke]
          exact (Snapshot.has_sub held).trans notified
      | false =>
        have room : (c.state.set .notified).refCount < 2 ^ 56 := by rw [Snapshot.refCount_set]; omega
        rw [transitionToNotifiedByVal_idle running incomplete notified (by omega), Outcome.attempt_ok,
          Outcome.next.injEq] at woke
        simp [← woke, Snapshot.has_add room]

theorem wakeByRef_marks (sound : Sound c) (within : c.live < 2 ^ 56) (incomplete : c.state.has .complete = false)
    (woke : c.wakeByRef = .next d) : d.state.has .notified = true := by
  unfold Cell.wakeByRef at woke
  split at woke
  next => simp at woke
  next present =>
    have references := sound.counted.references
    cases notified : c.state.has .notified with
    | true =>
      rw [transitionToNotifiedByRef_settled (.inr notified), Outcome.attempt_ok, Outcome.next.injEq] at woke
      rw [← woke]
      exact notified
    | false =>
      cases running : c.state.has .running with
      | true =>
        rw [transitionToNotifiedByRef_running running incomplete notified, Outcome.attempt_ok,
          Outcome.next.injEq] at woke
        simp [← woke]
      | false =>
        have room : (c.state.set .notified).refCount < 2 ^ 56 := by rw [Snapshot.refCount_set]; omega
        rw [transitionToNotifiedByRef_idle running incomplete notified (by omega), Outcome.attempt_ok,
          Outcome.next.injEq] at woke
        simp [← woke, Snapshot.has_add room]

theorem wake_marks {a : Action V} (sound : Sound c) (within : c.live < 2 ^ 56)
    (incomplete : c.state.has .complete = false) (wakes : a.wakes = true) (woke : c.step a = .next d) :
    d.state.has .notified = true := by
  cases a <;> simp only [Action.wakes, Bool.false_eq_true] at wakes
  case wakeByVal => exact wakeByVal_marks sound within incomplete woke
  case wakeByRef => exact wakeByRef_marks sound within incomplete woke

theorem pollPending_aborted (sound : Sound c) (polling : c.runner = some .polling)
    (cancelled : c.state.has .cancelled = true) : c.pollPending = .next { c with runner := some .cancelling } := by
  have running : c.state.has .running = true := by rw [sound.scheduled.running, polling]; rfl
  simp only [Cell.pollPending, polling, transitionToIdle_cancelled running cancelled, Outcome.attempt_ok]

end Wakes

section Watching

structure Watched (c : Cell V) (w : Watch) : Prop where
  counts : w.polls + c.notified ≤ w.submissions
  pending : w.pending = true → c.state.has .complete = true ∨ c.state.has .notified = true ∨
    c.state.has .running = true ∧ Runner.polls c.runner = false
  polling : Runner.polls c.runner = true → w.pending = false
  woken : w.woken = true → c.state.has .complete = true ∨ c.state.has .notified = true

theorem spawn_watched (closed : Bool) : Watched (Cell.spawn closed : Cell V) .first := by
  constructor <;> simp [Watch.first, Cell.spawn, initial_word, Runner.polls]

theorem observe_watched {w : Watch} {a : Action V} (sound : Sound c) (within : c.live < 2 ^ 56)
    (watched : Watched c w) (next : c.step a = .next d) : Watched d (w.observe c a d) := by
  obtain ⟨after, advances⟩ := (step_stepped a sound within).next next
  have polls := fun runner : Option (Runner V) => @Runner.polls_iff V runner
  have marks := fun incomplete wakes => wake_marks sound within incomplete (a := a) wakes next
  obtain ⟨counts, pending, polling, woken⟩ := watched
  obtain ⟨complete, notified, submitted, started, unlocked⟩ := advances
  have idle : c.runner = none → c.state.has .running = false := by
    intro away
    rw [sound.scheduled.running, away]
    rfl
  constructor <;> simp only [Watch.observe, Snapshot.isComplete, Snapshot.isRunning]
  · grind -linarith
  · grind -linarith
  · grind -linarith
  · grind -linarith

theorem watched_kept {s : Cell V × Watch} (reached : (watched V).Reachable s) : Watched s.1 s.2 := by
  apply System.Reachable.watched _ _ reached
  · rintro _ ⟨closed, rfl⟩
    exact spawn_watched closed
  · intro c w a d before watched within next
    exact observe_watched (reachable_sound before) within watched next

end Watching

/-- Any run, seen by an observer: while no Notified was dropped unrun, a wake stays remembered until the
next run, and submissions and polls alternate. -/
theorem wakeups_kept {w : Watch} (reached : (watched V).Reachable (c, w)) (run : c.unrun = false) :
    (w.woken = true → c.state.isComplete = false →
      c.notified = 1 ∨ c.state.isRunning = true ∧ c.state.isNotified = true) ∧
    w.polls + c.notified ≤ w.submissions ∧
    (c.live < 2 ^ 56 → ∀ a d, c.step a = .next d →
      -- a wake is noted, whatever the task is doing
      (a.wakes = true → c.state.isComplete = false → d.state.isNotified = true) ∧
      -- a poll starts by consuming the one Notified
      (d.runner = some .polling → c.runner = some .polling ∨ c.notified = 1 ∧ d.notified = 0) ∧
      -- there is one submission for a start of a poll
      (c.notified < d.notified → w.pending = false ∧ c.notified = 0 ∧ d.notified = 1) ∧
      -- the end of a poll that was woken
      (c.state.isRunning = true → c.state.isNotified = true → d.state.isRunning = false →
        d.state.isComplete = true ∨ c.state.isCancelled = false ∧ c.notified = 0 ∧ d.notified = 1)) ∧
    (c.runner = some .polling → c.state.isCancelled = true →
      ∃ d, c.step .pollPending = .next d ∧ d.runner = some .cancelling) := by
  have sound : Sound c := reachable_sound reached.of_observed
  have scheduled := sound.scheduled
  have known : Watched c w := watched_kept reached
  obtain ⟨counts, pending, polling, woken⟩ := known
  refine ⟨?_, counts, ?_, ?_⟩
  · intro waiting incomplete
    have notified := (woken waiting).resolve_left (by rw [← Snapshot.isComplete, incomplete]; decide)
    cases running : c.state.has .running with
    | true => exact .inr ⟨running, notified⟩
    | false =>
      have single := scheduled.single
      have present := (scheduled.idle running incomplete notified).resolve_right (by simp [run])
      exact .inl (by omega)
  · intro within a d next
    obtain ⟨after, advances⟩ := (step_stepped a sound within).next next
    have single := scheduled.single
    have single' := after.scheduled.single
    refine ⟨?_, ?_, ?_, ?_⟩
    · intro wakes incomplete
      exact wake_marks sound within incomplete wakes next
    · intro polls
      rcases advances.started polls with before | ⟨_, consumed⟩
      · exact .inl before
      · exact .inr (by omega)
    · intro submits
      obtain ⟨one, notified, ⟨away, incomplete, quiet⟩ | ⟨before, _⟩⟩ := advances.submitted submits
      · refine ⟨?_, by omega, by omega⟩
        have unlocked : c.state.has .running = false := by rw [scheduled.running, away]; rfl
        cases waiting : w.pending with
        | false => rfl
        | true => simpa [incomplete, quiet, unlocked] using pending waiting
      · exact ⟨polling (Runner.polls_iff.mpr before), by omega, by omega⟩
    · intro running notified ended
      rcases advances.unlocked running ended with complete | ⟨polls, uncancelled, submits⟩
      · exact .inl complete
      · have one := submits notified
        exact .inr ⟨uncancelled, by omega, by omega⟩
  · intro polls cancelled
    exact ⟨_, pollPending_aborted sound polls cancelled, rfl⟩

theorem exampleRun_watched :
    ((watched Nat).run (Cell.spawn false, .first) exampleRun).map
      (fun s => (s.1.unrun, s.2.submissions, s.2.polls)) = some (false, 2, 2) := by
  decide +kernel

theorem wakeups_kept_run : ∃ s : Cell Nat × Watch, s.2.polls = 2 ∧ s.2.submissions = 2 ∧ s.1.notified = 0 := by
  obtain ⟨⟨c, w⟩, ran, seen⟩ := Option.map_eq_some_iff.mp exampleRun_watched
  have reached := System.reachable_run _ (watched_reachable false) ran
  simp only [Prod.mk.injEq] at seen
  obtain ⟨run, submissions, polls⟩ := seen
  have counts := (wakeups_kept reached run).2.1
  exact ⟨(c, w), polls, submissions, by change c.notified = 0; omega⟩

end Osaka.Task
