import Osaka.Task.Cell

set_option autoImplicit false

namespace Osaka.Task

open Transitions

variable {V : Type}

section Phases

/-- The phases in which the runner is the one that RUNNING stands for. -/
@[grind]
def Runner.locks : Option (Runner V) → Bool
  | some .polling | some .cancelling | some (.storing _) | some .completing => true
  | none | some .discarding | some .wakingJoin | some .releasing | some (.terminal _) => false

@[grind]
def Runner.finishes : Option (Runner V) → Bool
  | some .discarding | some .wakingJoin | some .releasing | some (.terminal _) => true
  | none | some .polling | some .cancelling | some (.storing _) | some .completing => false

-- The future is gone, COMPLETE is not set yet.
@[grind]
def Runner.ends : Option (Runner V) → Bool
  | some (.storing _) | some .completing => true
  | none | some .polling | some .cancelling | some .discarding | some .wakingJoin | some .releasing
  | some (.terminal _) => false

theorem Runner.away {runner : Option (Runner V)} (unlocked : Runner.locks runner = false)
    (unfinished : Runner.finishes runner = false) : runner = none := by
  match runner with
  | none => rfl
  | some .polling | some .cancelling | some (.storing _) | some .completing => simp [Runner.locks] at unlocked
  | some .discarding | some .wakingJoin | some .releasing | some (.terminal _) =>
    simp [Runner.finishes] at unfinished

theorem Runner.references_locks {runner : Option (Runner V)} (locks : Runner.locks runner = true) :
    Runner.references runner = 1 := by
  match runner with
  | some .polling | some .cancelling | some (.storing _) | some .completing => rfl
  | none | some .discarding | some .wakingJoin | some .releasing | some (.terminal _) =>
    simp [Runner.locks] at locks

-- The JoinHandle has not given up the output.
@[grind]
def Join.claims : Join → Bool
  | .releasing | .gone => false
  | .held | .unsetting | .setting | .reading | .dropping | .droppingOutput => true

@[grind]
def Join.fits (interest waker complete : Bool) : Join → Bool
  | .held | .dropping => interest
  | .unsetting => interest && waker
  | .setting => interest && !waker
  | .reading | .droppingOutput => interest && complete
  | .releasing | .gone => !interest || complete

section Incomplete

variable {interest waker : Bool} {join : Join}

theorem Join.fits_complete (fits : join.fits interest waker false = true) :
    join.fits interest waker true = true := by
  cases join <;> simp [Join.fits] at fits ⊢ <;> exact fits

theorem Join.unclaimed (fits : join.fits interest waker false = true) (unclaimed : join.claims = false) :
    interest = false := by
  cases join <;> simp [Join.fits, Join.claims] at fits unclaimed ⊢ <;> exact fits

end Incomplete

end Phases

structure Scheduled (c : Cell V) : Prop where
  single : c.notified ≤ 1
  flagged : 0 < c.notified → c.state.has .notified = true
  unrun : c.unrun = true → c.notified = 0 ∧ c.state.has .notified = true
  idle : c.state.has .running = false → c.state.has .complete = false → c.state.has .notified = true →
    0 < c.notified ∨ c.unrun = true
  running : c.state.has .running = Runner.locks c.runner
  exclusive : c.state.has .running = true → c.state.has .complete = false
  finishing : Runner.finishes c.runner = true → c.state.has .complete = true
  polling : c.runner = some .polling → c.notified = 0 ∧ c.unrun = false
  -- Whoever took the task off the list has it run to its end.
  owner : c.owner = .released → c.state.has .complete = false →
    Runner.locks c.runner = true ∧ (c.runner = some .polling → c.state.has .cancelled = true)
  terminal : ∀ count, c.runner = some (.terminal count) → 0 < count

structure Joined (c : Cell V) : Prop where
  fits : c.join.fits (c.state.has .joinInterest) (c.state.has .joinWaker) (c.state.has .complete) = true
  waker : c.state.has .joinWaker = true → c.state.has .complete = false → c.joinWaker = true
  setting : c.join = .setting → c.joinWaker = true
  waking : c.runner = some .wakingJoin → c.state.has .joinWaker = true ∧ c.joinWaker = true
  discarding : c.runner = some .discarding → c.state.has .joinInterest = false

structure Counted (c : Cell V) : Prop where
  references : c.state.refCount = c.live
  freed : c.deallocs = if c.live = 0 then 1 else 0

def Cell.results (c : Cell V) : List (Except JoinError V) := c.endings.map Ending.result

structure Settled (c : Cell V) : Prop where
  fresh : c.state.has .complete = false → Runner.ends c.runner = false → c.stage = .running ∧ c.endings = []
  storing : ∀ result, c.runner = some (.storing result) → c.stage = .consumed ∧ c.results = [result]
  completing : c.runner = some .completing → ∃ result, c.stage = .finished result ∧ c.results = [result]
  ended : c.state.has .complete = true →
    ∃ result, (c.stage = .finished result ∨ c.stage = .consumed) ∧ c.results = [result]
  discarding : c.runner = some .discarding → c.stage ≠ .consumed
  discarded : c.state.has .complete = true → c.state.has .joinInterest = false →
    c.runner ≠ some .discarding → c.stage = .consumed
  unread : c.state.has .complete = true → c.state.has .joinInterest = true → c.join.claims = true →
    c.handed = [] → c.stage ≠ .consumed
  taken : c.state.has .complete = true → c.state.has .joinInterest = true → c.join.claims = false →
    c.stage = .consumed
  future : c.futureDrops + c.stage.futures = 1
  output : c.writes = c.handed.length + c.outputDrops + c.stage.outputs
  unwritten : c.state.has .complete = false → c.runner ≠ some .completing → c.writes = 0
  written : c.state.has .complete = true ∨ c.runner = some .completing → c.writes = 1
  handed : ∀ result ∈ c.handed, c.state.has .complete = true ∧ c.results = [result]

structure Sound (c : Cell V) : Prop where
  scheduled : Scheduled c
  joined : Joined c
  counted : Counted c
  settled : Settled c

/-- A cell that a step may have left without a reference, before `dealloc`. -/
structure Unfreed (c : Cell V) : Prop where
  scheduled : Scheduled c
  joined : Joined c
  settled : Settled c
  references : c.state.refCount = c.live
  deallocs : c.deallocs = 0

section Initial

theorem initial_word (flag : Flag) :
    Snapshot.has ⟨INITIAL_STATE⟩ flag = (decide (flag = .joinInterest) || decide (flag = .notified)) := by
  cases flag <;> decide

theorem initial_refCount : Snapshot.refCount ⟨INITIAL_STATE⟩ = 3 := by
  decide

theorem spawn_sound (closed : Bool) : Sound (Cell.spawn closed : Cell V) := by
  constructor
  · constructor <;> cases closed <;> simp [Cell.spawn, initial_word, Runner.locks, Runner.finishes]
  · constructor <;> simp [Cell.spawn, initial_word, Join.fits]
  · constructor <;> cases closed <;>
      simp [Cell.spawn, initial_refCount, Cell.live, Owner.references, Runner.references, Join.references]
  · constructor <;> simp [Cell.spawn, initial_word, Stage.futures, Stage.outputs]

end Initial

section Frames

variable {c d : Cell V}

theorem Scheduled.away (scheduled : Scheduled c) (idle : c.state.has .running = false)
    (complete : c.state.has .complete = false) : c.runner = none := by
  apply Runner.away
  · rw [← scheduled.running, idle]
  · cases finishes : Runner.finishes c.runner with
    | false => rfl
    | true => simp [scheduled.finishing finishes] at complete

theorem Scheduled.word {s : Snapshot} (scheduled : Scheduled c) (same : ∀ flag, s.has flag = c.state.has flag) :
    Scheduled { c with state := s } := by
  obtain ⟨single, flagged, unrun, idle, running, exclusive, finishing, polling, owner, terminal⟩ := scheduled
  constructor <;> simpa only [same]

-- The other flags say nothing about the JoinHandle.
theorem Joined.word {s : Snapshot} (joined : Joined c) (complete : s.has .complete = c.state.has .complete)
    (interest : s.has .joinInterest = c.state.has .joinInterest) (stored : s.has .joinWaker = c.state.has .joinWaker) :
    Joined { c with state := s } := by
  obtain ⟨fits, waker, setting, waking, discarding⟩ := joined
  constructor <;> simpa only [complete, interest, stored]

-- The other flags say nothing about the future and its result.
theorem Settled.word {s : Snapshot} (settled : Settled c) (complete : s.has .complete = c.state.has .complete)
    (interest : s.has .joinInterest = c.state.has .joinInterest) : Settled { c with state := s } := by
  obtain ⟨fresh, storing, completing, ended, discarding, discarded, unread, taken, future, output, unwritten,
    written, handed⟩ := settled
  constructor <;> simpa only [complete, interest]

theorem Sound.unfreed (sound : Sound c) (alive : 0 < c.live) : Unfreed c := by
  obtain ⟨scheduled, joined, ⟨references, freed⟩, settled⟩ := sound
  exact ⟨scheduled, joined, settled, references, by rw [freed, if_neg (by omega)]⟩

theorem spent_done (scheduled : Scheduled c) (settled : Settled c) (spent : c.live = 0) :
    c.join = .gone ∧ c.runner = none ∧ c.state.has .complete = true ∧ c.stage = .consumed := by
  have owner : c.owner = .released := by
    cases at' : c.owner <;> simp [Cell.live, at', Owner.references] at spent ⊢
  have join : c.join = .gone := by
    cases at' : c.join <;> simp [Cell.live, at', Join.references] at spent ⊢
  have away : c.runner = none := by
    match at' : c.runner with
    | none => rfl
    | some (.terminal count) =>
      have counts := scheduled.terminal count at'
      simp only [Cell.live, at', Runner.references] at spent
      omega
    | some .polling | some .cancelling | some (.storing _) | some .completing | some .discarding
    | some .wakingJoin | some .releasing =>
      simp [Cell.live, at', Runner.references] at spent
  have complete : c.state.has .complete = true := by
    by_contra incomplete
    have locks := (scheduled.owner owner (by simpa using incomplete)).1
    simp [away, Runner.locks] at locks
  have unclaimed : c.join.claims = false := by rw [join]; rfl
  refine ⟨join, away, complete, ?_⟩
  cases interest : c.state.has .joinInterest with
  | true => exact settled.taken complete interest unclaimed
  | false => exact settled.discarded complete interest (by simp [away])

theorem Cell.dealloc_consumed (c : Cell V) (consumed : c.stage = .consumed) :
    c.dealloc = { c with joinWaker := false, deallocs := c.deallocs + 1 } := by
  simp [Cell.dealloc, Cell.dropFutureOrOutput, Cell.setStage, consumed, Stage.futures, Stage.outputs]

theorem Unfreed.alive (unfreed : Unfreed c) (alive : c.live ≠ 0) : Sound c := by
  obtain ⟨scheduled, joined, settled, references, deallocs⟩ := unfreed
  exact ⟨scheduled, joined, ⟨references, by rw [deallocs, if_neg alive]⟩, settled⟩

theorem Unfreed.dealloc (unfreed : Unfreed c) (spent : c.live = 0) : Sound c.dealloc := by
  obtain ⟨scheduled, joined, settled, references, deallocs⟩ := unfreed
  obtain ⟨gone, away, complete, consumed⟩ := spent_done scheduled settled spent
  rw [c.dealloc_consumed consumed]
  constructor
  · exact { scheduled with }
  · constructor
    · exact joined.fits
    · simp [complete]
    · simp [gone]
    · simp [away]
    · simp [away]
  · constructor
    · exact references
    · change c.deallocs + 1 = if c.live = 0 then 1 else 0
      rw [deallocs, if_pos spent]
  · exact { settled with }

structure Advances (c d : Cell V) : Prop where
  complete : c.state.has .complete = true → d.state.has .complete = true
  -- NOTIFIED is unset only by the run of a Notified that takes RUNNING.
  notified : c.state.has .notified = true → d.state.has .notified = true ∨
    c.runner = none ∧ d.notified + 1 = c.notified ∧ d.state.has .running = true
  submitted : c.notified < d.notified → d.notified = c.notified + 1 ∧ d.state.has .notified = true ∧
    (c.runner = none ∧ c.state.has .complete = false ∧ c.state.has .notified = false ∨
      c.runner = some .polling ∧ d.runner = none)
  started : d.runner = some .polling →
    c.runner = some .polling ∨ c.runner = none ∧ d.notified + 1 = c.notified
  unlocked : c.state.has .running = true → d.state.has .running = false → d.state.has .complete = true ∨
    c.runner = some .polling ∧ c.state.has .cancelled = false ∧
      (c.state.has .notified = true → d.notified = c.notified + 1)

theorem Advances.refl (c : Cell V) : Advances c c := by
  constructor <;> simp_all

theorem Advances.word {s : Snapshot} (advances : Advances c d) (same : ∀ flag, s.has flag = d.state.has flag) :
    Advances c { d with state := s } := by
  obtain ⟨complete, notified, submitted, started, unlocked⟩ := advances
  constructor <;> simpa only [same]

structure Stepped (c d : Cell V) : Prop where
  sound : Sound d
  advances : Advances c d

theorem Stepped.alive (unfreed : Unfreed d) (alive : d.live ≠ 0) (advances : Advances c d) : Stepped c d :=
  ⟨unfreed.alive alive, advances⟩

theorem Stepped.dealloc (unfreed : Unfreed d) (spent : d.live = 0) (advances : Advances c d) :
    Stepped c d.dealloc :=
  ⟨unfreed.dealloc spent, { advances with }⟩

theorem Stepped.settle {last : Bool} (unfreed : Unfreed d) (exact' : last = true ↔ d.live = 0)
    (advances : Advances c d) : Stepped c (if last then d.dealloc else d) := by
  cases last with
  | false => exact .alive unfreed (by simpa using exact') advances
  | true => exact .dealloc unfreed (exact'.mp rfl) advances

end Frames

end Osaka.Task
