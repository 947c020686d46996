import Osaka.Task.Counting

set_option autoImplicit false

namespace Osaka.Task

open Transitions

variable {V : Type} {c : Cell V} {value : V}

section Answers

theorem Sound.endings_single (sound : Sound c) : c.endings.length ≤ 1 := by
  have settled := sound.settled
  have length : c.results.length = c.endings.length := List.length_map _
  cases complete : c.state.has .complete with
  | true =>
    obtain ⟨result, _, results⟩ := settled.ended complete
    simp [← length, results]
  | false =>
    cases ends : Runner.ends c.runner with
    | false => simp [(settled.fresh complete ends).2]
    | true =>
      match at' : c.runner with
      | some (.storing result) => simp [← length, (settled.storing result at').2]
      | some .completing =>
        obtain ⟨result, _, results⟩ := settled.completing at'
        simp [← length, results]
      | none | some .polling | some .cancelling | some .discarding | some .wakingJoin | some .releasing
      | some (.terminal _) => simp [at', Runner.ends] at ends

theorem Sound.answered (sound : Sound c) (ready : .ready value false ∈ c.endings) : c.results = [.ok value] := by
  have single := sound.endings_single
  match at' : c.endings with
  | [] => simp [at'] at ready
  | [ending] =>
    obtain rfl : Ending.ready value false = ending := by simpa [at'] using ready
    simp [Cell.results, at', Ending.result]
  | _ :: _ :: _ => simp [at'] at single

theorem Sound.stored {result : Except JoinError V} (sound : Sound c)
    (stored : c.stage = .finished result ∨ result ∈ c.handed) : c.results = [result] := by
  have settled := sound.settled
  rcases stored with finished | handed
  · cases complete : c.state.has .complete with
    | true =>
      obtain ⟨result', stage, results⟩ := settled.ended complete
      rw [finished] at stage
      rcases stage with same | consumed
      · rw [results, Stage.finished.inj same]
      · simp at consumed
    | false =>
      have ends : Runner.ends c.runner = true := by
        by_contra fresh
        have running := (settled.fresh complete (by simpa using fresh)).1
        simp [finished] at running
      match at' : c.runner with
      | some (.storing _) =>
        have consumed := (settled.storing _ at').1
        simp [finished] at consumed
      | some .completing =>
        obtain ⟨result', same, results⟩ := settled.completing at'
        rw [finished] at same
        rw [results, Stage.finished.inj same]
      | none | some .polling | some .cancelling | some .discarding | some .wakingJoin | some .releasing
      | some (.terminal _) => simp [at', Runner.ends] at ends
  · exact (settled.handed result handed).2

theorem Sound.dropped (sound : Sound c) (ended : c.endings ≠ [] ∨ c.state.has .complete = true) :
    c.futureDrops = 1 := by
  have settled := sound.settled
  have gone : c.stage.futures = 0 := by
    cases complete : c.state.has .complete with
    | true =>
      obtain ⟨result, finished | consumed, _⟩ := settled.ended complete
      · rw [finished]
        rfl
      · rw [consumed]
        rfl
    | false =>
      have ended' : c.endings ≠ [] := ended.resolve_right (by simp [complete])
      have ends : Runner.ends c.runner = true := by
        by_contra fresh
        exact ended' (settled.fresh complete (by simpa using fresh)).2
      match at' : c.runner with
      | some (.storing _) =>
        rw [(settled.storing _ at').1]
        rfl
      | some .completing =>
        obtain ⟨result, finished, _⟩ := settled.completing at'
        rw [finished]
        rfl
      | none | some .polling | some .cancelling | some .discarding | some .wakingJoin | some .releasing
      | some (.terminal _) => simp [at', Runner.ends] at ends
  have future := settled.future
  omega

/-- Until COMPLETE is set, the runner has nothing left to do but to store the result and to set it. -/
theorem Sound.answering (sound : Sound c) (ready : .ready value false ∈ c.endings)
    (incomplete : c.state.has .complete = false) :
    c.runner = some (.storing (.ok value)) ∨ c.runner = some .completing := by
  have settled := sound.settled
  have results := sound.answered ready
  have ends : Runner.ends c.runner = true := by
    by_contra fresh
    have unended := (settled.fresh incomplete (by simpa using fresh)).2
    simp [unended] at ready
  match at' : c.runner with
  | some (.storing result) =>
    have stored := (settled.storing result at').2
    rw [results] at stored
    obtain rfl : Except.ok value = result := (List.cons.inj stored).1
    exact .inl rfl
  | some .completing => exact .inr rfl
  | none | some .polling | some .cancelling | some .discarding | some .wakingJoin | some .releasing
  | some (.terminal _) => simp [at', Runner.ends] at ends

theorem store_next {result : Except JoinError V} (storing : c.runner = some (.storing result)) :
    ∃ d, c.store = .next d ∧ d.runner = some .completing := by
  simp [Cell.store, storing]

theorem complete_next (sound : Sound c) (completing : c.runner = some .completing) :
    ∃ d, c.complete = .next d ∧ d.state.isComplete = true := by
  have running : c.state.has .running = true := by
    rw [sound.scheduled.running, completing]
    rfl
  have incomplete := sound.scheduled.exclusive running
  simp only [Cell.complete, completing, transitionToComplete_eq running incomplete, Outcome.attempt_ok]
  exact ⟨_, rfl, by simp [Snapshot.isComplete, incomplete]⟩

theorem join_next (sound : Sound c) (willWake : Bool) (complete : c.state.has .complete = true)
    (held : c.join = .held) (unread : c.handed = []) :
    ∃ d e result, c.canReadOutput willWake = .next d ∧ d.takeOutput = .next e ∧ e.handed = [result] ∧
      c.results = [result] := by
  have settled := sound.settled
  have interested : c.state.has .joinInterest = true := by
    have fits := sound.joined.fits
    rw [held] at fits
    exact fits
  obtain ⟨result, stage, results⟩ := settled.ended complete
  have present := settled.unread complete interested (by rw [held]; rfl) unread
  have finished : c.stage = .finished result := stage.resolve_right present
  refine ⟨{ c with join := .reading }, { c with stage := .consumed, handed := c.handed ++ [result], join := .held },
    result, ?_, ?_, ?_, results⟩
  · simp [Cell.canReadOutput, held, Snapshot.isJoinInterested, interested, Snapshot.isComplete, complete]
  · simp [Cell.takeOutput, finished]
  · simp [unread]

end Answers

theorem future_and_output (reached : (machine V).Reachable c) :
    -- the future
    (c.live < 2 ^ 56 → ∀ a fault, c.step a ≠ .failed fault) ∧
    (c.runner = some .polling → c.state.isRunning = true ∧ c.stage = .running ∧ c.endings = []) ∧
    c.endings.length ≤ 1 ∧
    c.futureDrops + c.stage.futures = 1 ∧
    (c.endings ≠ [] ∨ c.state.isComplete = true ∨ c.deallocs = 1 → c.futureDrops = 1) ∧
    -- the result
    c.writes ≤ 1 ∧
    (c.state.isComplete = true → c.writes = 1) ∧
    c.writes = c.handed.length + c.outputDrops + c.stage.outputs ∧
    (c.deallocs = 1 → c.handed.length + c.outputDrops = 1) ∧
    (∀ result, c.stage = .finished result ∨ result ∈ c.handed → c.results = [result]) ∧
    -- a task whose poll returned Ready(value)
    (∀ value, .ready value false ∈ c.endings →
      (∀ result, c.stage = .finished result ∨ result ∈ c.handed → result = .ok value) ∧
      (c.state.isComplete = false →
        (∃ d, c.step .store = .next d ∧ d.runner = some .completing) ∨
        (∃ d, c.step .complete = .next d ∧ d.state.isComplete = true)) ∧
      (c.state.isComplete = true → c.join = .held → c.handed = [] → ∀ willWake, ∃ d e,
        c.step (.canReadOutput willWake) = .next d ∧ d.step .takeOutput = .next e ∧ e.handed = [.ok value])) := by
  have sound := reachable_sound reached
  have scheduled := sound.scheduled
  have settled := sound.settled
  have done : c.deallocs = 1 → c.state.has .complete = true ∧ c.stage = .consumed := by
    intro freed
    have spent : c.live = 0 := by
      by_contra alive
      rw [sound.counted.freed, if_neg alive] at freed
      omega
    exact (spent_done scheduled settled spent).2.2
  have writes : c.writes ≤ 1 := by
    by_cases written : c.state.has .complete = true ∨ c.runner = some .completing
    · exact (settled.written written).le
    · simp only [not_or, Bool.not_eq_true] at written
      exact (settled.unwritten written.1 written.2).trans_le (Nat.zero_le 1)
  refine ⟨?_, ?_, sound.endings_single, settled.future, ?_, writes, ?_, settled.output, ?_,
    fun _ => sound.stored, ?_⟩
  · intro within a
    exact (step_stepped a sound within).sound
  · intro polling
    have running : c.state.has .running = true := by
      rw [scheduled.running, polling]
      rfl
    exact ⟨running, settled.fresh (scheduled.exclusive running) (by rw [polling]; rfl)⟩
  · rintro (ended | complete | freed)
    · exact sound.dropped (.inl ended)
    · exact sound.dropped (.inr complete)
    · exact sound.dropped (.inr (done freed).1)
  · intro complete
    exact settled.written (.inl complete)
  · intro freed
    obtain ⟨complete, consumed⟩ := done freed
    have written := settled.written (.inl complete)
    have output := settled.output
    rw [consumed, Stage.outputs] at output
    omega
  · intro value ready
    have results := sound.answered ready
    refine ⟨?_, ?_, ?_⟩
    · intro result stored
      have same := sound.stored stored
      rw [results] at same
      exact (List.cons.inj same).1.symm
    · intro incomplete
      rcases sound.answering ready incomplete with storing | completing
      · exact .inl (store_next storing)
      · exact .inr (complete_next sound completing)
    · intro complete held unread willWake
      obtain ⟨d, e, result, polled, taken, handed, same⟩ := join_next sound willWake complete held unread
      rw [results] at same
      obtain rfl : Except.ok value = result := (List.cons.inj same).1
      exact ⟨d, e, polled, taken, handed⟩

theorem exampleRun_answers :
    ((machine Nat).run (Cell.spawn false) exampleRun).map (fun c => (c.writes, c.handed.length, c.deallocs)) =
      some (1, 1, 1) := by
  decide +kernel

theorem future_and_output_run : ∃ c : Cell Nat, c.deallocs = 1 ∧ c.futureDrops = 1 ∧ c.handed.length = 1 ∧
    c.outputDrops = 0 := by
  obtain ⟨c, ran, answers⟩ := Option.map_eq_some_iff.mp exampleRun_answers
  have reached := System.reachable_run _ (spawn_reachable false) ran
  obtain ⟨_, _, _, _, dropped, _, _, _, settled, _⟩ := future_and_output reached
  simp only [Prod.mk.injEq] at answers
  obtain ⟨_, handed, freed⟩ := answers
  have outputs := settled freed
  exact ⟨c, freed, dropped (.inr (.inr freed)), handed, by omega⟩

end Osaka.Task
