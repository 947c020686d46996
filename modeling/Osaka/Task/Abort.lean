import Osaka.Task.Cancellation
import Osaka.Task.Lifecycle
import Osaka.Task.Wakeups

set_option autoImplicit false

namespace Osaka.Task

open Transitions

variable {V : Type} {c d e : Cell V} {a : Action V}

def Action.endsPoll : Action V → Bool
  | .pollPending | .pollReady _ _ | .pollPanic => true
  | _ => false

section Polls

theorem endsPoll_away (ends : a.endsPoll = true) (next : c.step a = .next d) : d.runner ≠ some .polling := by
  cases a <;> simp only [Action.endsPoll, Bool.false_eq_true] at ends
  case pollPending =>
    have away : c.pollPending.Leads fun d => d.runner ≠ some .polling := by
      unfold Cell.pollPending
      split
      next =>
        apply Outcome.Leads.attempt
        rintro ⟨action, state⟩ _
        cases action with
        | ok | okNotified | okDealloc | cancelled => exact (nomatch ·)
      next => trivial
    exact away.next next
  case pollReady value panics =>
    have away : (c.pollReady value panics).Leads fun d => d.runner ≠ some .polling := by
      unfold Cell.pollReady
      split
      next => exact (nomatch ·)
      next => trivial
    exact away.next next
  case pollPanic =>
    have away : c.pollPanic.Leads fun d => d.runner ≠ some .polling := by
      unfold Cell.pollPanic
      split
      next => exact (nomatch ·)
      next => trivial
    exact away.next next

theorem runNotified_cancels (sound : Sound c) (cancelled : c.state.has .cancelled = true) (present : 0 < c.notified)
    (idle : c.state.has .running = false) (incomplete : c.state.has .complete = false) :
    ∃ d, c.runNotified = .next d ∧ d.runner = some .cancelling ∧ d.endings = c.endings := by
  have notified := sound.scheduled.flagged present
  have away := sound.scheduled.away idle incomplete
  refine ⟨{ c with
    state := (c.state.set .running).unset .notified
    notified := c.notified - 1
    runner := some .cancelling }, ?_, rfl, rfl⟩
  unfold Cell.runNotified
  rw [if_neg (by omega), transitionToRunning_idle notified idle incomplete, if_pos cancelled, Outcome.attempt_ok]
  simp only [Cell.lock, away]

theorem runNotified_busy (sound : Sound c) (busy : c.state.has .running = true ∨ c.state.has .complete = true) :
    c.runNotified.Leads fun d => d.runner = c.runner := by
  unfold Cell.runNotified
  split
  next => trivial
  next absent =>
    have present : 0 < c.notified := by omega
    have held : 0 < c.state.refCount := by
      simp only [sound.counted.references, Cell.live]
      omega
    rw [transitionToRunning_busy (sound.scheduled.flagged present) busy held, Outcome.attempt_ok]
    by_cases one : c.state.refCount = 1
    · simp only [one, if_true]
      exact rfl
    · simp only [one, if_false]
      exact rfl

theorem step_unstarted (sound : Sound c) (cancelled : c.state.has .cancelled = true) (next : c.step a = .next d)
    (polling : d.runner = some .polling) : c.runner = some .polling := by
  by_cases runs : a = .runNotified
  · subst runs
    change c.runNotified = .next d at next
    by_cases busy : c.state.has .running = true ∨ c.state.has .complete = true
    · rw [← (runNotified_busy sound busy).next next]
      exact polling
    · simp only [not_or, Bool.not_eq_true] at busy
      have present : 0 < c.notified := by
        by_contra absent
        simp [Cell.runNotified, Nat.eq_zero_of_not_pos absent] at next
      obtain ⟨e, stepped, cancelling, _⟩ := runNotified_cancels sound cancelled present busy.1 busy.2
      rw [next, Outcome.next.injEq] at stepped
      rw [stepped, cancelling] at polling
      cases polling
  · by_cases drops : a = .dropNotified
    · subst drops
      rw [← (dropNotified_consumes.next next).2]
      exact polling
    · by_cases shuts : a = .shutdown
      · subst shuts
        exact (shutdown_cancels.next next).2.2.1 polling
      · by_cases pops : a = .popOwned
        · subst pops
          have same : c.popOwned.Leads fun d => d.runner = c.runner := by
            unfold Cell.popOwned
            split
            next => exact rfl
            next => trivial
          rw [← same.next next]
          exact polling
        · exact ((step_effect a runs drops pops shuts).next next).polling polling

end Polls

section Endings

inductive Ends (c : Cell V) (a : Action V) (d : Cell V) : Prop where
  | same : d.endings = c.endings → Ends c a d
  | ready {value : V} {panics : Bool} : c.runner = some .polling → a = .pollReady value panics →
    d.endings = c.endings ++ [.ready value panics] → Ends c a d
  | panicked : c.runner = some .polling → a = .pollPanic → d.endings = c.endings ++ [.panicked] → Ends c a d
  | cancelled {panics : Bool} : c.runner = some .cancelling → d.endings = c.endings ++ [.cancelled panics] →
    Ends c a d

theorem Proceeds.ends {owner : Owner} (proceeds : Proceeds owner c d) : Ends c a d := by
  have away : c.runner ≠ some .polling := by
    intro polling
    have remaining := proceeds.remaining
    simp [polling, Runner.remaining] at remaining
  rcases proceeds.effect.endings away with same | ⟨cancelling, panics, ended⟩
  · exact .same same
  · exact .cancelled cancelling ended

theorem pollPending_endings : c.pollPending.Leads fun d => d.endings = c.endings := by
  unfold Cell.pollPending
  split
  next =>
    apply Outcome.Leads.attempt
    rintro ⟨action, state⟩ _
    cases action with
    | ok | okNotified | okDealloc | cancelled => exact rfl
  next => trivial

theorem popOwned_endings : c.popOwned.Leads fun d => d.endings = c.endings := by
  unfold Cell.popOwned
  split
  next => exact rfl
  next => trivial

theorem pollReady_ends (value : V) (panics : Bool) :
    (c.pollReady value panics).Leads (Ends c (.pollReady value panics)) := by
  unfold Cell.pollReady
  split
  next polling => exact .ready polling rfl rfl
  next => trivial

theorem pollPanic_ends : c.pollPanic.Leads (Ends c .pollPanic) := by
  unfold Cell.pollPanic
  split
  next polling => exact .panicked polling rfl rfl
  next => trivial

theorem step_ends (next : c.step a = .next d) : Ends c a d := by
  cases a with
  | runNotified => exact .same (runNotified_consumes.next next).2.2
  | dropNotified => exact .same (dropNotified_consumes.next next).1.endings
  | pollPending => exact .same (pollPending_endings.next next)
  | pollReady value panics => exact (pollReady_ends value panics).next next
  | pollPanic => exact pollPanic_ends.next next
  | cancelTask panics => exact ((cancelTask_proceeds panics).next next).ends
  | store => exact (store_proceeds.next next).ends
  | complete => exact (complete_proceeds.next next).ends
  | discard => exact (discard_proceeds.next next).ends
  | wakeJoin => exact (wakeJoin_proceeds.next next).ends
  | release => exact (release_proceeds.next next).ends
  | terminate => exact (terminate_proceeds.next next).ends
  | wakeByVal => exact .same (wakeByVal_submits.next next).endings
  | wakeByRef => exact .same (wakeByRef_submits.next next).endings
  | cloneWaker => exact .same (cloneWaker_frame.next next).endings
  | dropWaker => exact .same (dropWaker_frame.next next).endings
  | finishDrop => exact .same (finishDrop_frame.next next).endings
  | popOwned => exact .same (popOwned_endings.next next)
  | shutdown => exact .same (shutdown_cancels.next next).2.1
  | remoteAbort => exact .same (remoteAbort_submits.next next).endings
  | canReadOutput willWake => exact .same ((canReadOutput_frame willWake).next next).endings
  | unsetJoinWaker => exact .same (unsetJoinWaker_frame.next next).endings
  | setJoinWaker => exact .same (setJoinWaker_frame.next next).endings
  | unwindJoin => exact .same (unwindJoin_frame.next next).endings
  | takeOutput => exact .same (takeOutput_frame.next next).endings
  | dropJoinHandle spurious => exact .same ((dropJoinHandle_frame spurious).next next).endings
  | dropJoinHandleSlow => exact .same (dropJoinHandleSlow_frame.next next).endings
  | dropJoinOutput => exact .same (dropJoinOutput_frame.next next).endings
  | dropJoinReference => exact .same (dropJoinReference_frame.next next).endings

end Endings

section Runs

/-- What is known after an abort that met the task in state `c`, once the steps `past` have followed it. -/
structure Aborted (c : Cell V) (past : List (Action V)) (d : Cell V) : Prop where
  cancelled : d.state.has .cancelled = true
  polling : d.runner = some .polling → c.runner = some .polling ∧ ∀ a ∈ past, a.endsPoll = false
  endings : d.endings = c.endings ∨ (∃ panics, d.endings = [.cancelled panics]) ∨
    c.runner = some .polling ∧
      ((∃ value panics, .pollReady value panics ∈ past ∧ d.endings = [.ready value panics]) ∨
        .pollPanic ∈ past ∧ d.endings = [.panicked])

theorem Sound.unended (sound : Sound c) (before : c.runner = some .polling ∨ c.runner = some .cancelling) :
    c.endings = [] := by
  have locks : Runner.locks c.runner = true ∧ Runner.ends c.runner = false := by
    rcases before with polling | cancelling
    · rw [polling]
      exact ⟨rfl, rfl⟩
    · rw [cancelling]
      exact ⟨rfl, rfl⟩
  have running : c.state.has .running = true := by rw [sound.scheduled.running, locks.1]
  exact (sound.settled.fresh (sound.scheduled.exclusive running) locks.2).2

theorem step_cancelled (cancelled : c.state.has .cancelled = true) (next : c.step a = .next d) :
    d.state.has .cancelled = true := by
  by_cases aborts : a = .remoteAbort
  · subst aborts
    change c.remoteAbort = .next d at next
    cases held : c.join with
    | held =>
      rw [remoteAbort_noop held (.inl cancelled), Outcome.next.injEq] at next
      exact next ▸ cancelled
    | unsetting | setting | reading | dropping | droppingOutput | releasing | gone =>
      simp [Cell.remoteAbort, held] at next
  · by_cases shuts : a = .shutdown
    · subst shuts
      exact (shutdown_cancels.next next).1
    · rw [(step_keeps a (a.touches_cancelled aborts shuts)).next next]
      exact cancelled

theorem Aborted.step {past : List (Action V)} (aborted : Aborted c past d) (sound : Sound d)
    (next : d.step a = .next e) : Aborted c (past ++ [a]) e := by
  obtain ⟨cancelled, polling, endings⟩ := aborted
  constructor
  · exact step_cancelled cancelled next
  · intro polls
    obtain ⟨before, unended⟩ := polling (step_unstarted sound cancelled next polls)
    refine ⟨before, ?_⟩
    intro b present
    rcases List.mem_append.mp present with earlier | last
    · exact unended b earlier
    · obtain rfl : b = a := List.mem_singleton.mp last
      cases ends : b.endsPoll with
      | false => rfl
      | true => exact absurd polls (endsPoll_away ends next)
  · cases step_ends next with
    | same same =>
      rw [same]
      rcases endings with same | cancels | ⟨polls, ⟨value, panics, answered, ended⟩ | ⟨panicked, ended⟩⟩
      · exact .inl same
      · exact .inr (.inl cancels)
      · exact .inr (.inr ⟨polls, .inl ⟨value, panics, List.mem_append_left _ answered, ended⟩⟩)
      · exact .inr (.inr ⟨polls, .inr ⟨List.mem_append_left _ panicked, ended⟩⟩)
    | @ready value panics polls answered ended =>
      rw [sound.unended (.inl polls), List.nil_append] at ended
      refine .inr (.inr ⟨(polling polls).1, .inl ⟨value, panics, ?_, ended⟩⟩)
      simp [answered]
    | panicked polls panicked ended =>
      rw [sound.unended (.inl polls), List.nil_append] at ended
      refine .inr (.inr ⟨(polling polls).1, .inr ⟨?_, ended⟩⟩)
      simp [panicked]
    | @cancelled panics cancels ended =>
      rw [sound.unended (.inr cancels), List.nil_append] at ended
      exact .inr (.inl ⟨panics, ended⟩)

theorem Aborted.run {past steps : List (Action V)} (aborted : Aborted c past d) (sound : Sound d)
    (ran : (machine V).run d steps = some e) : Aborted c (past ++ steps) e := by
  induction steps generalizing past d with
  | nil =>
    obtain rfl : d = e := Option.some.inj ran
    simpa using aborted
  | cons a rest ih =>
    obtain ⟨d', within, next, ran'⟩ := (machine V).run_cons ran
    have sound' := ((step_stepped a sound within).next next).sound
    simpa using ih (aborted.step sound next) sound' ran'

theorem remoteAbort_next (sound : Sound c) (marked : Marked c) (within : c.live < 2 ^ 56) (held : c.join = .held) :
    ∃ d, c.remoteAbort = .next d ∧ (c.state.has .complete = true → d = c) ∧
      d.notified = (if c.state.isIdle && !c.state.has .notified then c.notified + 1 else c.notified) ∧
      (c.state.has .complete = false → Aborted c [] d) := by
  by_cases noop : c.state.has .cancelled = true ∨ c.state.has .complete = true
  · refine ⟨c, remoteAbort_noop held noop, fun _ => rfl, ?_, ?_⟩
    · have settled : (c.state.isIdle && !c.state.has .notified) = false := by
        have known : c.state.has .running = true ∨ c.state.has .complete = true ∨ c.state.has .notified = true :=
          noop.elim marked fun complete => .inr (.inl complete)
        rcases known with running | complete | notified
        · simp [Snapshot.isIdle_eq, running]
        · simp [Snapshot.isIdle_eq, complete]
        · simp [notified]
      rw [settled]
      rfl
    · intro incomplete
      have cancelled := noop.resolve_right (by simp [incomplete])
      exact ⟨cancelled, fun polling => ⟨polling, by simp⟩, .inl rfl⟩
  · simp only [not_or, Bool.not_eq_true] at noop
    obtain ⟨uncancelled, incomplete⟩ := noop
    obtain ⟨d, next, aborts⟩ := remoteAbort_aborts sound within held incomplete uncancelled
    refine ⟨d, next, by simp [incomplete], aborts.notified, fun _ => ⟨aborts.cancelled, ?_, .inl aborts.endings⟩⟩
    intro polling
    exact ⟨aborts.runner ▸ polling, by simp⟩

theorem cancelling_completes (sound : Sound c) (within : c.live < 2 ^ 56) (cancelling : c.runner = some .cancelling)
    (panics : Bool) : ∃ d, (machine V).run c [.cancelTask panics, .store, .complete] = some d ∧
      d.state.isComplete = true ∧ d.endings = [.cancelled panics] := by
  have unended := sound.unended (.inr cancelling)
  have cancels : c.step (.cancelTask panics) = .next (c.endFuture (.cancelled panics)) := by
    simp [Cell.step, Cell.cancelTask, cancelling]
  have ended := cancelTask_proceeds panics |>.next cancels
  have sound' := ((step_stepped _ sound within).next cancels).sound
  have within' := lt_of_le_of_lt ended.live within
  obtain ⟨d, stores, completing⟩ := store_next (c := c.endFuture (.cancelled panics)) rfl
  have stored := store_proceeds.next stores
  have sound'' := ((step_stepped .store sound' within').next stores).sound
  have within'' := lt_of_le_of_lt stored.live within'
  obtain ⟨e, completes, complete⟩ := complete_next sound'' completing
  have endings : e.endings = [.cancelled panics] := by
    have first : (c.endFuture (.cancelled panics)).endings = [.cancelled panics] := by
      simp [Cell.endFuture, unended]
    have second : d.endings = (c.endFuture (.cancelled panics)).endings := by
      rcases stored.effect.endings (by simp [Cell.endFuture]) with same | ⟨at', _⟩
      · exact same
      · simp [Cell.endFuture] at at'
    have third : e.endings = d.endings := by
      rcases (complete_proceeds.next completes).effect.endings (by simp [completing]) with same | ⟨at', _⟩
      · exact same
      · simp [completing] at at'
    rw [third, second, first]
  refine ⟨e, ?_, complete, endings⟩
  have machine_step (s : Cell V) (b : Action V) : (machine V).step s b = s.step b := rfl
  have storing : (c.endFuture (.cancelled panics)).step .store = .next d := stores
  have last : d.step .complete = .next e := completes
  simp only [System.run, machine_step, cancels, storing, last]
  have inside : (machine V).within c := within
  have inside' : (machine V).within (c.endFuture (.cancelled panics)) := within'
  have inside'' : (machine V).within d := within''
  rw [if_pos inside, if_pos inside', if_pos inside'']

/-- While the future of an aborted task has not ended, what comes next cancels it. -/
theorem Aborted.pending {past : List (Action V)} (aborted : Aborted c past d) (sound : Sound d) (marked : Marked d)
    (within : d.live < 2 ^ 56) (unended : d.endings = []) :
    d.runner = none ∧ (d.unrun = true ∨
      d.notified = 1 ∧ ∃ e, d.runNotified = .next e ∧ e.runner = some .cancelling) ∨
    d.runner = some .polling ∧ (∃ e, d.pollPending = .next e ∧ e.runner = some .cancelling) ∨
    d.runner = some .cancelling ∧ ∀ panics, ∃ e,
      (machine V).run d [.cancelTask panics, .store, .complete] = some e ∧ e.state.isComplete = true ∧
        e.endings = [.cancelled panics] := by
  have settled := sound.settled
  have scheduled := sound.scheduled
  have unfit (result : Except JoinError V) : d.results ≠ [result] := by simp [Cell.results, unended]
  have incomplete : d.state.has .complete = false := by
    cases complete : d.state.has .complete with
    | false => rfl
    | true =>
      obtain ⟨result, _, ended⟩ := settled.ended complete
      exact absurd ended (unfit result)
  have unfinished : Runner.finishes d.runner = false := by
    cases finishes : Runner.finishes d.runner with
    | false => rfl
    | true => simp [scheduled.finishing finishes] at incomplete
  cases at' : d.runner with
  | none =>
    have unlocked : d.state.has .running = false := by rw [scheduled.running, at']; rfl
    have notified := (marked aborted.cancelled).resolve_left (by simp [unlocked])
    have notified' := notified.resolve_left (by simp [incomplete])
    refine .inl ⟨rfl, ?_⟩
    rcases scheduled.idle unlocked incomplete notified' with present | unrun
    · obtain ⟨e, next, cancelling, _⟩ := runNotified_cancels sound aborted.cancelled present unlocked incomplete
      have single := scheduled.single
      exact .inr ⟨by omega, e, next, cancelling⟩
    · exact .inl unrun
  | some runner =>
    cases runner with
    | polling => exact .inr (.inl ⟨rfl, _, pollPending_aborted sound at' aborted.cancelled, rfl⟩)
    | cancelling => exact .inr (.inr ⟨rfl, cancelling_completes sound within at'⟩)
    | storing result => exact absurd (settled.storing result at').2 (unfit result)
    | completing =>
      obtain ⟨result, _, ended⟩ := settled.completing at'
      exact absurd ended (unfit result)
    | discarding | wakingJoin | releasing | terminal _ => simp [at', Runner.finishes] at unfinished

end Runs

/-- What the JoinHandle gets for an end of the future, once an abort has met the task in state `c` and `steps` have
followed it: the cancellation, unless the poll that the abort met, or one before it, has ended the future itself. -/
inductive Answer (c : Cell V) (steps : List (Action V)) : Ending V → Except JoinError V → Prop where
  | cancelled : Answer c steps (.cancelled false) (.error .cancelled)
  | destructor : Answer c steps (.cancelled true) (.error .panic)
  | before {ending : Ending V} : ending ∈ c.endings → Answer c steps ending ending.result
  | ready {value : V} {panics : Bool} : c.runner = some .polling → .pollReady value panics ∈ steps →
    Answer c steps (.ready value panics) (if panics then .error .panic else .ok value)
  | panicked : c.runner = some .polling → .pollPanic ∈ steps → Answer c steps .panicked (.error .panic)

theorem Aborted.answer {past : List (Action V)} {ending : Ending V} (aborted : Aborted c past d)
    (ended : d.endings = [ending]) : Answer c past ending ending.result := by
  rcases aborted.endings with same | ⟨panics, cancelled⟩ | ⟨polling, ⟨value, panics, answered, ready⟩ | ⟨panicked, same⟩⟩
  · apply Answer.before
    simp [← same, ended]
  · obtain rfl : ending = .cancelled panics := by simpa [ended] using cancelled
    cases panics with
    | false => exact .cancelled
    | true => exact .destructor
  · obtain rfl : ending = .ready value panics := by simpa [ended] using ready
    cases panics with
    | false => exact .ready polling answered
    | true => exact .ready polling answered
  · obtain rfl : ending = .panicked := by simpa [ended] using same
    exact .panicked polling panicked

theorem abort_carried_out (reached : (machine V).Reachable c) (within : c.live < 2 ^ 56) (held : c.join = .held) :
    ∃ d, c.step .remoteAbort = .next d ∧
      (c.state.isComplete = true → d = c) ∧
      -- what it submits; a Notified that was dropped unrun still counts
      (c.state.isIdle = true → c.notified = 0 → c.unrun = false → d.notified = 1) ∧
      (c.state.isIdle = false ∨ 0 < c.notified ∨ c.unrun = true → d.notified = c.notified) ∧
      (c.state.isComplete = false → ∀ steps e, (machine V).run d steps = some e → e.live < 2 ^ 56 →
        -- only the poll in progress goes on
        (e.runner = some .polling → c.runner = some .polling ∧ ∀ a ∈ steps, a.endsPoll = false) ∧
        (e.join = .held → e.step .remoteAbort = .next e) ∧
        -- the next run, or the end of the poll, drops the future
        (e.endings = [] →
          e.runner = none ∧ (e.unrun = true ∨
            e.notified = 1 ∧ ∃ f, e.step .runNotified = .next f ∧ f.runner = some .cancelling) ∨
          e.runner = some .polling ∧ (∃ f, e.step .pollPending = .next f ∧ f.runner = some .cancelling) ∨
          e.runner = some .cancelling ∧ ∀ panics, ∃ f,
            (machine V).run e [.cancelTask panics, .store, .complete] = some f ∧ f.state.isComplete = true ∧
              f.endings = [.cancelled panics]) ∧
        (e.endings ≠ [] → e.futureDrops = 1) ∧
        -- the result
        (∀ result, e.stage = .finished result ∨ result ∈ e.handed →
          ∃ ending, e.endings = [ending] ∧ Answer c steps ending result) ∧
        (e.state.isComplete = true → e.join = .held → e.handed = [] → ∀ willWake, ∃ f g ending result,
          e.step (.canReadOutput willWake) = .next f ∧ f.step .takeOutput = .next g ∧ g.handed = [result] ∧
            e.endings = [ending] ∧ Answer c steps ending result)) := by
  have sound := reachable_sound reached
  have scheduled := sound.scheduled
  obtain ⟨d, next, same, submits, aborts⟩ := remoteAbort_next sound (reachable_marked reached) within held
  have stepped : (machine V).step c .remoteAbort = .next d := next
  have after : (machine V).Reachable d := reached.step within stepped
  refine ⟨d, next, same, ?_, ?_, ?_⟩
  · intro idle absent run
    have unlocked : c.state.has .running = false ∧ c.state.has .complete = false := by
      simpa [Snapshot.isIdle_eq] using idle
    have quiet : c.state.has .notified = false := by
      cases notified : c.state.has .notified with
      | false => rfl
      | true =>
        rcases scheduled.idle unlocked.1 unlocked.2 notified with present | unrun
        · omega
        · simp [run] at unrun
    simp [submits, idle, quiet, absent]
  · intro kept
    have settled : (c.state.isIdle && !c.state.has .notified) = false := by
      rcases kept with busy | present | unrun
      · simp [busy]
      · simp [scheduled.flagged present]
      · simp [(scheduled.unrun unrun).2]
    rw [submits, settled]
    rfl
  · intro incomplete steps e ran within'
    have reached' := System.reachable_run _ after ran
    have sound' := reachable_sound reached'
    have aborted : Aborted c steps e := by simpa using (aborts incomplete).run (reachable_sound after) ran
    have answers {result : Except JoinError V} (results : e.results = [result]) :
        ∃ ending, e.endings = [ending] ∧ Answer c steps ending result := by
      obtain ⟨ending, ended, rfl⟩ := List.map_eq_singleton_iff.mp results
      exact ⟨ending, ended, aborted.answer ended⟩
    refine ⟨aborted.polling, fun held' => remoteAbort_noop held' (.inl aborted.cancelled),
      aborted.pending sound' (reachable_marked reached') within', fun ended => sound'.dropped (.inl ended),
      fun result stored => answers (sound'.stored stored), ?_⟩
    intro complete held' unread willWake
    obtain ⟨f, g, result, polled, taken, handed, results⟩ := join_next sound' willWake complete held' unread
    obtain ⟨ending, ended, answer⟩ := answers results
    exact ⟨f, g, ending, result, polled, taken, handed, ended, answer⟩

theorem abort_carried_out_run : ∃ e f g : Cell Nat, e.futureDrops = 1 ∧ e.step (.canReadOutput true) = .next f ∧
    f.step .takeOutput = .next g ∧ g.handed = [.error .cancelled] := by
  obtain ⟨c, started, held, polling, unended⟩ : ∃ c : Cell Nat,
      (machine Nat).run (Cell.spawn false) [.runNotified] = some c ∧ c.join = .held ∧
        c.runner = some .polling ∧ c.endings = [] := ⟨_, rfl, rfl, rfl, rfl⟩
  have reached := System.reachable_run _ (spawn_reachable false) started
  obtain ⟨e, ran, small, ended, complete, held', unread⟩ : ∃ e : Cell Nat,
      (machine Nat).run (Cell.spawn false) [.runNotified, .remoteAbort, .pollPending, .cancelTask false, .store,
        .complete, .release, .terminate] = some e ∧ e.live < 2 ^ 56 ∧ e.endings = [.cancelled false] ∧
        e.state.isComplete = true ∧ e.join = .held ∧ e.handed = [] :=
    ⟨_, rfl, by decide +kernel, rfl, rfl, rfl, rfl⟩
  obtain ⟨c', _, begun, ran⟩ := (machine Nat).run_cons ran
  obtain ⟨c'', _, begun', first⟩ := (machine Nat).run_cons started
  obtain rfl : c'' = c := Option.some.inj first
  obtain rfl : c'' = c' := by simpa [begun'] using begun
  obtain ⟨d', within, aborted, ran⟩ := (machine Nat).run_cons ran
  obtain ⟨d, next, _, _, _, later⟩ := abort_carried_out reached within held
  obtain rfl : d' = d := Outcome.next.inj (aborted.symm.trans next)
  have incomplete : c''.state.isComplete = false := by
    have locked := (reachable_sound reached).scheduled
    exact locked.exclusive (by rw [locked.running, polling]; rfl)
  obtain ⟨_, _, _, dropped, _, answers⟩ := later incomplete _ e ran small
  obtain ⟨f, g, ending, result, polled, taken, handed, ended', answer⟩ := answers complete held' unread true
  refine ⟨e, f, g, dropped (by simp [ended]), polled, taken, ?_⟩
  obtain rfl : ending = .cancelled false := by simpa [ended] using ended'.symm
  cases answer with
  | cancelled => exact handed
  | before present => simp [unended] at present

theorem abort_meets_panic :
    -- the poll that the abort meets panics
    (∃ e : Cell Nat, (machine Nat).run (Cell.spawn false) [.runNotified, .remoteAbort, .pollPanic, .store, .complete,
      .release, .terminate, .canReadOutput false, .takeOutput] = some e ∧ e.endings = [.panicked] ∧
        e.handed = [.error .panic]) ∧
    -- the one Notified was dropped unrun
    (∃ c d : Cell Nat, (machine Nat).run (Cell.spawn false) [.dropNotified] = some c ∧ c.state.isIdle = true ∧
      c.notified = 0 ∧ c.step .remoteAbort = .next d ∧ d.notified = 0) :=
  ⟨⟨_, rfl, rfl, rfl⟩, ⟨_, _, rfl, rfl, rfl, rfl, rfl⟩⟩

end Osaka.Task
