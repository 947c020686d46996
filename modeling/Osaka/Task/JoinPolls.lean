import Osaka.Task.JoinWakers
import Osaka.Task.Lifecycle

set_option autoImplicit false

namespace Osaka.Task

open Transitions

section JoinHandle

variable {V : Type} {c d : Cell V}

theorem canReadOutput_complete (sound : Sound c) (willWake : Bool) (held : c.join = .held)
    (complete : c.state.has .complete = true) : c.canReadOutput willWake = .next { c with join := .reading } := by
  have interested : c.state.has .joinInterest = true := by
    have fits := sound.joined.fits
    rw [held] at fits
    exact fits
  simp [Cell.canReadOutput, held, Snapshot.isJoinInterested, interested, Snapshot.isComplete, complete]

theorem canReadOutput_swap (sound : Sound c) (held : c.join = .held) (incomplete : c.state.has .complete = false)
    (waker : c.state.has .joinWaker = true) :
    c.canReadOutput true = .next c ∧ c.canReadOutput false = .next { c with join := .unsetting } := by
  have interested : c.state.has .joinInterest = true := by
    have fits := sound.joined.fits
    rw [held] at fits
    exact fits
  have present := sound.joined.waker waker incomplete
  constructor <;>
    simp [Cell.canReadOutput, held, Snapshot.isJoinInterested, interested, Snapshot.isComplete, incomplete,
      Snapshot.hasJoinWaker, waker, present]

theorem canReadOutput_store (sound : Sound c) (willWake : Bool) (held : c.join = .held)
    (incomplete : c.state.has .complete = false) (bare : c.state.has .joinWaker = false) :
    c.canReadOutput willWake = .next { c with joinWaker := true, join := .setting } := by
  have interested : c.state.has .joinInterest = true := by
    have fits := sound.joined.fits
    rw [held] at fits
    exact fits
  simp [Cell.canReadOutput, held, Snapshot.isJoinInterested, interested, Snapshot.isComplete, incomplete,
    Snapshot.hasJoinWaker, bare, Cell.storeJoinWaker]

theorem unsetJoinWaker_next (sound : Sound c) (unsetting : c.join = .unsetting) :
    c.unsetJoinWaker = .next (if c.state.has .complete then { c with join := .reading } else
      { c with state := c.state.unset .joinWaker, joinWaker := true, join := .setting }) := by
  have known : c.state.has .joinInterest = true ∧ c.state.has .joinWaker = true := by
    have fits := sound.joined.fits
    rw [unsetting] at fits
    simpa [Join.fits] using fits
  simp only [Cell.unsetJoinWaker, unsetting, unsetWaker_eq known.1 known.2, Outcome.attempt_ok]
  cases complete : c.state.has .complete with
  | true => simp [Cell.readAfter, Snapshot.isComplete, complete]
  | false =>
    simp [Cell.storeJoinWaker, Snapshot.isJoinInterested, Snapshot.hasJoinWaker, known]

theorem setJoinWaker_next (sound : Sound c) (setting : c.join = .setting) :
    c.setJoinWaker = .next (if c.state.has .complete then { c with joinWaker := false, join := .reading } else
      { c with state := c.state.set .joinWaker, join := .held }) := by
  have known : c.state.has .joinInterest = true ∧ c.state.has .joinWaker = false := by
    have fits := sound.joined.fits
    rw [setting] at fits
    simpa [Join.fits] using fits
  simp only [Cell.setJoinWaker, setting, setJoinWaker_eq known.1 known.2, Outcome.attempt_ok]
  cases complete : c.state.has .complete with
  | true => simp [Cell.readAfter, Snapshot.isComplete, complete]
  | false => simp

theorem complete_wakes (sound : Sound c) (interested : c.state.has .joinInterest = true)
    (waker : c.state.has .joinWaker = true) (next : c.complete = .next d) : d.runner = some .wakingJoin := by
  unfold Cell.complete at next
  split at next
  next completing =>
    have running : c.state.has .running = true := by
      rw [sound.scheduled.running, completing]
      rfl
    rw [transitionToComplete_eq running (sound.scheduled.exclusive running), Outcome.attempt_ok,
      Outcome.next.injEq] at next
    rw [← next]
    simp [Snapshot.isJoinInterested, Snapshot.hasJoinWaker, interested, waker]
  next => simp at next

theorem wakeJoin_next (sound : Sound c) (waking : c.runner = some .wakingJoin) :
    c.wakeJoin = .next { c with runner := some .releasing } := by
  simp [Cell.wakeJoin, waking, (sound.joined.waking waking).2]

end JoinHandle

section Wakers

variable {V W : Type} {j k : Joining V W} {w : W}

structure Placed (j : Joining V W) : Prop where
  trailer : j.trailer.isSome = j.cell.joinWaker
  unsetting : j.cell.join = .unsetting → j.waker.isSome = true
  setting : j.cell.join = .setting → j.trailer = j.waker
  bit : j.cell.state.has .joinWaker = true → j.cell.deallocs = 0 → j.cell.joinWaker = true
  registered : ∀ w, j.registered = some w → j.cell.join = .held
  kept : ∀ w, j.registered = some w → j.cell.state.has .complete = false →
    j.cell.state.has .joinWaker = true ∧ j.trailer = some w
  waking : ∀ w, j.registered = some w → j.cell.state.has .complete = true →
    w ∈ j.woken ∨ j.cell.runner = some .wakingJoin ∧ j.trailer = some w

theorem Placed.idle {d : Cell V} (placed : Placed j) (registered : j.registered = none) (join : d.join ≠ .unsetting)
    (join' : d.join ≠ .setting) (waker : d.joinWaker = j.cell.joinWaker)
    (bit : d.state.has .joinWaker = j.cell.state.has .joinWaker) (deallocs : d.deallocs = j.cell.deallocs) :
    Placed { j with cell := d } := by
  obtain ⟨trailer, _, _, known, _, _, _⟩ := placed
  constructor
  · rw [waker]
    exact trailer
  · exact fun at' => absurd at' join
  · exact fun at' => absurd at' join'
  · rw [bit, waker, deallocs]
    exact known
  · simp [registered]
  · simp [registered]
  · simp [registered]

theorem Sound.freed {c : Cell V} (sound : Sound c) (join : c.join ≠ .gone) : c.deallocs = 0 := by
  have alive : c.live ≠ 0 := by
    intro spent
    exact join (spent_done sound.scheduled sound.settled spent).1
  rw [sound.counted.freed, if_neg alive]

variable [DecidableEq W]

theorem Joining.task_next {a : Action V} (next : j.step (.task a) = .next k) :
    ∃ d, j.cell.step a = .next d ∧ k = j.after d a ∧ ∀ willWake, a ≠ .canReadOutput willWake := by
  unfold Joining.step at next
  split at next
  next same => cases same
  next => simp at next
  next b other same =>
    obtain rfl : a = b := Call.task.inj same
    split at next
    next d stepped => exact ⟨d, stepped, (Outcome.next.inj next).symm, fun willWake polls => other willWake polls⟩
    next => simp at next
    next => simp at next

theorem Joining.poll_next {waker : W} {willWake : Bool} (next : j.step (.poll waker willWake) = .next k) :
    ∃ d, j.cell.canReadOutput willWake = .next d ∧ k = j.polled waker d ∧ j.cell.join = .held ∧
      (willWake = true → j.trailer = some waker) := by
  simp only [Joining.step] at next
  split at next
  next => simp at next
  next told =>
    split at next
    next d stepped =>
      refine ⟨d, stepped, (Outcome.next.inj next).symm, ?_, ?_⟩
      · unfold Cell.canReadOutput at stepped
        split at stepped
        next held => exact held
        next => simp at stepped
      · intro will
        by_contra other
        exact told ⟨will, other⟩
    next => simp at next
    next => simp at next

theorem poll_placed {waker : W} {willWake : Bool} (sound : Sound j.cell) (placed : Placed j)
    (next : j.step (.poll waker willWake) = .next k) : Placed k := by
  obtain ⟨d, stepped, rfl, held, told⟩ := Joining.poll_next next
  obtain ⟨trailer, _, _, known, _, _, _⟩ := placed
  cases complete : j.cell.state.has .complete with
  | true =>
    rw [canReadOutput_complete sound willWake held complete, Outcome.next.injEq] at stepped
    constructor <;> grind -linarith [Joining.polled]
  | false =>
    cases bit : j.cell.state.has .joinWaker with
    | true =>
      obtain ⟨keeps, swaps⟩ := canReadOutput_swap sound held complete bit
      cases willWake with
      | true =>
        rw [keeps, Outcome.next.injEq] at stepped
        constructor <;> grind -linarith [Joining.polled]
      | false =>
        rw [swaps, Outcome.next.injEq] at stepped
        constructor <;> grind -linarith [Joining.polled]
    | false =>
      rw [canReadOutput_store sound willWake held complete bit, Outcome.next.injEq] at stepped
      constructor <;> grind -linarith [Joining.polled]

omit [DecidableEq W] in
theorem Joining.after_apart {a : Action V} (d : Cell V) (joins : a.joins = false) (wakes : a ≠ .wakeJoin) :
    j.after d a = { j with
      cell := d
      trailer := if d.deallocs = j.cell.deallocs then j.trailer else none } := by
  cases a with
  | wakeJoin => exact absurd rfl wakes
  | canReadOutput | unsetJoinWaker | setJoinWaker | unwindJoin | takeOutput | dropJoinHandle | dropJoinHandleSlow
  | dropJoinOutput | dropJoinReference => simp [Action.joins] at joins
  | runNotified | dropNotified | pollPending | pollReady | pollPanic | cancelTask | store | complete | discard
  | release | terminate | wakeByVal | wakeByRef | cloneWaker | dropWaker | finishDrop | popOwned | shutdown
  | remoteAbort => rfl

omit [DecidableEq W] in
theorem apart_placed {a : Action V} {d : Cell V} (sound : Sound j.cell) (within : j.cell.live < 2 ^ 56)
    (placed : Placed j) (joins : a.joins = false) (wakes : a ≠ .wakeJoin) (next : j.cell.step a = .next d) :
    Placed (j.after d a) := by
  have apart := (step_apart a joins wakes).next next
  obtain ⟨sound', advances⟩ := (step_stepped a sound within).next next
  have bit : d.state.has .joinWaker = j.cell.state.has .joinWaker :=
    (step_keeps a (a.touches_joinWaker joins)).next next
  have completes : d.state.has .complete = true → j.cell.state.has .complete = false →
      j.cell.state.has .joinInterest = true → j.cell.state.has .joinWaker = true →
      d.runner = some .wakingJoin := by
    intro complete incomplete interested waker
    by_cases last : a = .complete
    · subst last
      exact complete_wakes sound interested waker next
    · have same : d.state.has .complete = j.cell.state.has .complete :=
        (step_keeps a (a.touches_complete last)).next next
      simp [same, incomplete] at complete
  have alive : j.cell.deallocs = 0 := by
    rw [sound.counted.freed, if_neg]
    intro spent
    simp [spent_disabled sound spent a] at next
  have alive' : d.join ≠ .gone → d.deallocs = j.cell.deallocs := by
    intro present
    rw [alive, sound'.freed present]
  have interested : j.cell.join = .held → j.cell.state.has .joinInterest = true := by
    intro held
    have fits := sound.joined.fits
    rw [held] at fits
    exact fits
  have complete := advances.complete
  rw [Joining.after_apart d joins wakes]
  obtain ⟨trailer, unsetting, setting, known, registered, kept, waking⟩ := placed
  obtain ⟨join, waker, freed, wakes'⟩ := apart
  constructor <;> grind -linarith

section JoinHandle

omit [DecidableEq W]

variable {d : Cell V}

theorem wakeJoin_placed (sound : Sound j.cell) (placed : Placed j) (next : j.cell.wakeJoin = .next d) :
    Placed (j.after d .wakeJoin) := by
  have waking : j.cell.runner = some .wakingJoin := by
    unfold Cell.wakeJoin at next
    split at next
    next waking => exact waking
    next => simp at next
  have complete := sound.scheduled.finishing (by rw [waking]; rfl)
  rw [wakeJoin_next sound waking, Outcome.next.injEq] at next
  obtain ⟨trailer, unsetting, setting, known, registered, kept, woken⟩ := placed
  have wakes (w : W) (told : j.registered = some w) : w ∈ j.woken ++ j.trailer.toList := by
    rcases woken w told complete with before | ⟨_, present⟩
    · exact List.mem_append_left _ before
    · simp [present]
  constructor <;> grind -linarith [Joining.after]

theorem unsetJoinWaker_placed (sound : Sound j.cell) (placed : Placed j) (next : j.cell.unsetJoinWaker = .next d) :
    Placed (j.after d .unsetJoinWaker) := by
  have unsetting : j.cell.join = .unsetting := by
    unfold Cell.unsetJoinWaker at next
    split at next
    next unsetting => exact unsetting
    next => simp at next
  rw [unsetJoinWaker_next sound unsetting, Outcome.next.injEq] at next
  obtain ⟨trailer, given, setting, known, registered, kept, woken⟩ := placed
  cases complete : j.cell.state.has .complete with
  | true =>
    rw [complete, if_pos rfl] at next
    constructor <;> grind -linarith [Joining.after]
  | false =>
    rw [complete, if_neg (by simp)] at next
    constructor <;> grind -linarith [Joining.after]

theorem setJoinWaker_placed (sound : Sound j.cell) (placed : Placed j) (next : j.cell.setJoinWaker = .next d) :
    Placed (j.after d .setJoinWaker) := by
  have setting : j.cell.join = .setting := by
    unfold Cell.setJoinWaker at next
    split at next
    next setting => exact setting
    next => simp at next
  have bare : j.cell.state.has .joinWaker = false := by
    have fits := sound.joined.fits
    rw [setting] at fits
    simp only [Join.fits, Bool.and_eq_true, Bool.not_eq_true'] at fits
    exact fits.2
  have stored := sound.joined.setting setting
  rw [setJoinWaker_next sound setting, Outcome.next.injEq] at next
  obtain ⟨trailer, given, placed, known, registered, kept, woken⟩ := placed
  cases complete : j.cell.state.has .complete with
  | true =>
    rw [complete, if_pos rfl] at next
    constructor <;> grind -linarith [Joining.after]
  | false =>
    rw [complete, if_neg (by simp)] at next
    constructor <;> grind -linarith [Joining.after]

theorem unwindJoin_placed (placed : Placed j) (next : j.cell.unwindJoin = .next d) :
    Placed (j.after d .unwindJoin) := by
  obtain ⟨trailer, given, setting, known, registered, kept, woken⟩ := placed
  unfold Cell.unwindJoin at next
  split at next
  next at' =>
    rw [Outcome.next.injEq] at next
    constructor <;> grind -linarith [Joining.after]
  next at' =>
    rw [Outcome.next.injEq] at next
    constructor <;> grind -linarith [Joining.after]
  next => simp at next

theorem takeOutput_placed (placed : Placed j) (next : j.cell.takeOutput = .next d) :
    Placed (j.after d .takeOutput) := by
  obtain ⟨trailer, given, setting, known, registered, kept, woken⟩ := placed
  unfold Cell.takeOutput at next
  split at next
  next at' =>
    split at next
    next =>
      rw [Outcome.next.injEq] at next
      constructor <;> grind -linarith [Joining.after]
    next =>
      rw [Outcome.next.injEq] at next
      constructor <;> grind -linarith [Joining.after, Cell.dropFutureOrOutput, Cell.setStage]
  next => simp at next

theorem dropJoinHandle_placed {spurious : Bool} (placed : Placed j) (next : j.cell.dropJoinHandle spurious = .next d) :
    Placed (j.after d (.dropJoinHandle spurious)) := by
  have bit : d.state.has .joinWaker = j.cell.state.has .joinWaker :=
    (dropJoinHandle_keeps spurious (by decide)).next next
  obtain ⟨trailer, given, setting, known, registered, kept, woken⟩ := placed
  unfold Cell.dropJoinHandle at next
  split at next
  next held =>
    split at next
    next =>
      rw [Outcome.next.injEq] at next
      constructor <;> grind -linarith [Joining.after]
    next =>
      rw [Outcome.next.injEq] at next
      constructor <;> grind -linarith [Joining.after]
  next => simp at next

theorem dropJoinHandleSlow_placed (placed : Placed j) (next : j.cell.dropJoinHandleSlow = .next d) :
    Placed (j.after d .dropJoinHandleSlow) := by
  have bit : d.state.has .joinWaker = j.cell.state.has .joinWaker :=
    (dropJoinHandleSlow_keeps (by decide)).next next
  have same : j.cell.dropJoinHandleSlow.Leads fun d => j.cell.join = .dropping ∧
      (d.join = .releasing ∨ d.join = .droppingOutput) ∧ d.joinWaker = j.cell.joinWaker ∧
      d.deallocs = j.cell.deallocs := by
    unfold Cell.dropJoinHandleSlow
    split
    next dropping =>
      apply Outcome.Leads.attempt
      intro result _
      cases result with
      | ok snapshot => exact ⟨dropping, .inl rfl, rfl, rfl⟩
      | err snapshot => exact ⟨dropping, .inr rfl, rfl, rfl⟩
    next => trivial
  have shape := same.next next
  obtain ⟨trailer, given, setting, known, registered, kept, woken⟩ := placed
  constructor <;> grind -linarith [Joining.after]

theorem dropJoinOutput_placed (placed : Placed j) (next : j.cell.dropJoinOutput = .next d) :
    Placed (j.after d .dropJoinOutput) := by
  obtain ⟨trailer, given, setting, known, registered, kept, woken⟩ := placed
  unfold Cell.dropJoinOutput at next
  split at next
  next at' =>
    rw [Outcome.next.injEq] at next
    constructor <;> grind -linarith [Joining.after, Cell.dropFutureOrOutput, Cell.setStage]
  next => simp at next

theorem dropJoinReference_placed (placed : Placed j)
    (next : j.cell.dropJoinReference = .next d) : Placed (j.after d .dropJoinReference) := by
  have bit : d.state.has .joinWaker = j.cell.state.has .joinWaker :=
    (step_keeps .dropJoinReference rfl).next next
  have shape : j.cell.dropJoinReference.Leads fun d => j.cell.join = .releasing ∧ d.join = .gone ∧
      (d.deallocs = j.cell.deallocs ∧ d.joinWaker = j.cell.joinWaker ∨
        d.deallocs = j.cell.deallocs + 1 ∧ d.joinWaker = false) := by
    unfold Cell.dropJoinReference
    split
    next releasing =>
      apply Outcome.Leads.attempt
      rintro ⟨last, state⟩ _
      cases last with
      | false => exact ⟨releasing, rfl, .inl ⟨rfl, rfl⟩⟩
      | true => exact ⟨releasing, rfl, .inr ⟨rfl, rfl⟩⟩
    next => trivial
  have known := shape.next next
  obtain ⟨trailer, given, setting, bits, registered, kept, woken⟩ := placed
  constructor <;> grind -linarith [Joining.after]

end JoinHandle

theorem step_placed {call : Call V W} (sound : Sound j.cell) (within : j.cell.live < 2 ^ 56) (placed : Placed j)
    (next : j.step call = .next k) : Placed k := by
  cases call with
  | poll waker willWake => exact poll_placed sound placed next
  | task a =>
    obtain ⟨d, stepped, rfl, other⟩ := Joining.task_next next
    cases joins : a.joins with
    | false =>
      by_cases wakes : a = .wakeJoin
      · subst wakes
        exact wakeJoin_placed sound placed stepped
      · exact apart_placed sound within placed joins wakes stepped
    | true =>
      cases a <;> simp only [Action.joins, Bool.false_eq_true] at joins
      case canReadOutput willWake => exact absurd rfl (other willWake)
      case unsetJoinWaker => exact unsetJoinWaker_placed sound placed stepped
      case setJoinWaker => exact setJoinWaker_placed sound placed stepped
      case unwindJoin => exact unwindJoin_placed placed stepped
      case takeOutput => exact takeOutput_placed placed stepped
      case dropJoinHandle spurious => exact dropJoinHandle_placed placed stepped
      case dropJoinHandleSlow => exact dropJoinHandleSlow_placed placed stepped
      case dropJoinOutput => exact dropJoinOutput_placed placed stepped
      case dropJoinReference => exact dropJoinReference_placed placed stepped

theorem Joining.cell_step {call : Call V W} (next : j.step call = .next k) :
    ∃ a, j.cell.step a = .next k.cell := by
  cases call with
  | poll waker willWake =>
    obtain ⟨d, stepped, rfl, _⟩ := Joining.poll_next next
    exact ⟨.canReadOutput willWake, stepped⟩
  | task a =>
    obtain ⟨d, stepped, rfl, _⟩ := Joining.task_next next
    have same : (j.after d a).cell = d := by cases a <;> rfl
    exact ⟨a, by rw [same]; exact stepped⟩

theorem joining_cell (reached : (joining V W).Reachable j) : (machine V).Reachable j.cell := by
  apply System.Reachable.simulates Joining.cell _ _ reached
  · rintro _ ⟨closed, rfl⟩
    exact ⟨closed, rfl⟩
  · intro j call k _ within next
    exact .inr ⟨within, Joining.cell_step next⟩

theorem reachable_placed (reached : (joining V W).Reachable j) : Placed j := by
  induction reached with
  | initial start =>
    obtain ⟨closed, rfl⟩ := start
    constructor <;> simp [Joining.spawn, Cell.spawn, initial_word]
  | step before within next ih => exact step_placed (reachable_sound (joining_cell before)) within ih next

omit [DecidableEq W] in
theorem Joining.after_waker {a : Action V} {d : Cell V} (other : ∀ willWake, a ≠ .canReadOutput willWake) :
    (j.after d a).waker = j.waker ∧ (j.after d a).cell = d := by
  cases a with
  | canReadOutput willWake => exact absurd rfl (other willWake)
  | _ => exact ⟨rfl, rfl⟩

section Polls

theorem Joining.poll_begins (sound : Sound j.cell) (held : j.cell.join = .held) (waker : W) (willWake : Bool)
    (told : willWake = true → j.trailer = some waker) :
    ∃ k, j.step (.poll waker willWake) = .next k ∧ k.waker = some waker ∧
      (k.registered = some waker ∨ k.cell.join = .unsetting ∨ k.cell.join = .setting ∨ k.cell.join = .reading) := by
  have guard : ¬(willWake = true ∧ j.trailer ≠ some waker) := fun both => both.2 (told both.1)
  simp only [Joining.step, if_neg guard]
  cases complete : j.cell.state.has .complete with
  | true =>
    rw [canReadOutput_complete sound willWake held complete]
    exact ⟨_, rfl, rfl, .inr (.inr (.inr rfl))⟩
  | false =>
    cases bit : j.cell.state.has .joinWaker with
    | true =>
      obtain ⟨keeps, swaps⟩ := canReadOutput_swap sound held complete bit
      cases willWake with
      | true =>
        rw [keeps]
        exact ⟨_, rfl, rfl, .inl (if_pos held)⟩
      | false =>
        rw [swaps]
        exact ⟨_, rfl, rfl, .inr (.inl rfl)⟩
    | false =>
      rw [canReadOutput_store sound willWake held complete bit]
      exact ⟨_, rfl, rfl, .inr (.inr (.inl rfl))⟩

theorem Joining.unsetting_next (sound : Sound j.cell) (unsetting : j.cell.join = .unsetting) :
    ∃ k, j.step (.task .unsetJoinWaker) = .next k ∧ k.waker = j.waker ∧
      (k.cell.join = .setting ∨ k.cell.join = .reading) := by
  simp only [Joining.step, Cell.step, unsetJoinWaker_next sound unsetting]
  refine ⟨_, rfl, rfl, ?_⟩
  cases complete : j.cell.state.has .complete with
  | true => exact .inr rfl
  | false => exact .inl rfl

theorem Joining.setting_next (sound : Sound j.cell) (setting : j.cell.join = .setting) :
    ∃ k, j.step (.task .setJoinWaker) = .next k ∧ k.waker = j.waker ∧
      (k.registered = j.waker ∨ k.cell.join = .reading) := by
  simp only [Joining.step, Cell.step, setJoinWaker_next sound setting]
  refine ⟨_, rfl, rfl, ?_⟩
  cases complete : j.cell.state.has .complete with
  | true => exact .inr rfl
  | false => exact .inl rfl

theorem Joining.reading_next (sound : Sound j.cell) (reading : j.cell.join = .reading) (unread : j.cell.handed = []) :
    ∃ k result, j.step (.task .takeOutput) = .next k ∧ k.cell.handed = [result] ∧ j.cell.results = [result] := by
  have settled := sound.settled
  have known : j.cell.state.has .joinInterest = true ∧ j.cell.state.has .complete = true := by
    have fits := sound.joined.fits
    rw [reading] at fits
    simpa [Join.fits] using fits
  obtain ⟨result, stage, results⟩ := settled.ended known.2
  have present := settled.unread known.2 known.1 (by rw [reading]; rfl) unread
  have finished : j.cell.stage = .finished result := stage.resolve_right present
  have taken : j.cell.takeOutput =
      .next { j.cell with stage := .consumed, handed := j.cell.handed ++ [result], join := .held } := by
    simp [Cell.takeOutput, reading, finished]
  simp only [Joining.step, Cell.step, taken]
  exact ⟨_, result, rfl, by simp [Joining.after, unread], results⟩

theorem Joining.other_next {a : Action V} (joins : a.joins = false) (next : j.step (.task a) = .next k) :
    k.waker = j.waker ∧ k.cell.join = j.cell.join := by
  obtain ⟨d, stepped, rfl, other⟩ := Joining.task_next next
  obtain ⟨waker, cell⟩ := Joining.after_waker (j := j) (d := d) other
  refine ⟨waker, ?_⟩
  rw [cell]
  by_cases wakes : a = .wakeJoin
  · subst wakes
    have same : j.cell.wakeJoin.Leads fun d => d.join = j.cell.join := by
      unfold Cell.wakeJoin
      split
      next =>
        split
        next => exact rfl
        next => trivial
      next => trivial
    exact same.next stepped
  · exact ((step_apart a joins wakes).next stepped).join

theorem poll_stores {waker : W} {willWake : Bool} (sound : Sound j.cell) (next : j.step (.poll waker willWake) = .next k)
    (moved : k.trailer ≠ j.trailer) : k.cell.state.has .joinWaker = false := by
  obtain ⟨d, stepped, rfl, held, told⟩ := Joining.poll_next next
  have setting : d.join = .setting := by
    by_contra away
    exact moved (if_neg away)
  cases complete : j.cell.state.has .complete with
  | true =>
    rw [canReadOutput_complete sound willWake held complete, Outcome.next.injEq] at stepped
    simp [← stepped] at setting
  | false =>
    cases bit : j.cell.state.has .joinWaker with
    | true =>
      obtain ⟨keeps, swaps⟩ := canReadOutput_swap sound held complete bit
      cases willWake with
      | true =>
        rw [keeps, Outcome.next.injEq] at stepped
        simp [← stepped, held] at setting
      | false =>
        rw [swaps, Outcome.next.injEq] at stepped
        simp [← stepped] at setting
    | false =>
      rw [canReadOutput_store sound willWake held complete bit, Outcome.next.injEq] at stepped
      rw [← stepped]
      exact bit

omit [DecidableEq W] in
theorem unsetJoinWaker_stores {d : Cell V} (sound : Sound j.cell) (next : j.cell.unsetJoinWaker = .next d)
    (moved : (j.after d .unsetJoinWaker).trailer ≠ j.trailer) : d.state.has .joinWaker = false := by
  have setting : d.join = .setting := by
    by_contra away
    exact moved (if_neg away)
  have unsetting : j.cell.join = .unsetting := by
    unfold Cell.unsetJoinWaker at next
    split at next
    next unsetting => exact unsetting
    next => simp at next
  rw [unsetJoinWaker_next sound unsetting, Outcome.next.injEq] at next
  cases complete : j.cell.state.has .complete with
  | true =>
    rw [complete, if_pos rfl] at next
    simp [← next] at setting
  | false =>
    rw [complete, if_neg (by simp)] at next
    simp [← next]

omit [DecidableEq W] in
theorem setJoinWaker_stores {d : Cell V} (sound : Sound j.cell) (next : j.cell.setJoinWaker = .next d)
    (moved : (j.after d .setJoinWaker).trailer ≠ j.trailer) : d.state.has .joinWaker = false := by
  have away : d.join ≠ .held := by
    intro held
    exact moved (if_pos held)
  have setting : j.cell.join = .setting := by
    unfold Cell.setJoinWaker at next
    split at next
    next setting => exact setting
    next => simp at next
  have bare : j.cell.state.has .joinWaker = false := by
    have fits := sound.joined.fits
    rw [setting] at fits
    simp only [Join.fits, Bool.and_eq_true, Bool.not_eq_true'] at fits
    exact fits.2
  rw [setJoinWaker_next sound setting, Outcome.next.injEq] at next
  cases complete : j.cell.state.has .complete with
  | true =>
    rw [complete, if_pos rfl] at next
    rw [← next]
    exact bare
  | false =>
    rw [complete, if_neg (by simp)] at next
    simp [← next] at away

omit [DecidableEq W] in
theorem Joining.after_trailer {a : Action V} {d : Cell V} (unset : a ≠ .unsetJoinWaker) (set : a ≠ .setJoinWaker)
    (alive : d.deallocs = j.cell.deallocs) : (j.after d a).trailer = j.trailer := by
  cases a with
  | unsetJoinWaker => exact absurd rfl unset
  | setJoinWaker => exact absurd rfl set
  | wakeJoin | dropJoinHandle => rfl
  | _ => exact if_pos alive

theorem step_stores {call : Call V W} (sound : Sound j.cell) (next : j.step call = .next k)
    (alive : k.cell.deallocs = 0) (moved : k.trailer ≠ j.trailer) :
    ((∃ waker willWake, call = .poll waker willWake) ∨ call = .task .unsetJoinWaker ∨ call = .task .setJoinWaker) ∧
      k.cell.state.has .joinWaker = false := by
  cases call with
  | poll waker willWake => exact ⟨.inl ⟨waker, willWake, rfl⟩, poll_stores sound next moved⟩
  | task a =>
    obtain ⟨d, stepped, rfl, other⟩ := Joining.task_next next
    have cell := (Joining.after_waker (j := j) (d := d) other).2
    rw [cell] at alive ⊢
    have before : j.cell.deallocs = 0 := by
      rw [sound.counted.freed, if_neg]
      intro spent
      simp [spent_disabled sound spent a] at stepped
    by_cases unset : a = .unsetJoinWaker
    · subst unset
      exact ⟨.inr (.inl rfl), unsetJoinWaker_stores sound stepped moved⟩
    · by_cases set : a = .setJoinWaker
      · subst set
        exact ⟨.inr (.inr rfl), setJoinWaker_stores sound stepped moved⟩
      · exact absurd (Joining.after_trailer unset set (alive.trans before.symm)) moved

theorem Joining.unfailing (sound : Sound j.cell) (within : j.cell.live < 2 ^ 56) (call : Call V W) (fault : Fault) :
    j.step call ≠ .failed fault := by
  intro failed
  cases call with
  | poll waker willWake =>
    simp only [Joining.step] at failed
    split at failed
    next => simp at failed
    next =>
      split at failed
      next => simp at failed
      next => simp at failed
      next _ stepped => exact (step_stepped (.canReadOutput willWake) sound within).sound _ stepped
  | task a =>
    unfold Joining.step at failed
    split at failed
    next same => cases same
    next => simp at failed
    next b other same =>
      split at failed
      next => simp at failed
      next => simp at failed
      next _ stepped => exact (step_stepped b sound within).sound _ stepped

end Polls

theorem join_woken (reached : (joining V W).Reachable j) :
    -- the last poll has returned Pending
    (∀ w, j.registered = some w →
      (j.cell.state.isComplete = false → j.cell.state.hasJoinWaker = true ∧ j.trailer = some w) ∧
      (j.cell.state.isComplete = true → w ∈ j.woken ∨
        j.cell.runner = some .wakingJoin ∧ ∃ k, j.step (.task .wakeJoin) = .next k ∧ w ∈ k.woken)) ∧
    -- a poll, step by step; what the others do in between leaves it where it is
    (j.cell.join = .held → ∀ waker willWake, (willWake = true → j.trailer = some waker) →
      ∃ k, j.step (.poll waker willWake) = .next k ∧ k.waker = some waker ∧
        (k.registered = some waker ∨ k.cell.join = .unsetting ∨ k.cell.join = .setting ∨ k.cell.join = .reading)) ∧
    (j.cell.join = .unsetting → ∃ k, j.step (.task .unsetJoinWaker) = .next k ∧ k.waker = j.waker ∧
      (k.cell.join = .setting ∨ k.cell.join = .reading)) ∧
    (j.cell.join = .setting → ∃ k, j.step (.task .setJoinWaker) = .next k ∧ k.waker = j.waker ∧
      (k.registered = j.waker ∨ k.cell.join = .reading)) ∧
    (j.cell.join = .reading → j.cell.handed = [] → ∃ k result, j.step (.task .takeOutput) = .next k ∧
      k.cell.handed = [result] ∧ j.cell.results = [result]) ∧
    (∀ a k, a.joins = false → j.step (.task a) = .next k → k.waker = j.waker ∧ k.cell.join = j.cell.join) ∧
    -- JOIN_WAKER and the trailer
    (j.cell.state.hasJoinWaker = true → j.cell.deallocs = 0 → j.trailer.isSome = true) ∧
    (∀ call k, j.step call = .next k → k.cell.deallocs = 0 → k.trailer ≠ j.trailer →
      ((∃ waker willWake, call = .poll waker willWake) ∨ call = .task .unsetJoinWaker ∨ call = .task .setJoinWaker) ∧
        k.cell.state.hasJoinWaker = false) ∧
    (j.cell.live < 2 ^ 56 → ∀ call fault, j.step call ≠ .failed fault) := by
  have sound := reachable_sound (joining_cell reached)
  have placed := reachable_placed reached
  refine ⟨?_, Joining.poll_begins sound, Joining.unsetting_next sound, Joining.setting_next sound,
    Joining.reading_next sound, fun a k => Joining.other_next, ?_, fun call k => step_stores sound,
    Joining.unfailing sound⟩
  · intro w registered
    refine ⟨placed.kept w registered, ?_⟩
    intro complete
    rcases placed.waking w registered complete with woken | ⟨waking, trailer⟩
    · exact .inl woken
    · refine .inr ⟨waking, ?_⟩
      simp only [Joining.step, Cell.step, wakeJoin_next sound waking]
      exact ⟨_, rfl, by simp [Joining.after, trailer]⟩
  · intro bit alive
    rw [placed.trailer]
    exact placed.bit bit alive

theorem joining_reachable (closed : Bool) : (joining V W).Reachable (Joining.spawn closed) :=
  .initial ⟨closed, rfl⟩

/-- The second poll brings another waker, and the task completes after it. -/
theorem join_woken_run : ∃ j k : Joining Nat Nat, j.registered = some 8 ∧ j.cell.state.isComplete = true ∧
    j.woken = [] ∧ j.step (.task .wakeJoin) = .next k ∧ 8 ∈ k.woken := by
  obtain ⟨j, ran, registered, complete, asleep⟩ : ∃ j : Joining Nat Nat,
      (joining Nat Nat).run (Joining.spawn false) [.task .runNotified, .poll 5 false, .task .setJoinWaker,
        .poll 8 false, .task .unsetJoinWaker, .task .setJoinWaker, .task (.pollReady 7 false), .task .store,
        .task .complete] = some j ∧ j.registered = some 8 ∧ j.cell.state.isComplete = true ∧ j.woken = [] :=
    ⟨_, rfl, rfl, rfl, rfl⟩
  have reached := System.reachable_run _ (joining_reachable false) ran
  rcases ((join_woken reached).1 8 registered).2 complete with woken | ⟨_, k, next, woken⟩
  · simp [asleep] at woken
  · exact ⟨j, k, registered, complete, asleep, next, woken⟩

end Wakers

end Osaka.Task
