import Osaka.Sync.AtomicWakerCalls

set_option autoImplicit false

namespace Osaka.Sync.AtomicWaker

open Transitions

variable {I : Type} {s t : AtomicWaker I} {j k : Journal I} {a : AtomicWakerAction I} {e : Effect} {i : I}
  {waker : Waker}

section Progress

def Register.steps : Register → Nat
  | .idle => 0
  | .called _ => 9
  | .cloning _ => 8
  | .taking _ => 7
  | .putting _ _ => 6
  | .releasing _ _ => 5
  | .retaking _ _ => 4
  | .swapping _ _ _ => 3
  | .wakingOld _ _ _ => 2
  | .dropping _ _ | .wakingNew _ _ | .wakingSelf _ => 1

def Wake.steps : Wake → Nat
  | .idle => 0
  | .called => 4
  | .taking => 3
  | .releasing _ => 2
  | .waking _ => 1

theorem Register.steps_le (register : Register) : register.steps ≤ 9 := by
  cases register <;> simp [Register.steps]

theorem Wake.steps_le (wake : Wake) : wake.steps ≤ 4 := by
  cases wake <;> simp [Wake.steps]

theorem RegisterMoves.progress (moves : RegisterMoves s e t) : t.register.steps < s.register.steps := by
  cases moves with
  | locks stage | meets stage | clones stage | panics stage | takes stage | puts _ stage | releases _ _ stage
  | fails _ _ stage | drops _ _ stage | retakes _ _ stage | swaps _ stage | swapsBack _ stage | wakesOld _ _ _ stage
  | wakesNew _ stage | resumes stage | wakesSelf _ stage => simp [stage, Register.steps]

variable [DecidableEq I]

theorem WakeMoves.progress (moves : WakeMoves s i e t) : (t.wakes i).steps < (s.wakes i).steps := by
  cases moves with
  | locks stage | delegates stage | leaves _ stage | takes stage | releases _ stage | releasesEmpty stage
  | wakes _ _ stage => simp [setWake_wakes, stage, Wake.steps]

theorem stepRegister_progress (sound : Sound s) (panics : Bool) (busy : s.register ≠ .idle) :
    ∃ t, s.step (.stepRegister panics) = .next t ∧ Sound t ∧ t.register.steps < s.register.steps := by
  obtain ⟨e, t, performed, moves⟩ := stepRegister_moves sound busy panics
  exact ⟨t, by simp [step, allowed, perform, busy, performed], moves.sound sound, moves.progress⟩

theorem stepWake_progress (sound : Sound s) (panics : Bool) (busy : s.wakes i ≠ .idle) :
    ∃ t, s.step (.stepWake i panics) = .next t ∧ Sound t ∧ (t.wakes i).steps < (s.wakes i).steps := by
  obtain ⟨e, t, performed, moves⟩ := stepWake_moves sound busy panics
  exact ⟨t, by simp [step, allowed, perform, busy, performed], moves.sound sound, moves.progress⟩

/-- Nobody waits for anybody: a call of `register` comes to its end by its own steps, wherever the others are. -/
theorem register_ends (reached : (machine I).Reachable s) (panics : Nat → Bool) :
    ∃ n ≤ 9, ∃ t, (machine I).run s ((List.range n).map fun k => .stepRegister (panics k)) = some t ∧
      t.register = .idle := by
  obtain ⟨n, short, t, ran, _, ends⟩ := System.run_ends (machine I) (P := Sound) (D := fun s => s.register = .idle)
    (m := fun s => s.register.steps) (f := .stepRegister)
    (fun s b sound busy => ⟨trivial, stepRegister_progress sound b busy⟩) (reachable_sound reached) panics
  exact ⟨n, Nat.le_trans short s.register.steps_le, t, ran, ends⟩

theorem wake_ends (reached : (machine I).Reachable s) (i : I) (panics : Nat → Bool) :
    ∃ n ≤ 4, ∃ t, (machine I).run s ((List.range n).map fun k => .stepWake i (panics k)) = some t ∧
      t.wakes i = .idle := by
  obtain ⟨n, short, t, ran, _, ends⟩ := System.run_ends (machine I) (P := Sound) (D := fun s => s.wakes i = .idle)
    (m := fun s => (s.wakes i).steps) (f := .stepWake i)
    (fun s b sound busy => ⟨trivial, stepWake_progress sound b busy⟩) (reachable_sound reached) panics
  exact ⟨n, Nat.le_trans short (s.wakes i).steps_le, t, ran, ends⟩

end Progress

section Pending

/-- What is in the cell is about to be taken, by a wake that is on its way or by the party that it has been left to. -/
def Pending (s : AtomicWaker I) (i : I) : Prop :=
  s.wakes i = .called ∨ (∃ k, s.wakes k = .taking) ∨ s.state = REGISTERING ||| WAKING

theorem RegisterMoves.pending (moves : RegisterMoves s e t) (sound : Sound s) (full : s.waker = some waker)
    (pending : Pending s i) : Pending t i := by
  have shaped := sound.shaped
  unfold Pending at pending ⊢
  rw [moves.wakes]
  refine pending.imp_right fun pending => pending.imp_right fun both => ?_
  cases moves with
  | locks _ state | releases _ _ _ state =>
    rw [state] at both
    cases both
  | swaps _ stage | swapsBack _ stage =>
    -- The cell is empty by then.
    rw [stage] at shaped
    rw [shaped.1] at full
    cases full
  | meets | clones | panics | takes | puts | fails | drops | retakes | wakesOld | wakesNew | resumes | wakesSelf =>
    exact both

variable [DecidableEq I]

theorem WakeMoves.pending_own (moves : WakeMoves s i e t) (sound : Sound s) (full : s.waker = some waker)
    (called : s.wakes i = .called) : Pending t i := by
  cases moves with
  | locks => exact .inr (.inl ⟨i, by simp [setWake_wakes]⟩)
  | delegates => exact .inr (.inr rfl)
  | leaves k _ state holds =>
    have other : k ≠ i := by
      rintro rfl
      rw [called] at holds
      cases holds
    cases stage : s.wakes k with
    | taking => exact .inr (.inl ⟨k, by simp [setWake_wakes, other, stage]⟩)
    | releasing taken =>
      rw [sound.emptied k taken stage] at full
      cases full
    | idle | called | waking =>
      rw [stage] at holds
      cases holds
  | takes stage | releases _ stage | releasesEmpty stage | wakes _ _ stage =>
    rw [called] at stage
    cases stage

theorem WakeMoves.pending {party : I} (moves : WakeMoves s party e t) (sound : Sound s) (full : s.waker = some waker)
    (stays : t.waker = some waker) (pending : Pending s i) : Pending t i := by
  rcases pending with called | ⟨k, taking⟩ | both
  · by_cases own : i = party
    · subst own
      exact moves.pending_own sound full called
    · exact .inl ((moves.others i own).trans called)
  · by_cases own : k = party
    · subst own
      cases moves with
      | takes => cases stays
      | locks stage | delegates stage | leaves _ stage | releases _ stage | releasesEmpty stage | wakes _ _ stage =>
        rw [taking] at stage
        cases stage
    · exact .inr (.inl ⟨k, (moves.others k own).trans taking⟩)
  · refine .inr (.inr ?_)
    cases moves with
    | delegates => rfl
    | takes | wakes => exact both
    | locks _ state | leaves _ _ state | releases _ _ state | releasesEmpty _ state =>
      rw [state] at both
      cases both

theorem Moves.pending (moves : Moves s a e t) (sound : Sound s) (full : s.waker = some waker)
    (stays : t.waker = some waker) (pending : Pending s i) : Pending t i := by
  cases moves with
  | register => exact pending
  | stepRegister _ moves => exact moves.pending sound full pending
  | wake k idle =>
    have later {m : I} {stage : Wake} (there : s.wakes m = stage) (busy : stage ≠ .idle) :
        (s.setWake k .called).wakes m = stage := by
      have other : m ≠ k := by
        rintro rfl
        exact busy (there.symm.trans idle)
      simp [setWake_wakes, other, there]
    rcases pending with called | ⟨m, taking⟩ | both
    · exact .inl (later called (by simp))
    · exact .inr (.inl ⟨m, later taking (by simp)⟩)
    · exact .inr (.inr both)
  | stepWake k _ moves => exact moves.pending sound full stays pending

end Pending

section Runs

/-- It has been put into the cell, or has been woken by the call that it was given to. -/
def Registered (j : Journal I) (waker : Waker) : Prop := j.place waker ≠ .offered ∧ j.place waker ≠ .panicked

def Reached (s : AtomicWaker I) (j : Journal I) (i : I) (waker : Waker) : Prop :=
  Registered j waker ∧ (j.place waker = .cell → Pending s i)

theorem Kept.accounted (kept : Kept s j) (registered : Registered j waker) :
    s.waker = some waker ∨ (∃ p, waker ∈ s.hand p) ∨ (∃ p, j.place waker = .woken p) ∨
      ∃ later, waker < later ∧ later ≤ s.calls ∧ later ∈ j.left ∧ j.place waker = .replaced later := by
  have fits := kept.placed waker
  cases place : j.place waker with
  | offered => exact absurd place registered.1
  | panicked => exact absurd place registered.2
  | cell => exact .inl (fits.cell.mp place)
  | taken p => exact .inr (.inl ⟨p, (fits.taken p).mp place⟩)
  | woken p => exact .inr (.inr (.inl ⟨p, rfl⟩))
  | replaced later =>
    obtain ⟨before, left⟩ := kept.replaced waker later place
    refine .inr (.inr (.inr ⟨later, before, Nat.le_of_not_lt fun ahead => ?_, left, rfl⟩))
    exact (kept.left later left).1 ((kept.placed later).offered.mpr (.inr (.inl ahead)))

theorem Quiet.hand (quiet : s.Quiet) (p : Option I) : s.hand p = [] := by
  cases p with
  | none => simp [AtomicWaker.hand, quiet.1, Register.hand]
  | some i => simp [AtomicWaker.hand, quiet.2 i, Wake.hand]

theorem Kept.returned_registered (kept : Kept s j) (call : Waker) (returned : call ∈ j.returned) :
    Registered j call :=
  ⟨kept.finished_given (kept.returned call returned).1, (kept.returned call returned).2⟩

variable [DecidableEq I]

theorem Reached.next (kept : Kept s j) (sound : Sound s) (moves : Moves s a e t) (reached : Reached s j i waker) :
    Reached t (j.after s a e t) i waker := by
  obtain ⟨⟨offered, panicked⟩, pending⟩ := reached
  obtain ⟨goes, fits⟩ := kept.follows sound moves waker
  refine ⟨goes.given offered panicked, fun inside => ?_⟩
  have stays := fits.cell.mp inside
  rw [inside] at goes
  generalize before : j.place waker = place at goes
  cases goes with
  | stays => exact moves.pending sound ((kept.placed waker).cell.mp before) stays (pending before)
  | put => exact absurd before offered

theorem journaled_moves (reachable : (journaled I).Reachable (s, j))
    (stepped : (journaled I).step (s, j) a = .next (t, k)) : ∃ e, Moves s a e t ∧ k = j.after s a e t := by
  obtain ⟨u, step, same⟩ := System.observed_step stepped
  obtain ⟨e, moves, observed⟩ := observe_moves (j := j) (reachable_sound reachable.of_observed) step
  obtain ⟨rfl, rfl⟩ : t = u ∧ k = j.after s a e u := by simpa [observed] using same
  exact ⟨e, moves, rfl⟩

theorem reached_run {actions : List (AtomicWakerAction I)} (reachable : (journaled I).Reachable (s, j))
    (ran : (journaled I).run (s, j) actions = some (t, k)) (reached : Reached s j i waker) : Reached t k i waker := by
  induction actions generalizing s j with
  | nil =>
    obtain ⟨rfl, rfl⟩ : s = t ∧ j = k := by simpa [System.run] using ran
    exact reached
  | cons a rest ih =>
    obtain ⟨⟨u, l⟩, within, stepped, ran⟩ := System.run_cons _ ran
    obtain ⟨e, moves, rfl⟩ := journaled_moves reachable stepped
    have sound := reachable_sound reachable.of_observed
    exact ih (reachable.step within stepped) ran (reached.next (reachable_kept reachable) sound moves)

/-- When all calls are finished, a wake that was on its way has woken what had been registered, or a later call has
replaced it. -/
theorem wake_reaches {actions : List (AtomicWakerAction I)} (reachable : (journaled I).Reachable (s, j))
    (registered : Registered j waker) (called : s.wakes i = .called)
    (ran : (journaled I).run (s, j) actions = some (t, k)) (quiet : t.Quiet) :
    (∃ p, k.place waker = .woken p) ∨ ∃ later, waker < later ∧ later ≤ t.calls ∧ k.place waker = .replaced later := by
  have start : Reached s j i waker := ⟨registered, fun _ => .inl called⟩
  obtain ⟨registered, pending⟩ := reached_run reachable ran start
  have reachable := System.reachable_run _ reachable ran
  have kept := reachable_kept reachable
  have sound := reachable_sound reachable.of_observed
  rcases kept.accounted registered with inside | ⟨p, held⟩ | woken | ⟨later, before, called, _, replaced⟩
  · rcases pending ((kept.placed waker).cell.mpr inside) with called | ⟨k, taking⟩ | both
    · rw [quiet.2 i] at called
      cases called
    · rw [quiet.2 k] at taking
      cases taking
    · rw [sound.locked.quiet quiet] at both
      cases both
  · rw [quiet.hand p] at held
    cases held
  · exact .inl woken
  · exact .inr ⟨later, before, called, replaced⟩

/-- No later call, and so no later waker. -/
theorem last_woken {actions : List (AtomicWakerAction I)} (reachable : (journaled I).Reachable (s, j))
    (registered : Registered j s.calls) (called : s.wakes i = .called)
    (ran : (journaled I).run (s, j) actions = some (t, k)) (last : t.calls = s.calls) (quiet : t.Quiet) :
    ∃ p, k.place s.calls = .woken p := by
  rcases wake_reaches reachable registered called ran quiet with woken | ⟨later, after, before, _⟩
  · exact woken
  · rw [last] at before
    exact absurd after (Nat.not_lt_of_le before)

theorem starting_woken {actions : List (AtomicWakerAction I)} (reachable : (journaled I).Reachable (s, j))
    (registered : Registered j s.calls) (ran : (journaled I).run (s, j) (.wake i :: actions) = some (t, k))
    (last : t.calls = s.calls) (quiet : t.Quiet) : ∃ p, k.place s.calls = .woken p := by
  obtain ⟨⟨u, l⟩, within, stepped, ran⟩ := System.run_cons _ ran
  obtain ⟨e, moves, rfl⟩ := journaled_moves reachable stepped
  have sound := reachable_sound reachable.of_observed
  have given := ((reachable_kept reachable).follows sound moves s.calls).1.given registered.1 registered.2
  cases moves with
  | wake _ idle =>
    have called : (s.setWake i .called).wakes i = .called := by simp [setWake_wakes]
    exact last_woken (s := s.setWake i .called) (reachable.step within stepped) given called ran last quiet

/-- One party at a time, and no wakeup lost. -/
theorem registered_wakers_woken (reachable : (journaled I).Reachable (s, j)) :
    -- the waker cell is accessed by at most one party at a time
    (∀ p q, s.accesses p = true → s.accesses q = true → p = q) ∧
    (∀ a t, s.step a = .next t → s.accesses a.party = false → t.waker = s.waker) ∧
    -- a call that has come to its end has registered its waker, unless the clone of it has panicked
    (∀ call, s.Finished call → j.place call = .panicked ∨ Registered j call) ∧
    (∀ call ∈ j.returned, Registered j call) ∧
    -- what has been registered is in the cell, woken or replaced, or a party has just taken it for one of these
    (∀ waker, Registered j waker → s.waker = some waker ∨ (∃ p, waker ∈ s.hand p) ∨ (∃ p, j.place waker = .woken p) ∨
      ∃ later, waker < later ∧ later ≤ s.calls ∧ later ∈ j.left ∧ j.place waker = .replaced later) ∧
    (s.Quiet → ∀ p, s.hand p = []) ∧
    -- a wake that starts after the last call has registered its waker wakes it, if it has not been woken before
    (Registered j s.calls → ∀ i actions t k, (journaled I).run (s, j) (.wake i :: actions) = some (t, k) →
      t.calls = s.calls → t.Quiet → ∃ p, k.place s.calls = .woken p) ∧
    -- a register that meets a wake wakes its own waker, and one that does not leaves it in the cell, where a wake that
    -- is on its way takes it
    (∀ call, s.Finished call → j.place call ≠ .panicked →
      (call ∈ j.met → j.place call = .woken none) ∧ (call ∉ j.met → call ∈ j.left)) ∧
    (s.calls ∈ j.left → ∀ i actions t k, s.wakes i = .called → (journaled I).run (s, j) actions = some (t, k) →
      t.calls = s.calls → t.Quiet → ∃ p, k.place s.calls = .woken p) ∧
    -- the state returns to WAITING
    (s.Quiet → s.state = WAITING) ∧
    -- no debug_assert fails
    ∀ a fault, s.step a ≠ .failed fault := by
  have kept := reachable_kept reachable
  have sound := reachable_sound reachable.of_observed
  refine ⟨?_, ?_, ?_, kept.returned_registered, fun _ => kept.accounted, fun quiet => quiet.hand, ?_, ?_, ?_,
    sound.locked.quiet, fun a => (step_kept sound a).sound⟩
  · intro p q first second
    exact sound.locked.exclusive (accesses_holds p first) (accesses_holds q second)
  · intro a t stepped away
    obtain ⟨e, _, moves⟩ := step_moves sound stepped
    exact moves.untouched away
  · intro call finished
    by_cases panicked : j.place call = .panicked
    · exact .inl panicked
    · exact .inr ⟨kept.finished_given finished, panicked⟩
  · intro registered i actions t k ran last quiet
    exact starting_woken reachable registered ran last quiet
  · intro call finished whole
    rcases kept.settled call finished with panicked | ⟨met, woken⟩ | ⟨unmet, left⟩
    · exact absurd panicked whole
    · exact ⟨fun _ => woken, fun unmet => absurd met unmet⟩
    · exact ⟨fun met => absurd met unmet, fun _ => left⟩
  · intro left i actions t k called ran last quiet
    exact last_woken reachable (kept.left s.calls left) called ran last quiet

/-- A waker is left in the cell, the clone of the next panics while a wake comes, and the third is woken by a wake. -/
def exampleCalls : List (AtomicWakerAction Bool) :=
  .register :: List.replicate 6 (.stepRegister false) ++
    .register :: .stepRegister false :: .wake true :: .stepWake true false :: List.replicate 6 (.stepRegister true) ++
    .register :: List.replicate 6 (.stepRegister false)

def exampleWake : List (AtomicWakerAction Bool) := .wake false :: List.replicate 4 (.stepWake false false)

theorem exampleCalls_places : ((journaled Bool).run (new, .first) exampleCalls).map
    (fun r => (r.1.calls, r.2.place 1, r.2.place 2, r.2.place 3)) = some (3, .woken none, .panicked, .cell) := by
  decide +kernel

theorem exampleWake_ends : (((journaled Bool).run (new, .first) exampleCalls).bind
    fun r => (journaled Bool).run r exampleWake).map
      (fun r => (r.1.calls, r.1.register, r.1.wakes false, r.1.wakes true)) = some (3, .idle, .idle, .idle) := by
  decide +kernel

theorem registered_wakers_woken_run : ∃ (j : Journal Bool) (p : Option Bool), j.place 3 = .woken p := by
  obtain ⟨⟨s, j⟩, ran, facts⟩ := Option.map_eq_some_iff.mp exampleCalls_places
  obtain ⟨⟨t, k⟩, both, ends⟩ := Option.map_eq_some_iff.mp exampleWake_ends
  rw [ran, Option.bind_some] at both
  simp only [Prod.mk.injEq] at facts ends
  obtain ⟨calls, _, _, inside⟩ := facts
  obtain ⟨last, idle, first, second⟩ := ends
  have start : (journaled Bool).Reachable (new, .first) := .initial ⟨rfl, rfl⟩
  obtain ⟨_, _, _, _, _, _, woken, _⟩ := registered_wakers_woken (System.reachable_run _ start ran)
  rw [calls] at woken
  have registered : Registered j 3 := by simp [Registered, inside]
  have quiet : t.Quiet := by
    refine ⟨idle, ?_⟩
    rintro (_ | _)
    · exact first
    · exact second
  obtain ⟨p, done⟩ := woken registered false (List.replicate 4 (.stepWake false false)) t k both last quiet
  exact ⟨k, p, done⟩

end Runs

end Osaka.Sync.AtomicWaker
