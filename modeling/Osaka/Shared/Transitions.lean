set_option autoImplicit false

namespace Transitions

variable {S A F T : Type}

inductive Outcome (S F : Type) where
  | next (state : S)
  | disabled
  | failed (fault : F)

namespace Outcome

def attempt (result : Except F T) (next : T → Outcome S F) : Outcome S F :=
  match result with
  | .ok value => next value
  | .error fault => .failed fault

@[simp]
theorem attempt_ok (value : T) (next : T → Outcome S F) : attempt (.ok value) next = next value := rfl

theorem attempt_next {result : Except F S} {state : S} (stepped : attempt result .next = .next state) :
    result = .ok state := by
  cases result with
  | ok value => simpa using stepped
  | error fault => simp [attempt] at stepped

/-- A step that fails keeps nothing. -/
def Kept (P : S → Prop) : Outcome S F → Prop
  | .next state => P state
  | .disabled => True
  | .failed _ => False

theorem Kept.mono {P Q : S → Prop} {outcome : Outcome S F} (kept : outcome.Kept P)
    (weaker : ∀ s, P s → Q s) : outcome.Kept Q := by
  cases outcome with
  | next state => exact weaker state kept
  | disabled => trivial
  | failed fault => exact kept

theorem Kept.next {P : S → Prop} {outcome : Outcome S F} {s : S} (kept : outcome.Kept P)
    (stepped : outcome = .next s) : P s := by
  rw [stepped] at kept
  exact kept

theorem Kept.sound {P : S → Prop} {outcome : Outcome S F} (kept : outcome.Kept P) (fault : F) :
    outcome ≠ .failed fault := by
  intro failed
  rw [failed] at kept
  exact kept

def Leads (P : S → Prop) : Outcome S F → Prop
  | .next state => P state
  | .disabled => True
  | .failed _ => True

theorem Leads.next {P : S → Prop} {outcome : Outcome S F} {s : S} (leads : outcome.Leads P)
    (stepped : outcome = .next s) : P s := by
  rw [stepped] at leads
  exact leads

theorem Leads.mono {P Q : S → Prop} {outcome : Outcome S F} (leads : outcome.Leads P) (weaker : ∀ s, P s → Q s) :
    outcome.Leads Q := by
  cases outcome with
  | next state => exact weaker state leads
  | disabled => trivial
  | failed fault => trivial

theorem Leads.attempt {P : S → Prop} {result : Except F T} {next : T → Outcome S F}
    (each : ∀ value, result = .ok value → (next value).Leads P) : (attempt result next).Leads P := by
  cases result with
  | ok value => exact each value rfl
  | error fault => trivial

theorem attempt_enabled {result : Except F T} {next : T → Outcome S F}
    (each : ∀ value, next value ≠ .disabled) : attempt result next ≠ .disabled := by
  cases result with
  | ok value => exact each value
  | error fault => exact (nomatch ·)

theorem Kept.taken {P : S → Prop} {outcome : Outcome S F} (kept : outcome.Kept P) (enabled : outcome ≠ .disabled) :
    ∃ s, outcome = .next s ∧ P s := by
  cases outcome with
  | next state => exact ⟨state, rfl, kept⟩
  | disabled => exact absurd rfl enabled
  | failed fault => exact kept.elim

end Outcome

structure System (S A F : Type) where
  initial : S → Prop
  within : S → Prop
  step : S → A → Outcome S F

namespace System

inductive Reachable (system : System S A F) : S → Prop where
  | initial {s : S} : system.initial s → Reachable system s
  | step {s t : S} {a : A} : Reachable system s → system.within s → system.step s a = .next t →
    Reachable system t

variable {system : System S A F} {P Q : S → Prop}

/-- What holds at first and outlasts every step from a state where `Q` is known to hold. -/
theorem Reachable.relative (known : ∀ s, system.Reachable s → Q s) (start : ∀ s, system.initial s → P s)
    (kept : ∀ s a, Q s → P s → system.within s → (system.step s a).Kept P) {s : S}
    (reached : system.Reachable s) : P s := by
  induction reached with
  | initial first => exact start _ first
  | step before within stepped ih => exact (kept _ _ (known _ before) ih within).next stepped

theorem Reachable.preserved (start : ∀ s, system.initial s → P s)
    (kept : ∀ s a t, P s → system.within s → system.step s a = .next t → P t) {s : S}
    (reached : system.Reachable s) : P s := by
  induction reached with
  | initial first => exact start _ first
  | step before within stepped ih => exact kept _ _ _ ih within stepped

theorem Reachable.invariant (start : ∀ s, system.initial s → P s)
    (kept : ∀ s a, P s → system.within s → (system.step s a).Kept P) {s : S}
    (reached : system.Reachable s) : P s := by
  apply Reachable.relative (Q := fun _ => True) (fun _ _ => trivial) start _ reached
  intro s a _ holds within
  exact kept s a holds within

inductive Leads (system : System S A F) (s : S) : S → Prop where
  | refl : Leads system s s
  | tail {t u : S} {a : A} : Leads system s t → system.within t → system.step t a = .next u → Leads system s u

theorem Leads.single {s t : S} {a : A} (within : system.within s) (stepped : system.step s a = .next t) :
    system.Leads s t :=
  .tail .refl within stepped

theorem Leads.trans {s t u : S} (first : system.Leads s t) (second : system.Leads t u) : system.Leads s u := by
  induction second with
  | refl => exact first
  | tail _ within stepped ih => exact ih.tail within stepped

theorem Leads.reachable {s t : S} (leads : system.Leads s t) (reached : system.Reachable s) : system.Reachable t := by
  induction leads with
  | refl => exact reached
  | tail _ within stepped ih => exact ih.step within stepped

variable (system) [DecidablePred system.within]

def run (s : S) : List A → Option S
  | [] => some s
  | a :: rest =>
    if system.within s then
      match system.step s a with
      | .next t => run t rest
      | .disabled => none
      | .failed _ => none
    else
      none

theorem run_cons {a : A} {rest : List A} {s u : S} (ran : system.run s (a :: rest) = some u) :
    ∃ t, system.within s ∧ system.step s a = .next t ∧ system.run t rest = some u := by
  unfold run at ran
  split at ran
  next within =>
    cases stepped : system.step s a with
    | next t => exact ⟨t, within, rfl, by simpa [stepped] using ran⟩
    | disabled => simp [stepped] at ran
    | failed fault => simp [stepped] at ran
  next => simp at ran

theorem reachable_run {actions : List A} {s t : S} (reached : system.Reachable s)
    (ran : system.run s actions = some t) : system.Reachable t := by
  induction actions generalizing s with
  | nil =>
    obtain rfl : s = t := Option.some.inj ran
    exact reached
  | cons a rest ih =>
    obtain ⟨u, within, stepped, ran⟩ := system.run_cons ran
    exact ih (reached.step within stepped) ran

/-- A party whose own steps make progress comes to its end, whatever it chooses in them. -/
theorem run_ends {B : Type} {P D : S → Prop} {m : S → Nat} {f : B → A}
    (progress : ∀ s b, P s → ¬D s → system.within s ∧
      ∃ t, system.step s (f b) = .next t ∧ P t ∧ m t < m s)
    {s : S} (holds : P s) (choices : Nat → B) :
    ∃ k ≤ m s, ∃ t, system.run s ((List.range k).map fun n => f (choices n)) = some t ∧ P t ∧ D t := by
  induction bound : m s using Nat.strongRecOn generalizing s choices with
  | ind n ih =>
    by_cases done : D s
    · exact ⟨0, Nat.zero_le _, s, rfl, holds, done⟩
    · obtain ⟨within, t, stepped, kept, less⟩ := progress s (choices 0) holds done
      obtain ⟨k, short, u, ran, ends⟩ := ih (m t) (bound ▸ less) kept (fun n => choices (n + 1)) rfl
      refine ⟨k + 1, by omega, u, ?_, ends⟩
      simp only [List.range_succ_eq_map, List.map_cons, List.map_map, run, within, if_true, stepped]
      exact ran

/-- Each step that costs one is paid from what was there before, or from what others have brought, while `D` holds. -/
theorem run_pays {P D : S → Prop} {m : S → Nat} (costs brings : A → Bool) (price : Nat)
    (pays : ∀ s a t, P s → system.within s → system.step s a = .next t →
      P t ∧ (D t → D s ∧ m t + (costs a).toNat ≤ m s + price * (brings a).toNat))
    {s t : S} {actions : List A} (holds : P s) (ran : system.run s actions = some t) (last : D t) :
    D s ∧ m t + actions.countP costs ≤ m s + price * actions.countP brings := by
  induction actions generalizing s with
  | nil =>
    obtain rfl : s = t := Option.some.inj ran
    exact ⟨last, Nat.le_refl _⟩
  | cons a rest ih =>
    obtain ⟨u, within, stepped, ran⟩ := system.run_cons ran
    obtain ⟨kept, paid⟩ := pays s a u holds within stepped
    obtain ⟨there, later⟩ := ih kept ran
    obtain ⟨here, now⟩ := paid there
    have counted (f : A → Bool) : (a :: rest).countP f = (f a).toNat + rest.countP f := by
      rw [List.countP_cons, Nat.add_comm]
      cases f a <;> rfl
    rw [counted, counted, Nat.mul_add]
    exact ⟨here, by omega⟩

end System

section Simulation

variable {B G U : Type} {system : System S A F} {other : System U B G}

/-- A system whose every step is a step of another, or none of it, reaches only what that one does. -/
theorem System.Reachable.simulates (view : S → U) (start : ∀ s, system.initial s → other.initial (view s))
    (moves : ∀ s a t, system.Reachable s → system.within s → system.step s a = .next t →
      view t = view s ∨ other.within (view s) ∧ ∃ b, other.step (view s) b = .next (view t))
    {s : S} (reached : system.Reachable s) : other.Reachable (view s) := by
  induction reached with
  | initial first => exact .initial (start _ first)
  | step before within stepped ih =>
    rcases moves _ _ _ before within stepped with same | ⟨within', b, stepped'⟩
    · rw [same]
      exact ih
    · exact ih.step within' stepped'

end Simulation

section Observation

variable {W : Type} {system : System S A F} {first : W} {observe : W → S → A → S → W}

/-- The system beside an observer, which sees each step and changes nothing. -/
def System.observed (system : System S A F) (first : W) (observe : W → S → A → S → W) : System (S × W) A F where
  initial s := system.initial s.1 ∧ s.2 = first
  within s := system.within s.1
  step s a :=
    match system.step s.1 a with
    | .next t => .next (t, observe s.2 s.1 a t)
    | .disabled => .disabled
    | .failed fault => .failed fault

theorem System.observed_step {s u : S × W} {a : A} (stepped : (system.observed first observe).step s a = .next u) :
    ∃ t, system.step s.1 a = .next t ∧ u = (t, observe s.2 s.1 a t) := by
  simp only [System.observed] at stepped
  cases step : system.step s.1 a with
  | next t =>
    simp only [step, Outcome.next.injEq] at stepped
    exact ⟨t, rfl, stepped.symm⟩
  | disabled => simp [step] at stepped
  | failed fault => simp [step] at stepped

theorem System.Reachable.of_observed {s : S × W} (reached : (system.observed first observe).Reachable s) :
    system.Reachable s.1 := by
  induction reached with
  | initial start => exact .initial start.1
  | step before within stepped ih =>
    obtain ⟨t, step, rfl⟩ := System.observed_step stepped
    exact .step ih within step

/-- The observer misses no run. -/
theorem System.Reachable.observed {s : S} (reached : system.Reachable s) :
    ∃ w, (system.observed first observe).Reachable (s, w) := by
  induction reached with
  | initial start => exact ⟨first, .initial ⟨start, rfl⟩⟩
  | @step s t a before within stepped ih =>
    obtain ⟨w, seen⟩ := ih
    refine ⟨observe w s a t, .step seen within (a := a) ?_⟩
    simp [System.observed, stepped]

theorem System.Reachable.watched {P : S → W → Prop} (start : ∀ s, system.initial s → P s first)
    (kept : ∀ s w a t, system.Reachable s → P s w → system.within s → system.step s a = .next t →
      P t (observe w s a t)) {s : S × W} (reached : (system.observed first observe).Reachable s) : P s.1 s.2 := by
  induction reached with
  | initial initial =>
    rw [initial.2]
    exact start _ initial.1
  | step before within stepped ih =>
    obtain ⟨t, step, rfl⟩ := System.observed_step stepped
    exact kept _ _ _ _ before.of_observed ih within step

end Observation

end Transitions
