import Mathlib.Data.List.Basic

set_option autoImplicit false

namespace Traces

variable {S A : Type} (step : S → A → S)

def states (s : S) : List A → List S
  | [] => [s]
  | a :: rest => s :: states (step s a) rest

def Each (meets : S → A → Prop) (s : S) : List A → Prop
  | [] => True
  | a :: rest => meets s a ∧ Each meets (step s a) rest

instance Each.decidable (meets : S → A → Prop) [∀ s a, Decidable (meets s a)] :
    ∀ (s : S) (actions : List A), Decidable (Each step meets s actions)
  | _, [] => inferInstanceAs (Decidable True)
  | s, a :: rest =>
    have := Each.decidable meets (step s a) rest
    inferInstanceAs (Decidable (meets s a ∧ Each step meets (step s a) rest))

variable {step} {P Q : S → Prop} {meets given : S → A → Prop} {s : S}

theorem states_head (s : S) (actions : List A) : s ∈ states step s actions := by
  cases actions <;> simp [states]

theorem states_invariant (actions : List A) (kept : ∀ s a, P s → P (step s a)) (holds : P s) :
    ∀ t ∈ states step s actions, P t := by
  induction actions generalizing s with
  | nil => simpa [states] using holds
  | cons a rest ih =>
    intro t member
    rcases List.mem_cons.mp member with rfl | later
    · exact holds
    · exact ih (kept s a holds) t later

/-- What holds at first and outlasts each step that meets a condition holds all along a run, and where a step
that does not meet it breaks it, only there. `Q` is what else is known as long as it has held. -/
theorem states_iff (actions : List A) (known : ∀ s a, Q s → P s → Q (step s a))
    (kept : ∀ s a, Q s → P s → (P (step s a) ↔ meets s a)) (start : Q s) (holds : P s) :
    (∀ t ∈ states step s actions, P t) ↔ Each step meets s actions := by
  induction actions generalizing s with
  | nil => simpa [states, Each] using holds
  | cons a rest ih =>
    have next := known s a start holds
    constructor
    · intro all
      have holds' : P (step s a) := all _ (List.mem_cons_of_mem _ (states_head _ rest))
      refine ⟨(kept s a start holds).mp holds', (ih next holds').mp ?_⟩
      exact fun t member => all t (List.mem_cons_of_mem _ member)
    · rintro ⟨met, each⟩ t member
      have holds' := (kept s a start holds).mpr met
      rcases List.mem_cons.mp member with rfl | member
      · exact holds
      · exact (ih next holds').mpr each t member

theorem each_iff (actions : List A) (known : ∀ s a, Q s → given s a → Q (step s a))
    (same : ∀ s a, Q s → (given s a ↔ meets s a)) (start : Q s) :
    Each step given s actions ↔ Each step meets s actions := by
  induction actions generalizing s with
  | nil => exact Iff.rfl
  | cons a rest ih =>
    constructor
    · rintro ⟨met, each⟩
      exact ⟨(same s a start).mp met, (ih (known s a start met)).mp each⟩
    · rintro ⟨met, each⟩
      have met' := (same s a start).mpr met
      exact ⟨met', (ih (known s a start met')).mpr each⟩

theorem Each.implies (actions : List A) (kept : ∀ s a, P s → given s a → P (step s a))
    (enough : ∀ s a, P s → given s a → meets s a) (holds : P s) (each : Each step given s actions) :
    Each step meets s actions := by
  induction actions generalizing s with
  | nil => trivial
  | cons a rest ih =>
    obtain ⟨met, each⟩ := each
    exact ⟨enough s a holds met, ih (kept s a holds met) each⟩

end Traces
