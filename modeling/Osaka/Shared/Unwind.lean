import Mathlib.Order.Defs.Unbundled

set_option autoImplicit false

namespace Unwind

/-- How a computation ends: with a value, by unwinding, or not within its fuel. -/
inductive Exit (E A : Type) where
  | returned (value : A)
  | unwound (payload : E)
  | running
  deriving DecidableEq

def Exec (S E A : Type) : Type := S → Exit E A × S

variable {S E A B I : Type}

namespace Exec

def bind (m : Exec S E A) (next : A → Exec S E B) : Exec S E B := fun s =>
  match m s with
  | (.returned value, t) => next value t
  | (.unwound payload, t) => (.unwound payload, t)
  | (.running, t) => (.running, t)

instance : Monad (Exec S E) where
  pure value := fun s => (.returned value, s)
  bind := bind

def throw (payload : E) : Exec S E A := fun s => (.unwound payload, s)

def get : Exec S E S := fun s => (.returned s, s)

def modify (change : S → S) : Exec S E Unit := fun s => (.returned (), change s)

def outOfFuel : Exec S E A := fun s => (.running, s)

/-- A guard lives while `m` runs; its destructor sees the state in which the guard was made. -/
def guarded (enter : S → S) (leave : S → S → S) (m : Exec S E A) : Exec S E A := fun s =>
  match m (enter s) with
  | (.returned value, t) => (.returned value, leave s t)
  | (.unwound payload, t) => (.unwound payload, leave s t)
  | (.running, t) => (.running, t)

def catchUnwind (m : Exec S E A) : Exec S E (Except E A) := fun s =>
  match m s with
  | (.returned value, t) => (.returned (.ok value), t)
  | (.unwound payload, t) => (.returned (.error payload), t)
  | (.running, t) => (.running, t)

/-- `body` answers `inl` to turn again and `inr` to leave the loop. -/
def loop (body : I → Exec S E (I ⊕ B)) : Nat → I → Exec S E B
  | 0, _ => outOfFuel
  | fuel + 1, i => body i >>= fun
    | .inl next => loop body fuel next
    | .inr result => pure result

@[simp]
theorem pure_apply (value : A) (s : S) : (pure value : Exec S E A) s = (.returned value, s) := rfl

@[simp]
theorem throw_apply (payload : E) (s : S) : (throw payload : Exec S E A) s = (.unwound payload, s) :=
  rfl

@[simp]
theorem get_apply (s : S) : (get : Exec S E S) s = (.returned s, s) := rfl

@[simp]
theorem modify_apply (change : S → S) (s : S) :
    (modify change : Exec S E Unit) s = (.returned (), change s) := rfl

theorem bind_apply (m : Exec S E A) (next : A → Exec S E B) (s : S) :
    (m >>= next) s = match m s with
      | (.returned value, t) => next value t
      | (.unwound payload, t) => (.unwound payload, t)
      | (.running, t) => (.running, t) := rfl

theorem bind_returned {m : Exec S E A} {next : A → Exec S E B} {s t : S} {value : A}
    (ended : m s = (.returned value, t)) : (m >>= next) s = next value t := by
  rw [bind_apply, ended]

theorem bind_unwound {m : Exec S E A} {next : A → Exec S E B} {s t : S} {payload : E}
    (ended : m s = (.unwound payload, t)) : (m >>= next) s = (.unwound payload, t) := by
  rw [bind_apply, ended]

theorem bind_running {m : Exec S E A} {next : A → Exec S E B} {s t : S}
    (ended : m s = (.running, t)) : (m >>= next) s = (.running, t) := by
  rw [bind_apply, ended]

theorem catchUnwind_caught {m : Exec S E A} {s t : S} {exit : Exit E A} (ended : m s = (exit, t))
    (halts : exit ≠ .running) : ∃ result, m.catchUnwind s = (.returned result, t) := by
  cases exit with
  | returned value => exact ⟨.ok value, by simp [catchUnwind, ended]⟩
  | unwound payload => exact ⟨.error payload, by simp [catchUnwind, ended]⟩
  | running => exact absurd rfl halts

section Guarded

variable {enter : S → S} {leave : S → S → S} {m : Exec S E A} {s t : S}

theorem guarded_returned {value : A} (ended : m (enter s) = (.returned value, t)) :
    guarded enter leave m s = (.returned value, leave s t) := by
  simp [guarded, ended]

theorem guarded_unwound {payload : E} (ended : m (enter s) = (.unwound payload, t)) :
    guarded enter leave m s = (.unwound payload, leave s t) := by
  simp [guarded, ended]

theorem guarded_running (ended : m (enter s) = (.running, t)) :
    guarded enter leave m s = (.running, t) := by
  simp [guarded, ended]

end Guarded

section Keeps

variable {R : S → S → Prop}

/-- `m` relates the state in which it starts to the state in which it ends, however it ends. -/
def Keeps (R : S → S → Prop) (m : Exec S E A) : Prop := ∀ s, R s (m s).2

theorem Keeps.modify {change : S → S} (kept : ∀ s, R s (change s)) :
    Keeps R (modify change : Exec S E Unit) := kept

theorem Keeps.catchUnwind {m : Exec S E A} (kept : Keeps R m) : Keeps R m.catchUnwind := by
  intro s
  have before := kept s
  unfold Exec.catchUnwind
  split <;> simp_all

variable [Std.Refl R]

theorem Keeps.pure (value : A) : Keeps R (Pure.pure value : Exec S E A) := fun s => refl_of R s

theorem Keeps.throw (payload : E) : Keeps R (throw payload : Exec S E A) := fun s => refl_of R s

theorem Keeps.get : Keeps R (get : Exec S E S) := fun s => refl_of R s

omit [Std.Refl R] in
theorem Keeps.bind [IsTrans S R] {m : Exec S E A} {next : A → Exec S E B} (first : Keeps R m)
    (second : ∀ value, Keeps R (next value)) : Keeps R (m >>= next) := by
  intro s
  have before := first s
  rcases ended : m s with ⟨value | payload | _, t⟩ <;> rw [ended] at before
  · rw [bind_returned ended]
    exact trans_of R before (second value t)
  · rw [bind_unwound ended]
    exact before
  · rw [bind_running ended]
    exact before

theorem Keeps.loop [IsTrans S R] {body : I → Exec S E (I ⊕ B)} (kept : ∀ i, Keeps R (body i))
    (fuel : Nat) (i : I) : Keeps R (loop body fuel i) := by
  induction fuel generalizing i with
  | zero => exact fun s => refl_of R s
  | succ fuel ih =>
    apply Keeps.bind (kept i)
    rintro (next | result)
    · exact ih next
    · exact Keeps.pure result

end Keeps

section Loop

variable {body : I → Exec S E (I ⊕ B)}

/-- The turns a loop takes: its locals and the state before each of them. -/
inductive Reaches (body : I → Exec S E (I ⊕ B)) (i₀ : I) (s₀ : S) : I → S → Prop where
  | start : Reaches body i₀ s₀ i₀ s₀
  | next {i i' : I} {s s' : S} : Reaches body i₀ s₀ i s →
    body i s = (.returned (.inl i'), s') → Reaches body i₀ s₀ i' s'

/-- The exit of a turn as an exit of the loop, if the turn is the last one. -/
def Exit.leaves : Exit E (I ⊕ B) → Option (Exit E B)
  | .returned (.inl _) => none
  | .returned (.inr result) => some (.returned result)
  | .unwound payload => some (.unwound payload)
  | .running => some .running

theorem loop_next {fuel : Nat} {i i' : I} {s s' : S} (turned : body i s = (.returned (.inl i'), s')) :
    loop body (fuel + 1) i s = loop body fuel i' s' := by
  rw [loop, bind_returned turned]

theorem loop_leaves {fuel : Nat} {i : I} {s : S} {exit : Exit E B}
    (left : Exit.leaves (body i s).1 = some exit) :
    loop body (fuel + 1) i s = (exit, (body i s).2) := by
  rcases ended : body i s with ⟨(next | result) | payload | _, t⟩ <;> rw [ended] at left <;>
    cases left
  · rw [loop, bind_returned ended]
    rfl
  · rw [loop, bind_unwound ended]
  · rw [loop, bind_running ended]

theorem Reaches.head {i i' j : I} {s s' t : S} (turned : body i s = (.returned (.inl i'), s'))
    (reached : Reaches body i' s' j t) : Reaches body i s j t := by
  induction reached with
  | start => exact .next .start turned
  | next _ last ih => exact .next ih last

theorem Reaches.loop_eq {i j : I} {s t : S} (reached : Reaches body i s j t) (fuel : Nat) :
    ∃ turns, loop body (turns + fuel) i s = loop body fuel j t := by
  induction reached generalizing fuel with
  | start => exact ⟨0, by rw [Nat.zero_add]⟩
  | next _ last ih =>
    obtain ⟨turns, same⟩ := ih (fuel + 1)
    refine ⟨turns + 1, ?_⟩
    rw [Nat.add_assoc, Nat.add_comm 1 fuel, same, loop_next last]

/-- A loop stops at one of its turns: there it has no fuel left, or that turn is its last. -/
theorem loop_ends (body : I → Exec S E (I ⊕ B)) (fuel : Nat) (i : I) (s : S) :
    ∃ j t, Reaches body i s j t ∧
      (loop body fuel i s = (.running, t) ∨
        ∃ exit, Exit.leaves (body j t).1 = some exit ∧ loop body fuel i s = (exit, (body j t).2)) := by
  induction fuel generalizing i s with
  | zero => exact ⟨i, s, .start, .inl rfl⟩
  | succ fuel ih =>
    cases left : Exit.leaves (body i s).1 with
    | some exit => exact ⟨i, s, .start, .inr ⟨exit, left, loop_leaves left⟩⟩
    | none =>
      rcases turned : body i s with ⟨(next | result) | payload | _, s'⟩ <;> rw [turned] at left <;>
        cases left
      obtain ⟨j, t, reached, ended⟩ := ih next s'
      exact ⟨j, t, reached.head turned, by rwa [loop_next turned]⟩

theorem Reaches.leaves {i j : I} {s t : S} {exit : Exit E B} (reached : Reaches body i s j t)
    (left : Exit.leaves (body j t).1 = some exit) :
    ∃ fuel, loop body fuel i s = (exit, (body j t).2) := by
  obtain ⟨turns, same⟩ := reached.loop_eq 1
  exact ⟨turns + 1, by rw [same, loop_leaves left]⟩

theorem Reaches.invariant (inv : I → S → Prop) {i j : I} {s t : S} (reached : Reaches body i s j t)
    (first : inv i s)
    (step : ∀ i s i' s', inv i s → body i s = (.returned (.inl i'), s') → inv i' s') : inv j t := by
  induction reached with
  | start => exact first
  | next _ last ih => exact step _ _ _ _ ih last

end Loop

end Exec

end Unwind
