set_option autoImplicit false

namespace GuardedCell

variable {V : Type}

/-- What the owner of a cell does to leave a value in it. -/
inductive Stage (V : Type) where
  | load (value : V)
  | compare (value : V)
  | unset (value : V)
  | restore
  | drop (value : V)
  | write (value : V)
  | set (value : V)
  deriving DecidableEq

/-- A cell with a flag. The other party sets `done`, and reads the cell then if the flag was set. -/
structure View (V : Type) where
  flag : Bool
  done : Bool
  cell : Option V
  stage : Option (Stage V)
  reading : Bool

structure Book (V : Type) where
  written : List V
  dropped : List V
  -- since the owner began the last time
  read : List V
  -- what the owner has left there, to be read when it is done
  asked : Option V

/-- What a step of the owner adds, when it may be that it is to be asked for the value. -/
def Book.after (b : Book V) (cell : Option V) (asks : Bool) : Stage V → Book V
  | .compare value | .set value => if asks then { b with asked := some value } else b
  | .drop _ => { b with dropped := b.dropped ++ cell.toList }
  | .write value => { b with written := b.written ++ [value] }
  | _ => b

/-- The moves of both parties; `done` is looked at in the same instant as the flag. -/
inductive Move (v : View V) (b : Book V) : View V → Book V → Prop where
  | same : Move v b v b
  | call {value : V} : v.stage = none →
      Move v b { v with stage := some (.load value) } { b with read := [], asked := none }
  | leave {value : V} : v.stage = some (.load value) → Move v b { v with stage := none } b
  | begin {value : V} : v.stage = some (.load value) → v.done = false →
      Move v b { v with stage := some (if v.flag then .compare value else .write value) } b
  | keep {value : V} : v.stage = some (.compare value) → v.cell = some value →
      Move v b { v with stage := none } { b with asked := some value }
  | differ {value : V} : v.stage = some (.compare value) → Move v b { v with stage := some (.unset value) } b
  | unset {value : V} : v.stage = some (.unset value) →
      Move v b { v with flag := false, stage := some (if v.done then .restore else .drop value) } b
  | restore : v.stage = some .restore → Move v b { v with flag := true, stage := none } b
  | drop {value current : V} : v.stage = some (.drop value) → v.cell = some current →
      Move v b { v with cell := none, stage := some (.write value) } { b with dropped := b.dropped ++ [current] }
  | write {value : V} : v.stage = some (.write value) →
      Move v b { v with cell := some value, stage := some (.set value) } { b with written := b.written ++ [value] }
  | set {value : V} : v.stage = some (.set value) →
      Move v b { v with flag := true, stage := none } (if v.done then b else { b with asked := some value })
  | finish : Move v b { v with done := true, reading := v.flag } b
  | read {current : V} : v.reading = true → v.cell = some current →
      Move v b { v with reading := false } { b with read := b.read ++ [current] }

variable {v v' : View V} {b b' : Book V}

section Safety

def full (flag : Bool) : Option (Stage V) → Bool
  | none | some (.load _) | some (.compare _) | some (.unset _) => flag
  | some .restore | some (.drop _) | some (.set _) => true
  | some (.write _) => false

def Known (flag done : Bool) : Option (Stage V) → Prop
  | none | some (.load _) => True
  | some (.compare _) | some (.unset _) => flag = true
  | some .restore => flag = false ∧ done = true
  | some (.drop _) | some (.write _) | some (.set _) => flag = false

structure Safe (v : View V) : Prop where
  cell : v.cell.isSome = full v.flag v.stage
  known : Known v.flag v.done v.stage
  placed : ∀ value, v.stage = some (.set value) → v.cell = some value
  reading : v.reading = true → v.done = true ∧ (v.flag = true ∨ v.stage = some .restore)

theorem Safe.flagged (safe : Safe v) (flag : v.flag = true) : v.cell.isSome = true := by
  have cell := safe.cell
  have known := safe.known
  rw [flag] at cell known
  cases stage : v.stage with
  | none => simpa [stage, full] using cell
  | some now =>
    rw [stage] at cell known
    cases now <;> simp_all [full, Known]

theorem Safe.readable (safe : Safe v) (reading : v.reading = true) : ∃ current, v.cell = some current := by
  apply Option.isSome_iff_exists.mp
  rcases (safe.reading reading).2 with flag | stage
  · exact safe.flagged flag
  · rw [safe.cell, stage]
    rfl

theorem Safe.stored {value : V} (safe : Safe v)
    (stage : v.stage = some (.compare value) ∨ v.stage = some (.drop value)) : ∃ current, v.cell = some current := by
  apply Option.isSome_iff_exists.mp
  rcases stage with stage | stage
  · apply safe.flagged
    have known := safe.known
    rw [stage] at known
    exact known
  · rw [safe.cell, stage]
    rfl

theorem Move.safe (safe : Safe v) (move : Move v b v' b') : Safe v' := by
  obtain ⟨cell, known, placed, reading⟩ := safe
  cases move with
  | same => exact ⟨cell, known, placed, reading⟩
  | call stage | leave stage | differ stage | keep stage _ | restore stage =>
    rw [stage] at cell known reading
    constructor <;> simp_all [full, Known]
  | begin stage undone =>
    rw [stage] at cell known reading
    cases flag : v.flag <;> constructor <;> simp_all [full, Known]
  | unset stage =>
    rw [stage] at cell known reading
    cases done : v.done <;> constructor <;> simp_all [full, Known]
  | drop stage _ | write stage | set stage =>
    rw [stage] at cell known reading
    constructor <;> simp_all [full, Known]
  | finish =>
    refine ⟨cell, ?_, placed, fun reads => ⟨rfl, .inl reads⟩⟩
    cases stage : v.stage with
    | none => trivial
    | some now =>
      rw [stage] at known
      cases now <;> simp_all [Known]
  | read _ _ => exact ⟨cell, known, placed, fun reads => nomatch reads⟩

end Safety

section Books

/-- Each value that is written is dropped once, unless it is still there. -/
def Balanced (v : View V) (b : Book V) : Prop := b.written = b.dropped ++ v.cell.toList

theorem Move.balanced (safe : Safe v) (balanced : Balanced v b) (move : Move v b v' b') : Balanced v' b' := by
  unfold Balanced at balanced ⊢
  cases move with
  | drop stage stored =>
    rw [balanced, stored]
    simp
  | write stage =>
    have empty : v.cell = none := by
      have cell := safe.cell
      rw [stage] at cell
      exact Option.isSome_eq_false_iff.mp cell |> Option.isNone_iff_eq_none.mp
    simp [balanced, empty]
  | set _ =>
    split
    next => exact balanced
    next => exact balanced
  | _ => exact balanced

/-- What has been left to be read has been read, or is going to be, when it is done. -/
structure Awaited (v : View V) (b : Book V) : Prop where
  asked : ∀ value, b.asked = some value → v.stage = none ∧ v.flag = true ∧ v.cell = some value ∧
    (v.done = true → v.reading = true ∨ value ∈ b.read)
  compared : ∀ value current, v.stage = some (.compare value) → v.cell = some current → v.done = true →
    v.reading = true ∨ current ∈ b.read

theorem Awaited.resting (awaited : Awaited v b) {stage : Stage V} (busy : v.stage = some stage) : b.asked = none := by
  cases asked : b.asked with
  | none => rfl
  | some value =>
    have rests := (awaited.asked value asked).1
    rw [busy] at rests
    cases rests

theorem Move.awaited (safe : Safe v) (awaited : Awaited v b) (move : Move v b v' b') : Awaited v' b' := by
  have idle {stage : Stage V} (busy : v.stage = some stage) (value : V) : b.asked ≠ some value := by
    rw [awaited.resting busy]
    exact nofun
  cases move with
  | same => exact awaited
  | call _ => exact ⟨nofun, nofun⟩
  | leave stage => exact ⟨fun value asked => absurd asked (idle stage value), nofun⟩
  | differ stage => exact ⟨fun value asked => absurd asked (idle stage value), nofun⟩
  | restore stage => exact ⟨fun value asked => absurd asked (idle stage value), nofun⟩
  | drop stage _ => exact ⟨fun value asked => absurd asked (idle stage value), nofun⟩
  | write stage => exact ⟨fun value asked => absurd asked (idle stage value), nofun⟩
  | begin stage undone =>
    refine ⟨fun value asked => absurd asked (idle stage value), ?_⟩
    intro value current _ _ done
    rw [undone] at done
    cases done
  | unset stage =>
    refine ⟨fun value asked => absurd asked (idle stage value), ?_⟩
    intro value current stage
    cases done : v.done <;> simp [done] at stage
  | @keep value stage stored =>
    refine ⟨?_, nofun⟩
    intro given asked
    obtain rfl := Option.some.inj asked
    have known := safe.known
    rw [stage] at known
    exact ⟨rfl, known, stored, awaited.compared value value stage stored⟩
  | @set value stage =>
    refine ⟨?_, nofun⟩
    intro given asked
    cases done : v.done with
    | true =>
      simp only [done, if_true] at asked
      exact absurd asked (idle stage given)
    | false =>
      obtain rfl : value = given := by simpa [done] using asked
      exact ⟨rfl, rfl, safe.placed value stage, fun late => absurd late (by simp)⟩
  | finish =>
    constructor
    · intro value asked
      obtain ⟨rests, flag, stored, _⟩ := awaited.asked value asked
      exact ⟨rests, flag, stored, fun _ => .inl flag⟩
    · intro value current stage _ _
      have known := safe.known
      rw [stage] at known
      exact .inl known
  | @read current reading stored =>
    constructor
    · intro value asked
      obtain ⟨rests, flag, held, told⟩ := awaited.asked value asked
      obtain rfl : current = value := Option.some.inj (stored.symm.trans held)
      exact ⟨rests, flag, held, fun _ => .inr (by simp)⟩
    · intro value held stage cell _
      obtain rfl : current = held := Option.some.inj (stored.symm.trans cell)
      exact .inr (by simp)

end Books

section Freeing

structure Tidy (v : View V) (b : Book V) (freed : Bool) : Prop where
  safe : freed = false → Safe v
  balanced : Balanced v b
  awaited : freed = false → Awaited v b
  told : ∀ value, b.asked = some value → v.done = true → v.reading = true ∨ value ∈ b.read

theorem Tidy.moves (tidy : Tidy v b false) (move : Move v b v' b') : Tidy v' b' false := by
  have safe := tidy.safe rfl
  have awaited := move.awaited safe (tidy.awaited rfl)
  refine ⟨fun _ => move.safe safe, move.balanced safe tidy.balanced, fun _ => awaited, ?_⟩
  intro value asked
  exact (awaited.asked value asked).2.2.2

theorem Tidy.frees {freed : Bool} (tidy : Tidy v b freed) (idle : v.reading = false) (done : v'.done = v.done)
    (empty : v'.cell = none) : Tidy v' { b with dropped := b.dropped ++ v.cell.toList } true := by
  refine ⟨nofun, ?_, nofun, ?_⟩
  · simp [Balanced, empty, tidy.balanced.symm]
  · intro value asked finished
    rw [done] at finished
    rcases tidy.told value asked finished with reading | read
    · rw [idle] at reading
      cases reading
    · exact .inr read

end Freeing

end GuardedCell
