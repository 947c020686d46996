import Osaka.Sync.Oneshot

set_option autoImplicit false

namespace Osaka.Sync.Oneshot

open GuardedCell Transitions

variable {T W : Type}

section Words

variable {flag flag' : Flag} {state : State}

theorem Flag.mask_eq (flag : Flag) : flag.mask = BitVec.twoPow 64 flag.index := by
  cases flag <;> rfl

theorem Flag.index_lt (flag : Flag) : flag.index < 64 := by
  cases flag <;> decide

theorem Flag.index_inj : flag.index = flag'.index ↔ flag = flag' := by
  cases flag <;> cases flag' <;> decide

theorem State.has_eq (state : State) (flag : Flag) : State.has state flag = PackedWord.has state flag.index := by
  rw [State.has, flag.mask_eq, PackedWord.has]

@[simp]
theorem State.has_new : State.has State.new flag = false := by
  cases flag <;> decide

@[simp]
theorem State.has_set : State.has (State.set state flag) flag' = (decide (flag = flag') || State.has state flag') := by
  rw [State.has_eq, State.has_eq, State.set, flag.mask_eq]
  have packed := PackedWord.has_set (x := state) flag.index_lt flag'.index_lt
  simpa only [PackedWord.set, Flag.index_inj] using packed

@[simp]
theorem State.has_unset :
    State.has (State.unset state flag) flag' = (!decide (flag = flag') && State.has state flag') := by
  rw [State.has_eq, State.has_eq, State.unset, flag.mask_eq]
  have packed := PackedWord.has_unset (x := state) flag.index_lt flag'.index_lt
  simpa only [PackedWord.unset, Flag.index_inj] using packed

end Words

section Registering

def Progress.stage : Progress W → Option (Stage W)
  | .next stage => some stage
  | _ => none

def Progress.asks : Progress W → Bool
  | .pending => true
  | _ => false

variable [Wakers W]

theorem register_ok (flag done : Flag) {state : State} {task : Option W} {stage : Stage W} {reading : Bool}
    (apart : flag ≠ done) (safe : Safe ⟨State.has state flag, State.has state done, task, some stage, reading⟩)
    (undone : ∀ waker, stage = .load waker → State.has state done = false) (b : Book W) :
    ∃ progress state' task', register flag done state task stage = .ok (progress, state', task') ∧
      (∀ other, other ≠ flag → State.has state' other = State.has state other) ∧
      (progress = .ready → State.has state done = true) ∧
      Move ⟨State.has state flag, State.has state done, task, some stage, reading⟩ b
        ⟨State.has state' flag, State.has state done, task', progress.stage, reading⟩
        (b.after task progress.asks stage) := by
  have far (other : Flag) (differs : other ≠ flag) : ¬flag = other := fun same => differs same.symm
  cases stage with
  | load waker => exact ⟨_, _, _, rfl, fun _ _ => rfl, nofun, .begin rfl (undone waker rfl)⟩
  | compare waker =>
    obtain ⟨current, stored⟩ := safe.stored (.inl rfl)
    obtain rfl : task = some current := stored
    by_cases same : Wakers.willWake current waker = true
    · obtain rfl := Wakers.same current waker same
      refine ⟨.pending, _, _, ?_, fun _ _ => rfl, nofun, .keep rfl rfl⟩
      simp [register, withTask, same, Except.map]
    · refine ⟨.next (.unset waker), _, _, ?_, fun _ _ => rfl, nofun, .differ rfl⟩
      simp [register, withTask, same, Except.map]
  | unset waker =>
    refine ⟨_, _, _, rfl, ?_, nofun, ?_⟩
    · intro other differs
      simp [far other differs]
    · have moved := Move.unset (v := ⟨State.has state flag, State.has state done, task, some (.unset waker), reading⟩)
        (b := b) rfl
      simpa [apart, Progress.stage, Progress.asks, Book.after] using moved
  | restore =>
    refine ⟨_, _, _, rfl, ?_, ?_, ?_⟩
    · intro other differs
      simp [far other differs]
    · intro _
      exact safe.known.2
    · have moved := Move.restore (v := ⟨State.has state flag, State.has state done, task, some .restore, reading⟩)
        (b := b) rfl
      simpa [Progress.stage, Book.after] using moved
  | drop waker =>
    obtain ⟨current, stored⟩ := safe.stored (.inr rfl)
    obtain rfl : task = some current := stored
    exact ⟨_, _, _, rfl, fun _ _ => rfl, nofun, .drop rfl rfl⟩
  | write waker => exact ⟨_, _, _, rfl, fun _ _ => rfl, nofun, .write rfl⟩
  | set waker =>
    refine ⟨_, _, _, rfl, ?_, ?_, ?_⟩
    · intro other differs
      simp [far other differs]
    · cases late : State.has state done <;> simp [late, apart]
    · have moved := Move.set (v := ⟨State.has state flag, State.has state done, task, some (.set waker), reading⟩)
        (b := b) rfl
      cases late : State.has state done <;> simpa [late, apart, Progress.stage, Progress.asks, Book.after] using moved

end Registering

end Osaka.Sync.Oneshot
