import Osaka.Runtime.Shutdown
import Osaka.Task.Effects

set_option autoImplicit false

namespace Osaka.Shutdown

open Transitions Osaka.Task

variable {V : Type} {p q : Pool V} {i j : TaskId} {c d : Cell V}

namespace Pool

def placed (p : Pool V) (task : TaskId) : Nat :=
  p.submitted.count task + p.tasks.count task + (p.queue.getD []).count task + p.core.rest.count task

def Holds (p : Pool V) (task : TaskId) : Prop := task ∈ p.stack ∨ task ∈ p.elsewhere

def Drops (p : Pool V) : Prop := ∃ phase, p.core = .dropping phase

end Pool

/-- A task against the containers of its scheduler, while `loose` of its Notifieds are in none. -/
structure Fits (p : Pool V) (loose : Nat) (task : TaskId) (c : Cell V) : Prop where
  sound : Sound c
  listed : c.owner = .listed ↔ task ∈ p.owned.list
  placed : c.notified = p.placed task + loose
  popped : c.owner = .popped → p.Holds task
  runner : c.runner ≠ none → p.Holds task ∨ p.core = .running (some task)
  polling : c.runner = some .polling → p.core = .running (some task)
  -- the reference of the OwnedTasks is given up by whoever ends the task
  waiting : c.owner ≠ .released → c.runner ≠ none → p.core = .running (some task)

structure Shape (p : Pool V) : Prop where
  nodup : p.owned.list.Nodup
  listed : ∀ task ∈ p.owned.list, task < p.cells.length
  held : ∀ task, p.Holds task → task < p.cells.length
  placed : ∀ task, 0 < p.placed task → task < p.cells.length
  apart : p.elsewhere.Nodup
  closed : p.owned.closed = true ↔ p.Drops
  stack : p.stack ≠ [] → p.core.isDropping = true
  late : p.elsewhere ≠ [] → p.Drops
  drained : p.Drops → p.core ≠ .dropping .closing → p.owned.list = []
  emptied : p.Drops → p.core ≠ .dropping .closing → p.core ≠ .dropping .drainingLocal →
    p.tasks = [] ∧ p.queue = none

structure Coherent (p : Pool V) : Prop where
  shape : Shape p
  fits : ∀ task c, p.cells[task]? = some c → Fits p 0 task c

structure Follows (p q : Pool V) : Prop where
  coherent : Coherent q
  drops : p.Drops → q.Drops
  finished : p.core = .dropping .finished → q.core = .dropping .finished
  endings : ∀ (task : TaskId) (d : Cell V), q.cells[task]? = some d → p.cells[task]? = none ∧ d.endings = [] ∨
    ∃ c : Cell V, p.cells[task]? = some c ∧ (c.runner = some .polling ∨ d.endings = c.endings ∨
      ∃ panics, d.endings = c.endings ++ [.cancelled panics])

theorem new_coherent : Coherent (Pool.new : Pool V) := by
  constructor
  · constructor <;> simp [Pool.new, Pool.Holds, Pool.placed, Pool.Drops, CorePlace.rest]
  · simp [Pool.new]

section Frames

theorem Fits.other (fits : Fits p 0 j c) (listed : j ∈ q.owned.list ↔ j ∈ p.owned.list)
    (placed : q.placed j = p.placed j) (holds : p.Holds j → q.Holds j)
    (current : c.runner ≠ none → p.core = .running (some j) → q.core = .running (some j)) : Fits q 0 j c := by
  constructor
  · exact fits.sound
  · rw [listed, fits.listed]
  · rw [placed, fits.placed]
  · exact fun popped => holds (fits.popped popped)
  · exact fun busy => (fits.runner busy).imp holds (current busy)
  · intro polling
    apply current _ (fits.polling polling)
    simp [polling]
  · exact fun waiting busy => current busy (fits.waiting waiting busy)

theorem afterStep_cells (a : Action V) : (p.afterStep i a c d).cells = p.cells.set i d := rfl

theorem afterStep_found {a : Action V} {b : Cell V} (found : (p.afterStep i a c d).cells[j]? = some b) :
    j = i ∧ b = d ∨ j ≠ i ∧ p.cells[j]? = some b := by
  rw [afterStep_cells] at found
  by_cases same : j = i
  · subst same
    rw [List.getElem?_set_self'] at found
    cases present : p.cells[j]? with
    | none => simp [present] at found
    | some before => exact .inl ⟨rfl, by simpa [present] using found.symm⟩
  · right
    exact ⟨same, by rwa [List.getElem?_set_ne (Ne.symm same)] at found⟩

@[simp]
theorem afterStep_core (a : Action V) : (p.afterStep i a c d).core = p.core := rfl

@[simp]
theorem afterStep_stack (a : Action V) : (p.afterStep i a c d).stack = p.stack := rfl

@[simp]
theorem afterStep_elsewhere (a : Action V) : (p.afterStep i a c d).elsewhere = p.elsewhere := rfl

@[simp]
theorem afterStep_tasks (a : Action V) : (p.afterStep i a c d).tasks = p.tasks := rfl

@[simp]
theorem afterStep_queue (a : Action V) : (p.afterStep i a c d).queue = p.queue := rfl

@[simp]
theorem afterStep_length (a : Action V) : (p.afterStep i a c d).cells.length = p.cells.length := by
  simp [afterStep_cells]

@[simp]
theorem afterStep_holds (a : Action V) : (p.afterStep i a c d).Holds j ↔ p.Holds j := Iff.rfl

@[simp]
theorem afterStep_drops (a : Action V) : (p.afterStep i a c d).Drops ↔ p.Drops := Iff.rfl

@[simp]
theorem afterStep_closed (a : Action V) : (p.afterStep i a c d).owned.closed = p.owned.closed := by
  cases a <;> rfl

theorem afterStep_owned {a : Action V} (scheduled : schedules a = true) :
    (p.afterStep i a c d).owned = p.owned := by
  cases a <;> first | rfl | simp [schedules] at scheduled

theorem afterStep_list (a : Action V) :
    (p.afterStep i a c d).owned.list = p.owned.list ∨
      (p.afterStep i a c d).owned.list = p.owned.list.erase i := by
  cases a with
  | release => exact .inr rfl
  | _ => exact .inl rfl

theorem afterStep_placed (a : Action V) :
    (p.afterStep i a c d).placed j = p.placed j + if c.notified < d.notified ∧ j = i then 1 else 0 := by
  have submitted : (p.afterStep i a c d).submitted = if c.notified < d.notified then i :: p.submitted else p.submitted := rfl
  unfold Pool.placed
  rw [submitted, afterStep_tasks, afterStep_queue, afterStep_core]
  by_cases more : c.notified < d.notified
  · by_cases same : j = i
    · simp [more, same]
      omega
    · simp [more, same, List.count_cons_of_ne (Ne.symm same)]
  · simp [more]

theorem afterStep_coherent {a : Action V} (shape : Shape p) (found : p.cells[i]? = some c)
    (others : ∀ task b, task ≠ i → p.cells[task]? = some b → Fits p 0 task b)
    (fits : Fits (p.afterStep i a c d) 0 i d) : Coherent (p.afterStep i a c d) := by
  obtain ⟨nodup, listed, held, placed, apart, closed, stack, late, drained, emptied⟩ := shape
  have known : i < p.cells.length := (List.getElem?_eq_some_iff.mp found).1
  have subset (task : TaskId) (present : task ∈ (p.afterStep i a c d).owned.list) : task ∈ p.owned.list := by
    rcases afterStep_list a with same | erased
    · rwa [same] at present
    · rw [erased] at present
      exact List.mem_of_mem_erase present
  constructor
  · constructor
    · rcases afterStep_list (p := p) (i := i) (c := c) (d := d) a with same | erased
      · rwa [same]
      · rw [erased]
        exact nodup.erase i
    · intro task present
      simpa using listed task (subset task present)
    · intro task holds
      simpa using held task holds
    · intro task present
      rw [afterStep_placed] at present
      rw [afterStep_length]
      split at present
      next new => exact new.2 ▸ known
      next => exact placed task present
    · exact apart
    · simpa using closed
    · exact stack
    · exact late
    · intro drops opened
      rw [List.eq_nil_iff_forall_not_mem]
      intro task present
      simpa [drained drops opened] using subset task present
    · exact emptied
  · intro task b at'
    rcases afterStep_found at' with ⟨rfl, rfl⟩ | ⟨different, at'⟩
    · exact fits
    · apply (others task b different at').other
      · rcases afterStep_list (p := p) (i := i) (c := c) (d := d) a with same | erased
        · rw [same]
        · rw [erased, List.mem_erase_of_ne different]
      · simp [afterStep_placed, different]
      · exact id
      · exact fun _ => id

end Frames

end Osaka.Shutdown
