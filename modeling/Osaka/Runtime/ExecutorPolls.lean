import Osaka.Runtime.ExecutorWakes

set_option autoImplicit false

namespace Osaka.Executor.Recorded

open Traces

variable {self : Recorded} {action : Action}

def Queued (recorded : Recorded) (task : TaskId) : Prop :=
  task ∈ recorded.executor.queue.tasks ++ recorded.executor.queue.receiver

/-- No task is polled that has finished, nor one that has not been woken since its last poll. -/
def Due (self : Recorded) (action : Action) : Prop :=
  ∀ task ∈ self.executor.polls action,
    task ∉ self.history.finished ∧ (task ∈ self.history.polled → task ∈ self.history.woken)

/-- A task is woken only while it is unfinished and not queued, and it finishes only while it is not queued. -/
def Single (self : Recorded) (action : Action) : Prop :=
  (∀ task ∈ self.executor.wakes action, task ∉ self.history.finished ∧ ¬ self.Queued task) ∧
    ∀ task ∈ self.executor.finishes action, ¬ self.Queued task

instance (self : Recorded) (task : TaskId) : Decidable (self.Queued task) :=
  inferInstanceAs (Decidable (_ ∈ _))

instance (self : Recorded) (action : Action) : Decidable (self.Due action) :=
  inferInstanceAs (Decidable (∀ task ∈ _, _))

instance (self : Recorded) (action : Action) : Decidable (self.Single action) :=
  inferInstanceAs (Decidable (_ ∧ _))

structure Known (recorded : Recorded) : Prop where
  queued : ∀ task, recorded.Queued task → task < recorded.executor.created
  wakers : ∀ task ∈ recorded.executor.wakers, task < recorded.executor.created
  holds : ∀ task ∈ recorded.executor.holds, task ∈ recorded.executor.wakers
  finished : ∀ task ∈ recorded.history.finished, task ∈ recorded.executor.wakers
  polled : ∀ task ∈ recorded.history.polled, task ∈ recorded.executor.wakers

/-- Each task is queued once, and only to be polled. -/
structure Counted (recorded : Recorded) : Prop where
  known : recorded.Known
  nodup : (recorded.executor.queue.tasks ++ recorded.executor.queue.receiver).Nodup
  due : ∀ task, recorded.Queued task →
    task ∉ recorded.history.finished ∧ (task ∈ recorded.history.polled → task ∈ recorded.history.woken)

theorem start_counted : start.Counted := by
  constructor
  · constructor <;> simp [start, Queued, Executor.new, TaskQueue.new, History.new, Executor.holds, Reactor.registered,
      Reactor.new]
  · exact List.nodup_nil
  · simp [start, Queued, Executor.new, TaskQueue.new]

theorem Known.fresh (known : self.Known) : ¬ self.Queued self.executor.created ∧
    self.executor.created ∉ self.history.finished ∧ self.executor.created ∉ self.history.polled := by
  refine ⟨fun queued => ?_, fun finished => ?_, fun polled => ?_⟩
  · exact Nat.lt_irrefl _ (known.queued _ queued)
  · exact Nat.lt_irrefl _ (known.wakers _ (known.finished _ finished))
  · exact Nat.lt_irrefl _ (known.wakers _ (known.polled _ polled))

theorem counted_due (counted : self.Counted) : self.Due action := by
  intro task polls
  refine counted.due task ?_
  cases action with
  | advance =>
    simp only [Executor.polls] at polls
    split at polls
    next outer first rest frames tasks =>
      rw [Option.mem_def, Option.ite_none_left_eq_some, Option.some.injEq] at polls
      obtain ⟨-, rfl⟩ := polls
      simp [Queued, tasks]
    next => cases polls
  | _ => cases polls

theorem Counted.sends (counted : self.Counted) {task : TaskId} (single : task ∉ self.history.finished ∧ ¬ self.Queued task) :
    (self.executor.queue.tasks ++ (self.executor.queue.receiver ++ [task])).Nodup ∧
    ∀ other ∈ self.executor.queue.tasks ++ (self.executor.queue.receiver ++ [task]),
      other ∉ self.history.finished ∧ (other ∈ self.history.polled → other ∈ task :: self.history.woken) := by
  rw [← List.append_assoc]
  constructor
  · rw [List.nodup_append_comm]
    exact List.nodup_cons.mpr ⟨single.2, counted.nodup⟩
  · intro other queued
    rcases List.mem_append.mp queued with queued | new
    · have due := counted.due other queued
      exact ⟨due.1, fun polled => List.mem_cons_of_mem _ (due.2 polled)⟩
    · obtain rfl := List.mem_singleton.mp new
      exact ⟨single.1, fun _ => List.mem_cons_self⟩

theorem Known.sends (known : self.Known) {task : TaskId} (made : task ∈ self.executor.wakers) :
    ∀ other ∈ self.executor.queue.tasks ++ (self.executor.queue.receiver ++ [task]), other < self.executor.created := by
  intro other queued
  rw [← List.append_assoc] at queued
  rcases List.mem_append.mp queued with queued | new
  · exact known.queued other queued
  · obtain rfl := List.mem_singleton.mp new
    exact known.wakers other made

theorem Counted.popped (counted : self.Counted) {task : TaskId} {rest : List TaskId}
    (tasks : self.executor.queue.tasks = task :: rest) :
    (rest ++ self.executor.queue.receiver).Nodup ∧
    ∀ other ∈ rest ++ self.executor.queue.receiver, self.Queued other ∧ other ≠ task := by
  have nodup := counted.nodup
  rw [tasks, List.cons_append, List.nodup_cons] at nodup
  refine ⟨nodup.2, fun other queued => ⟨?_, ?_⟩⟩
  · rw [Queued, tasks]
    exact List.mem_cons_of_mem _ queued
  · rintro rfl
    exact nodup.1 queued

theorem Known.popped (known : self.Known) {task : TaskId} {rest : List TaskId}
    (tasks : self.executor.queue.tasks = task :: rest) :
    ∀ other ∈ task :: self.executor.wakers, other < self.executor.created := by
  intro other member
  rcases List.mem_cons.mp member with rfl | member
  · exact known.queued other (by simp [Queued, tasks])
  · exact known.wakers other member

theorem step_counted (counted : self.Counted) (single : self.Single action) : (self.step action).Counted := by
  have moves := step_moves self action
  generalize self.step action = next at moves
  have known := counted.known
  cases moves with
  | turns _ next queue wakers created holds turned =>
    refine ⟨⟨?_, ?_, ?_, ?_, ?_⟩, ?_, ?_⟩ <;> simp only [Queued, queue, wakers, created]
    · exact known.queued
    · exact known.wakers
    · exact fun task held => (holds task held).elim (known.holds task) id
    · exact known.finished
    · exact known.polled
    · exact counted.nodup
    · exact counted.due
  | spawns inCode =>
    have fresh := known.fresh
    have same : (self.executor.queue.tasks ++ [self.executor.created] ++ self.executor.queue.receiver).Perm
        (self.executor.created :: (self.executor.queue.tasks ++ self.executor.queue.receiver)) := by
      simp
    refine ⟨⟨?_, ?_, known.holds, known.finished, known.polled⟩, ?_, ?_⟩
    · intro task queued
      rcases List.mem_cons.mp (same.mem_iff.mp queued) with rfl | queued
      · exact Nat.lt_succ_self _
      · exact Nat.lt_succ_of_lt (known.queued task queued)
    · exact fun task made => Nat.lt_succ_of_lt (known.wakers task made)
    · exact same.nodup_iff.mpr (List.nodup_cons.mpr ⟨fresh.1, counted.nodup⟩)
    · intro task queued
      rcases List.mem_cons.mp (same.mem_iff.mp queued) with rfl | queued
      · exact ⟨fresh.2.1, fun polled => absurd polled fresh.2.2⟩
      · exact counted.due task queued
  | wakes task inCode made =>
    have sent := counted.sends (single.1 task (by simp [Executor.wakes, inCode, made]))
    exact ⟨⟨known.sends made, known.wakers, known.holds, known.finished, known.polled⟩, sent.1, sent.2⟩
  | sends task rest outer frames =>
    have sent := counted.sends (single.1 task (by simp [Executor.wakes, frames]))
    have made : task ∈ self.executor.wakers :=
      known.holds task (by simp [Executor.holds, frames, Frame.tasks])
    refine ⟨⟨known.sends made, known.wakers, ?_, known.finished, known.polled⟩, sent.1, sent.2⟩
    intro other held
    refine known.holds other ?_
    simp only [Executor.holds, frames, List.flatMap_cons, Frame.tasks, List.mem_append, List.mem_cons] at held ⊢
    exact held.imp_right (.imp_left .inr)
  | drains outer frames =>
    have all := List.append_nil (self.executor.queue.tasks ++ self.executor.queue.receiver)
    have before (task : TaskId) (queued : task ∈ self.executor.queue.tasks ++ self.executor.queue.receiver ++ []) :
        self.Queued task := by
      rwa [all] at queued
    refine ⟨⟨?_, known.wakers, ?_, known.finished, known.polled⟩, ?_, ?_⟩
    · exact fun task queued => known.queued task (before task queued)
    · intro task held
      exact (@held_from _ _ .loop _ frames rfl task held).elim (known.holds task) id
    · exact all.symm ▸ counted.nodup
    · exact fun task queued => counted.due task (before task queued)
  | begins task rest outer frames tasks free =>
    obtain ⟨nodup, others⟩ := counted.popped tasks
    refine ⟨⟨?_, known.popped tasks, ?_, ?_, ?_⟩, nodup, ?_⟩
    · exact fun other queued => known.queued other (others other queued).1
    · intro other held
      simp only [Executor.holds, List.flatMap_cons, Frame.tasks, List.mem_append, List.mem_singleton] at held
      rcases held with registered | rfl | running
      · exact List.mem_cons_of_mem _ (known.holds other (List.mem_append_left _ registered))
      · exact List.mem_cons_self
      · refine List.mem_cons_of_mem _ (known.holds other ?_)
        simp only [Executor.holds, frames, List.flatMap_cons, List.mem_append]
        exact .inr (.inr running)
    · exact fun other finished => List.mem_cons_of_mem _ (known.finished other finished)
    · intro other polled
      rcases List.mem_cons.mp polled with rfl | polled
      · exact List.mem_cons_self
      · exact List.mem_cons_of_mem _ (known.polled other polled)
    · intro other queued
      obtain ⟨queued, apart⟩ := others other queued
      have due := counted.due other queued
      refine ⟨due.1, fun polled => ?_⟩
      rcases List.mem_cons.mp polled with same | polled
      · exact absurd same apart
      · exact History.mem_without.mpr ⟨due.2 polled, apart⟩
  | refuses task rest outer frames tasks busy =>
    obtain ⟨nodup, others⟩ := counted.popped tasks
    obtain ⟨finished, polled, woken⟩ := History.refuse_keeps self.history task
    refine ⟨⟨?_, known.popped tasks, ?_, ?_, ?_⟩, nodup, ?_⟩ <;> simp only [finished, polled, woken]
    · exact fun other queued => known.queued other (others other queued).1
    · intro other held
      exact List.mem_cons_of_mem _ ((held_below frames other held).elim (known.holds other) id)
    · exact fun other finished => List.mem_cons_of_mem _ (known.finished other finished)
    · exact fun other polled => List.mem_cons_of_mem _ (known.polled other polled)
    · exact fun other queued => counted.due other (others other queued).1
  | finishes task outer frames =>
    have away := single.2 task (by simp [Executor.finishes, frames])
    refine ⟨⟨known.queued, known.wakers, ?_, ?_, known.polled⟩, counted.nodup, ?_⟩
    · intro other held
      exact (@held_from _ _ .dropping _ frames rfl other held).elim (known.holds other) id
    · intro other finished
      rcases List.mem_cons.mp finished with rfl | finished
      · exact known.holds other (by simp [Executor.holds, frames, Frame.tasks])
      · exact known.finished other finished
    · intro other queued
      have due := counted.due other queued
      refine ⟨fun finished => ?_, due.2⟩
      rcases List.mem_cons.mp finished with rfl | finished
      · exact away queued
      · exact due.1 finished

/-- Where no task is woken while it is finished or queued, nor finishes while it is queued, each poll is due. -/
theorem due_of_single (actions : List Action) (single : Each step Single start actions) :
    Each step Due start actions :=
  Each.implies actions (fun _ _ => step_counted) (fun _ _ counted _ => counted_due counted) start_counted single

/-- A task waits for an event, which wakes it once. -/
theorem due_of_single_event : Each step Due start [.spawn, .run, .advance, .wakeOnReadable 3 0, .pending, .advance,
    .advance, .events [3], .advance, .advance, .advance, .ready, .advance, .advance] :=
  due_of_single _ (by decide)

/-- It is also woken by itself, which sends a second copy of it that is polled after the first one has finished. -/
theorem finished_polled : ¬ Each step Due start [.spawn, .run, .advance, .wakeOnReadable 3 0, .wake 0, .pending,
    .advance, .advance, .events [3], .advance, .advance, .advance, .ready, .advance, .advance] := by
  decide

end Osaka.Executor.Recorded
