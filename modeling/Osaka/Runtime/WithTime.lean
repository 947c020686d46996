import Osaka.Runtime.Session

set_option autoImplicit false

namespace Osaka

open Unwind Unwind.Exec

variable {X A B : Type} {rt : RuntimeId} {s : Thread X A}

namespace Thread

theorem update_same {change : BasicScheduler → BasicScheduler}
    (same : change (s.runtimes rt) = s.runtimes rt) : s.update rt change = s := by
  simp [update, same]

/-- The thread with `driver` moved from the cell of its runtime into `TIME_DRIVER`. -/
def swapIn (rt : RuntimeId) (driver : DriverId) (s : Thread X A) : Thread X A :=
  { s.update rt fun b => { b with timeDriver := none } with timeDriver := some driver }

end Thread

open Thread

namespace BasicScheduler

def giveBack (rt : RuntimeId) (otherDriver : Option DriverId) : Act X A Unit :=
  match otherDriver with
  | some otherDriver => do
    match ← TimeContext.swapContext otherDriver with
    | some ourDriver => TimeContext.setCell rt ourDriver
    | none => Exec.throw .stolenDriver
  | none => do
    let ourDriver ← TimeContext.unsetContext
    TimeContext.setCell rt ourDriver

theorem takeCell_none (away : (s.runtimes rt).timeDriver = none) :
    TimeContext.takeCell rt s = (.returned none, s) := by
  have same : s.update rt (fun b => { b with timeDriver := none }) = s := by
    apply update_same
    rw [← away]
  simp [TimeContext.takeCell, away, same]

theorem withTime_swapped (f : Act X A B) {driver : DriverId}
    (home : (s.runtimes rt).timeDriver = some driver) (free : s.borrowed = false) :
    withTime rt f s = (do
      let ret ← f
      giveBack rt s.timeDriver
      return ret : Act X A B) (s.swapIn rt driver) := by
  have taken : TimeContext.takeCell rt s =
      (.returned (some driver), s.update rt fun b => { b with timeDriver := none }) := by
    simp [TimeContext.takeCell, home]
  have swapped : TimeContext.swapContext driver (s.update rt fun b => { b with timeDriver := none }) =
      (.returned s.timeDriver, s.swapIn rt driver) := by
    simp [TimeContext.swapContext, free, swapIn]
  refine (bind_returned taken).trans ((bind_returned swapped).trans ?_)
  refine congrFun (bind_congr fun ret => funext fun t => ?_) _
  cases s.timeDriver with
  | none =>
    rcases ended : (TimeContext.unsetContext : Act X A DriverId) t with ⟨ourDriver | payload | _, u⟩ <;>
      simp [giveBack, bind_apply, ended, TimeContext.setCell, updateRuntime]
  | some other =>
    rcases ended : (TimeContext.swapContext other : Act X A (Option DriverId)) t with
      ⟨(_ | ourDriver) | payload | _, u⟩ <;>
      simp [giveBack, bind_apply, ended, TimeContext.setCell, updateRuntime]

theorem withTime_reused (f : Act X A B) {driver : DriverId} (away : (s.runtimes rt).timeDriver = none)
    (free : s.borrowed = false) (set : s.timeDriver = some driver) : withTime rt f s = f s := by
  have context : TimeContext.isContextSet s = (.returned true, s) := by
    simp [TimeContext.isContextSet, free, set]
  exact (bind_returned (takeCell_none away)).trans (bind_returned context)

theorem withTime_missing (f : Act X A B) (away : (s.runtimes rt).timeDriver = none)
    (free : s.borrowed = false) (unset : s.timeDriver = none) :
    withTime rt f s = (.unwound .noTimeDriver, s) := by
  have context : TimeContext.isContextSet s = (.returned false, s) := by
    simp [TimeContext.isContextSet, free, unset]
  exact (bind_returned (takeCell_none away)).trans (bind_returned context)

theorem withTime_unavailable (f : Act X A B) (away : (s.runtimes rt).timeDriver = none)
    (borrowed : s.borrowed = true) : withTime rt f s = (.unwound .alreadyBorrowed, s) := by
  have context : TimeContext.isContextSet s = (.unwound .alreadyBorrowed, s) := by
    simp [TimeContext.isContextSet, borrowed]
  exact (bind_returned (takeCell_none away)).trans (bind_unwound context)

/-- A runtime that is called while `TIME_DRIVER` is borrowed loses its driver. -/
theorem withTime_lost (f : Act X A B) {driver : DriverId}
    (home : (s.runtimes rt).timeDriver = some driver) (borrowed : s.borrowed = true) :
    withTime rt f s = (.unwound .alreadyBorrowed, s.update rt fun b => { b with timeDriver := none }) := by
  have taken : TimeContext.takeCell rt s =
      (.returned (some driver), s.update rt fun b => { b with timeDriver := none }) := by
    simp [TimeContext.takeCell, home]
  have swapped : TimeContext.swapContext driver (s.update rt fun b => { b with timeDriver := none }) =
      (.unwound .alreadyBorrowed, s.update rt fun b => { b with timeDriver := none }) := by
    simp [TimeContext.swapContext, borrowed]
  exact (bind_returned taken).trans (bind_unwound swapped)

theorem giveBack_same (rt : RuntimeId) (otherDriver : Option DriverId) (t : Thread X A) :
    (giveBack rt otherDriver t).2.trace = t.trace ∧ (giveBack rt otherDriver t).2.world = t.world := by
  cases otherDriver with
  | none =>
    rcases borrowed : t.borrowed <;> rcases set : t.timeDriver <;>
      simp [giveBack, TimeContext.unsetContext, TimeContext.setCell, updateRuntime, bind_apply, borrowed, set]
  | some other =>
    rcases borrowed : t.borrowed <;> rcases set : t.timeDriver <;>
      simp [giveBack, TimeContext.swapContext, TimeContext.setCell, updateRuntime, bind_apply, borrowed, set]

def Timed (rt : RuntimeId) (s : Thread X A) : Prop :=
  s.borrowed = false ∧ ((s.runtimes rt).timeDriver.isSome = true ∨ s.timeDriver.isSome = true)

def timed (rt : RuntimeId) (s : Thread X A) : Thread X A :=
  match (s.runtimes rt).timeDriver with
  | some driver => s.swapIn rt driver
  | none => s

theorem withTime_look {C : Type} (look : Thread X A → C) (f : Act X A B) (reached : Timed rt s)
    (same : ∀ otherDriver t, look (giveBack rt otherDriver t).2 = look t) :
    look (withTime rt f s).2 = look (f (timed rt s)).2 := by
  obtain ⟨free, drivers⟩ := reached
  cases home : (s.runtimes rt).timeDriver with
  | none =>
    have set : s.timeDriver.isSome = true := by simpa [home] using drivers
    obtain ⟨driver, set⟩ := Option.isSome_iff_exists.mp set
    rw [withTime_reused f home free set, timed, home]
  | some driver =>
    have start : timed rt s = s.swapIn rt driver := by simp [timed, home]
    rw [withTime_swapped f home free, start]
    rcases ended : f (s.swapIn rt driver) with ⟨value | payload | _, t⟩
    · rw [bind_returned ended]
      have given := same s.timeDriver t
      rcases back : giveBack rt s.timeDriver t with ⟨_ | payload | _, u⟩ <;> rw [back] at given
      · rw [bind_returned back]
        exact given
      · rw [bind_unwound back]
        exact given
      · rw [bind_running back]
        exact given
    · rw [bind_unwound ended]
    · rw [bind_running ended]

theorem withTime_trace (f : Act X A B) (reached : Timed rt s) :
    (withTime rt f s).2.trace = (f (timed rt s)).2.trace :=
  withTime_look _ f reached fun otherDriver t => (giveBack_same rt otherDriver t).1

theorem withTime_untimed (f : Act X A B) (unreached : ¬Timed rt s) :
    (withTime rt f s).2.trace = s.trace := by
  cases borrowed : s.borrowed with
  | true =>
    cases home : (s.runtimes rt).timeDriver with
    | none => rw [withTime_unavailable f home borrowed]
    | some driver => simp [withTime_lost f home borrowed]
  | false =>
    cases home : (s.runtimes rt).timeDriver with
    | none =>
      have unset : s.timeDriver = none := by
        by_contra set
        exact unreached ⟨borrowed, .inr (Option.isSome_iff_ne_none.mpr set)⟩
      rw [withTime_missing f home borrowed unset]
    | some driver => exact absurd ⟨borrowed, .inl (by simp [home])⟩ unreached

end BasicScheduler

end Osaka
