import Mathlib.Algebra.Group.Nat.Defs
import Mathlib.Order.Lattice
import Mathlib.Order.Defs.LinearOrder

set_option autoImplicit false

namespace Osaka.Time

-- `u64` seconds and a fraction of a second below them.
def durationLimit : Nat := 2 ^ 64 * 1000000000

structure Duration where
  nanos : Nat
  representable : nanos < durationLimit
  deriving DecidableEq

theorem Duration.ext_nanos {a b : Duration} (same : a.nanos = b.nanos) : a = b := by
  cases a
  cases b
  cases same
  rfl

instance : LinearOrder Duration :=
  LinearOrder.lift' Duration.nanos (fun _ _ => Duration.ext_nanos)

def Duration.checkedAdd (self rhs : Duration) : Option Duration :=
  if fits : self.nanos + rhs.nanos < durationLimit then some ⟨self.nanos + rhs.nanos, fits⟩ else none

def Duration.max : Duration := ⟨durationLimit - 1, by decide⟩

structure SimTime where
  elapsed : Duration
  deriving DecidableEq

instance : LinearOrder SimTime :=
  LinearOrder.lift' SimTime.elapsed (fun a b same => by cases a; cases b; cases same; rfl)

def SimTime.nanos (self : SimTime) : Nat := self.elapsed.nanos

theorem SimTime.le_iff {time other : SimTime} : time ≤ other ↔ time.nanos ≤ other.nanos := Iff.rfl

theorem SimTime.lt_iff {time other : SimTime} : time < other ↔ time.nanos < other.nanos := by
  rw [← not_le, SimTime.le_iff, not_le]

theorem SimTime.ext_nanos {time other : SimTime} (same : time.nanos = other.nanos) : time = other :=
  le_antisymm (SimTime.le_iff.mpr same.le) (SimTime.le_iff.mpr same.ge)

def SimTime.max : SimTime := ⟨Duration.max⟩

def SimTime.checkedAdd (self : SimTime) (duration : Duration) : Option SimTime :=
  (self.elapsed.checkedAdd duration).map SimTime.mk

/-- An instant given in nanoseconds; what does not fit is the last one. -/
def SimTime.ofNanos (nanos : Nat) : SimTime :=
  if fits : nanos < durationLimit then ⟨⟨nanos, fits⟩⟩ else SimTime.max

theorem SimTime.le_max (time : SimTime) : time ≤ SimTime.max :=
  Nat.le_pred_of_lt time.elapsed.representable

end Osaka.Time
