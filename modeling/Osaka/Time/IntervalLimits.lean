import Osaka.Time.Interval

set_option autoImplicit false

namespace Osaka.Time.Interval

variable {W : Type}

inductive Call (W : Type) where
  | pollTick (now : SimTime) (driver : TimeDriver W) (waker : W)
  | reset (now : SimTime) (driver : TimeDriver W)
  | setMissedTickBehavior (behavior : MissedTickBehavior)

def call (self : Interval) : Call W → Except Panic Interval
  | .pollTick now driver waker => do
    let (_, after, _) ← self.pollTick now driver waker
    return after
  | .reset now driver => do
    let (after, _) ← self.reset now driver
    return after
  | .setMissedTickBehavior behavior => .ok (self.setMissedTickBehavior behavior)

def calls (self : Interval) : List (Call W) → Except Panic Interval
  | [] => .ok self
  | call :: rest => do
    let after ← self.call call
    after.calls rest

/-- The sums for the tick after `timeout`, polled at `now`, can be represented, and so can the remainder. -/
def NextFits (self : Interval) (timeout now : SimTime) : Prop :=
  timeout.nanos + Duration.fromMillis5.nanos < durationLimit ∧
    if timeout.nanos + Duration.fromMillis5.nanos < now.nanos then
      match self.missedTickBehavior with
      | .burst => timeout.nanos + self.period.nanos < durationLimit
      | .delay => now.nanos + self.period.nanos < durationLimit
      | .skip => now.nanos + self.period.nanos < durationLimit ∧ remainder timeout now self.period < 2 ^ 64
    else
      timeout.nanos + self.period.nanos < durationLimit

def Fits (self : Interval) : Call W → Prop
  | .pollTick now _ _ => now < self.delay.deadline ∨ self.NextFits self.delay.deadline now
  | .reset now _ => now.nanos + self.period.nanos < durationLimit
  | .setMissedTickBehavior _ => True

def EachFits (self : Interval) : List (Call W) → Prop
  | [] => True
  | call :: rest => self.Fits call ∧ ∀ after, self.call call = .ok after → after.EachFits rest

section Limits

variable {self : Interval} {timeout now : SimTime}

theorem represented {sum : Nat} : (∃ time : SimTime, time.nanos = sum) ↔ sum < durationLimit := by
  constructor
  · rintro ⟨time, rfl⟩
    exact time.elapsed.representable
  · exact fun fits => ⟨⟨⟨sum, fits⟩⟩, rfl⟩

theorem remainder_represented :
    (∃ time : SimTime, time.nanos + remainder timeout now self.period = now.nanos + self.period.nanos) ↔
      now.nanos + self.period.nanos < durationLimit + remainder timeout now self.period := by
  have below : remainder timeout now self.period < self.period.nanos := Nat.mod_lt _ self.nonzero
  constructor
  · rintro ⟨time, sum⟩
    have representable := time.elapsed.representable
    change time.nanos < durationLimit at representable
    omega
  · intro fits
    refine ⟨⟨⟨now.nanos + self.period.nanos - remainder timeout now self.period, by omega⟩⟩, ?_⟩
    exact Nat.sub_add_cancel (below.le.trans (Nat.le_add_left _ _))

theorem next_fits : (∃ time, self.Next timeout now time) ↔ self.NextFits timeout now := by
  unfold Next NextFits
  rw [exists_and_left]
  refine and_congr_right fun _ => ?_
  by_cases late : timeout.nanos + Duration.fromMillis5.nanos < now.nanos
  · simp only [if_pos late]
    cases self.missedTickBehavior with
    | burst => exact represented
    | delay => exact represented
    | skip =>
      simp only [exists_and_left, remainder_represented]
      constructor
      · rintro ⟨room, fits, -⟩
        exact ⟨room, fits⟩
      · rintro ⟨room, fits⟩
        exact ⟨room, fits, Nat.lt_add_right _ room⟩
  · simp only [if_neg late]
    exact represented

theorem pollTick_fits (driver : TimeDriver W) (waker : W) :
    (∃ after, self.call (.pollTick now driver waker) = .ok after) ↔ self.Fits (.pollTick now driver waker) := by
  simp only [call, Panic.bind_ok]
  rcases le_or_gt self.delay.deadline now with reached | ahead
  · rw [Fits, ← next_fits]
    constructor
    · rintro ⟨after, ⟨answer, _, driver'⟩, polled, _⟩
      obtain ⟨time, scheduled, _⟩ := (pollTick_ready reached).mp polled
      exact Or.inr ⟨time, scheduled⟩
    · rintro (ahead | ⟨time, scheduled⟩)
      · exact absurd reached (not_le.mpr ahead)
      · exact ⟨_, _, (pollTick_ready reached).mpr ⟨time, scheduled, rfl, rfl, rfl⟩, rfl⟩
  · obtain ⟨registered, _, pending⟩ := pollTick_pending driver waker ahead
    constructor
    · exact fun _ => Or.inl ahead
    · exact fun _ => ⟨self, _, pending, rfl⟩

theorem reset_fits (driver : TimeDriver W) :
    (∃ after, self.call (.reset now driver) = .ok after) ↔ self.Fits (.reset now driver) := by
  simp only [call, reset, Panic.bind_ok, Fits, ← SimTime.add_fits]
  constructor
  · rintro ⟨_, _, ⟨time, sum, _⟩, _⟩
    exact ⟨time, sum⟩
  · rintro ⟨time, sum⟩
    exact ⟨_, _, ⟨time, sum, rfl⟩, rfl⟩

theorem call_fits (called : Call W) : (∃ after, self.call called = .ok after) ↔ self.Fits called := by
  cases called with
  | pollTick now driver waker => exact pollTick_fits driver waker
  | reset now driver => exact reset_fits driver
  | setMissedTickBehavior behavior => exact ⟨fun _ => trivial, fun _ => ⟨_, rfl⟩⟩

end Limits

/-- No call of a run panics exactly if each finds its sums, and its remainder, within their limits. -/
theorem calls_fit (self : Interval) (calls : List (Call W)) :
    (∃ last, self.calls calls = .ok last) ↔ self.EachFits calls := by
  induction calls generalizing self with
  | nil => exact ⟨fun _ => trivial, fun _ => ⟨self, rfl⟩⟩
  | cons called rest ih =>
    simp only [Interval.calls, Panic.bind_ok, EachFits]
    constructor
    · rintro ⟨last, after, answered, ran⟩
      refine ⟨(call_fits called).mp ⟨after, answered⟩, ?_⟩
      intro other same
      rw [answered, Except.ok.injEq] at same
      exact same ▸ (ih after).mp ⟨last, ran⟩
    · rintro ⟨fits, later⟩
      obtain ⟨after, answered⟩ := (call_fits called).mpr fits
      obtain ⟨last, ran⟩ := (ih after).mpr (later after answered)
      exact ⟨last, after, answered, ran⟩

/-- The first tick of an interval of the longest period, its reset, and an interval of more than 1000 years that
skips what it has missed. -/
theorem long_period_panics :
    (∃ created, interval 0 (.ofNanos 1) .max = .ok created ∧
      created.calls [Call.pollTick (.ofNanos 1) .new ()] = .error .addOverflow ∧
      created.calls [Call.reset (.ofNanos 1) (.new : TimeDriver Unit)] = .error .addOverflow) ∧
    ∃ created, intervalAt 0 (.ofNanos 0) ⟨2 ^ 65, by decide⟩ = .ok created ∧
      created.calls [Call.setMissedTickBehavior .skip, Call.pollTick (.ofNanos 0) .new (),
        Call.pollTick (.ofNanos (2 ^ 65 + (2 ^ 65 + 2 ^ 64))) .new ()] = .error .tooMuchTime := by
  constructor
  · exact ⟨_, rfl, rfl, rfl⟩
  · exact ⟨_, rfl, rfl⟩

end Osaka.Time.Interval
