import Osaka.Park.BlockOn

set_option autoImplicit false

namespace Osaka.CachedParkThread

open Transitions

variable {I R : Type} {latest : Nat} {s t : CachedParkThread I} {e : Effect R}

section Moves

/-- A call that has a deadline parks for what is left until then. -/
def Driver.parksFor (now : Nat) : Option Nat → ParkThread.Call
  | none => .park
  | some deadline => .parkTimeout (deadline - now)

variable [DecidableEq I]

inductive Moves (s : CachedParkThread I) :
    CachedParkThreadAction I R → Effect R → CachedParkThread I → Prop where
  | refuses (timeout : Option Nat) : s.driver = .idle → s.destroyed = true →
      Moves s (.blockOn timeout) (.ends (.error ())) s
  | begins (timeout : Option Nat) : s.driver = .idle → s.destroyed = false →
      Moves s (.blockOn timeout) .begins { s with driver := .polling (timeout.map (s.now + ·)) }
  | ready (deadline : Option Nat) (v : R) : s.driver = .polling deadline →
      Moves s (.polled (some v)) (.ends (.ok v)) { s with driver := .idle }
  | pends (deadline : Option Nat) : s.driver = .polling deadline →
      Moves s (.polled none) .none { s with driver := .pending deadline }
  | expires (deadline : Nat) : s.driver = .pending (some deadline) → deadline ≤ s.now →
      Moves s .stepDriver (.ends (.error ())) { s with driver := .idle }
  | parks (deadline : Option Nat) : s.driver = .pending deadline → s.destroyed = false →
      (∀ when, deadline = some when → s.now < when) →
      Moves s .stepDriver .none
        { s with
          currentParker := { s.currentParker with parker := .called (Driver.parksFor s.now deadline) }
          driver := .parked deadline }
  | polls (deadline : Option Nat) : s.driver = .parked deadline → s.currentParker.parker = .idle →
      Moves s .stepDriver .begins { s with driver := .polling deadline }
  | tick (elapsed : Nat) : Moves s (.tick elapsed) .none { s with now := s.now + elapsed }
  | destroy : s.driver = .idle → Moves s .destroy .none { s with destroyed := true }
  | thread (a : ParkThreadAction I) (event : Option ParkThread.Event) (u : ParkThread I) :
      (∀ call, a ≠ .park call) → ParkThread.Moves s.currentParker a event u →
      Moves s (.thread a) (.of event) { s with currentParker := u }

/-- Only the driver parks, and a thread that is on its way out blocks no more. -/
structure Sound (s : CachedParkThread I) : Prop where
  thread : s.currentParker.Sound
  idle : (∀ deadline, s.driver ≠ .parked deadline) → s.currentParker.parker = .idle
  destroyed : s.destroyed = true → s.driver = .idle

omit [DecidableEq I] in
theorem new_sound : Sound (new : CachedParkThread I) where
  thread := ParkThread.new_sound
  idle _ := rfl
  destroyed there := by simp [new] at there

theorem stepDriver_moves (sound : Sound s) (can : s.allowed (R := R) .stepDriver = true) :
    ∃ e t, s.stepDriver (R := R) = (e, t) ∧ Moves s .stepDriver e t := by
  have alive (busy : s.driver ≠ .idle) : s.destroyed = false := by
    cases there : s.destroyed with
    | false => rfl
    | true => exact absurd (sound.destroyed there) busy
  cases stage : s.driver with
  | idle | polling => simp [allowed, stage] at can
  | pending deadline =>
    have alive := alive (by simp [stage])
    cases deadline with
    | none => exact ⟨_, _, by simp [stepDriver, stage, park, alive]; rfl, .parks none stage alive (by simp)⟩
    | some deadline =>
      by_cases past : deadline ≤ s.now
      · exact ⟨_, _, by simp [stepDriver, stage, past], .expires deadline stage past⟩
      · refine ⟨_, _, ?_, .parks (some deadline) stage alive (by simp; omega)⟩
        simp [stepDriver, stage, past, park, alive, Driver.parksFor]
  | parked deadline =>
    exact ⟨_, _, by simp [stepDriver, stage], .polls deadline stage (by simpa [allowed, stage] using can)⟩

/-- A step succeeds, or it computes a deadline that no `Instant` can hold. -/
theorem perform_cases (latest : Nat) (sound : Sound s) {a : CachedParkThreadAction I R} (can : s.allowed a = true) :
    (∃ e t, s.perform latest a = .ok (e, t) ∧ Moves s a e t) ∨
      s.perform latest a = .error .instantOverflow ∧ s.driver = .idle ∧ s.destroyed = false ∧
        ∃ timeout, a = .blockOn (some timeout) ∧ latest < s.now + timeout := by
  cases a with
  | blockOn timeout =>
    have idle : s.driver = .idle := by simpa [allowed] using can
    cases there : s.destroyed with
    | true => exact .inl ⟨_, _, by simp [perform, there], .refuses timeout idle there⟩
    | false =>
      cases timeout with
      | none => exact .inl ⟨_, _, by simp [perform, there], .begins none idle there⟩
      | some timeout =>
        by_cases fits : s.now + timeout ≤ latest
        · exact .inl ⟨_, _, by simp [perform, there, fits], .begins (some timeout) idle there⟩
        · exact .inr ⟨by simp [perform, there, fits], idle, rfl, timeout, rfl, by omega⟩
  | polled output =>
    cases stage : s.driver with
    | polling deadline =>
      cases output with
      | some v => exact .inl ⟨_, _, by simp [perform, stage], .ready deadline v stage⟩
      | none => exact .inl ⟨_, _, by simp [perform, stage], .pends deadline stage⟩
    | idle | pending | parked => simp [allowed, stage] at can
  | stepDriver =>
    obtain ⟨e, t, stepped, moves⟩ := stepDriver_moves (R := R) sound can
    exact .inl ⟨e, t, by simp [perform, stepped], moves⟩
  | tick elapsed => exact .inl ⟨_, _, rfl, .tick elapsed⟩
  | destroy => exact .inl ⟨_, _, rfl, .destroy (by simpa [allowed] using can)⟩
  | thread a =>
    have other : ∀ call, a ≠ .park call := by
      rintro call rfl
      simp [allowed] at can
    have can : s.currentParker.allowed a = true := by
      cases a <;> first | exact can | exact absurd rfl (other _)
    obtain ⟨event, u, performed, moves⟩ := ParkThread.perform_moves sound.thread can
    exact .inl ⟨_, _, by simp [perform, performed], .thread a event u other moves⟩

end Moves

section Sound

variable [DecidableEq I]

theorem Moves.sound {a : CachedParkThreadAction I R} (moves : Moves s a e t) (sound : Sound s) : Sound t := by
  cases moves with
  | refuses => exact sound
  | begins _ idle alive =>
    refine ⟨sound.thread, fun _ => sound.idle (by simp [idle]), fun there => ?_⟩
    rw [show s.destroyed = true from there] at alive
    cases alive
  | ready _ _ stage | expires _ stage => exact ⟨sound.thread, fun _ => sound.idle (by simp [stage]), fun _ => rfl⟩
  | pends _ stage =>
    refine ⟨sound.thread, fun _ => sound.idle (by simp [stage]), fun there => ?_⟩
    rw [sound.destroyed there] at stage
    cases stage
  | parks deadline stage alive =>
    have idle := sound.idle (by simp [stage])
    refine ⟨(ParkThread.Moves.park _ idle).sound sound.thread, fun away => absurd rfl (away deadline), fun there => ?_⟩
    rw [show s.destroyed = true from there] at alive
    cases alive
  | polls _ stage idle =>
    refine ⟨sound.thread, fun _ => idle, fun there => ?_⟩
    rw [sound.destroyed there] at stage
    cases stage
  | tick => exact ⟨sound.thread, sound.idle, sound.destroyed⟩
  | destroy idle => exact ⟨sound.thread, fun _ => sound.idle (by simp [idle]), fun _ => idle⟩
  | thread a event u other moves =>
    refine ⟨moves.sound sound.thread, fun away => ?_, sound.destroyed⟩
    exact moves.stays_idle other (sound.idle away)

theorem step_moves (sound : Sound s) {a : CachedParkThreadAction I R} (stepped : s.step latest a = .next t) :
    ∃ e, s.perform latest a = .ok (e, t) ∧ Moves s a e t := by
  unfold step at stepped
  split at stepped
  next can =>
    rcases perform_cases latest sound can with ⟨e, u, performed, moves⟩ | ⟨failed, _⟩
    · obtain rfl : u = t := by simpa [performed] using stepped
      exact ⟨e, performed, moves⟩
    · simp [failed, Outcome.attempt] at stepped
  next => simp at stepped

theorem step_sound (sound : Sound s) {a : CachedParkThreadAction I R} (stepped : s.step latest a = .next t) :
    Sound t := by
  obtain ⟨e, _, moves⟩ := step_moves sound stepped
  exact moves.sound sound

theorem step_failed (latest : Nat) (sound : Sound s) (a : CachedParkThreadAction I R) (fault : Fault) :
    s.step latest a = .failed fault ↔ fault = .instantOverflow ∧ s.driver = .idle ∧ s.destroyed = false ∧
      ∃ timeout, a = .blockOn (some timeout) ∧ latest < s.now + timeout := by
  constructor
  · intro stepped
    unfold step at stepped
    split at stepped
    next can =>
      rcases perform_cases latest sound can with ⟨e, t, performed, _⟩ | ⟨failed, where_⟩
      · simp [performed] at stepped
      · rw [failed] at stepped
        cases stepped
        exact ⟨rfl, where_⟩
    next => cases stepped
  · rintro ⟨rfl, idle, alive, timeout, rfl, past⟩
    simp [step, allowed, perform, idle, alive, Nat.not_le.mpr past, Outcome.attempt]

theorem reachable_sound (reached : (machine I R latest).Reachable s) : Sound s := by
  refine reached.preserved (P := Sound) ?_ fun s a t sound _ stepped => step_sound sound stepped
  rintro s rfl
  exact new_sound

end Sound

section Journal

structure Journal where
  -- how many calls have begun to poll, and whether one of them has a timeout
  calls : Nat
  timed : Bool
  polls : Nat
  -- how often the token has been made available, and how often a park has ended without it
  unparks : Nat
  lapses : Nat
  -- the token has been made available since the last poll has begun
  woken : Bool

def Journal.first : Journal := ⟨0, false, 0, 0, 0, false⟩

def Journal.after (j : Journal) (a : CachedParkThreadAction I R) (e : Effect R) : Journal :=
  let (call, timeout) := match a with
    | .blockOn timeout => (e.begun, timeout.isSome && e.begun)
    | _ => (false, false)
  { calls := j.calls + call.toNat
    timed := j.timed || timeout
    polls := j.polls + e.begun.toNat
    unparks := j.unparks + (e.event == some .unparked).toNat
    lapses := j.lapses + (e.event == some .lapsed).toNat
    woken := !e.begun && (j.woken || e.event == some .unparked) }

def released (s : CachedParkThread I) : Bool :=
  match s.driver with
  | .parked _ => s.currentParker.parker.call == none
  | .idle | .polling _ | .pending _ => false

def Driver.untimed : Driver → Bool
  | .idle => true
  | .polling deadline | .pending deadline | .parked deadline => deadline.isNone

structure Kept (s : CachedParkThread I) (j : Journal) : Prop where
  -- Nothing that has happened since the last poll has begun is forgotten.
  woken : j.woken = true → s.driver = .idle ∨ s.currentParker.available = true ∨ s.released = true
  counted : j.polls + s.currentParker.available.toNat + s.released.toNat ≤ j.calls + j.unparks + j.lapses
  untimed : j.timed = false → j.lapses = 0 ∧ s.driver.untimed = true ∧
    ∀ dur, s.currentParker.parker.call ≠ some (.parkTimeout dur)

theorem new_kept : Kept (new : CachedParkThread I) .first where
  woken there := by cases there
  counted := Nat.le_refl 0
  untimed _ := ⟨rfl, rfl, by simp [new, ParkThread.new, ParkThread.Parker.call]⟩

variable [DecidableEq I]

omit [DecidableEq I] in
theorem released_away (away : ∀ deadline, s.driver ≠ .parked deadline) : s.released = false := by
  unfold released
  cases stage : s.driver with
  | parked deadline => exact absurd stage (away deadline)
  | idle | polling | pending => rfl

omit [DecidableEq I] in
theorem thread_kept {j : Journal} {event : Option ParkThread.Event} {u : ParkThread I} (kept : Kept s j)
    (idle : (∀ deadline, s.driver ≠ .parked deadline) → s.currentParker.parker = .idle)
    (accounts : ParkThread.Accounts s.currentParker u event) (a : ParkThreadAction I) :
    Kept { s with currentParker := u } (j.after (R := R) (.thread a) (.of event)) := by
  obtain ⟨woken, counted, untimed⟩ := kept
  have parked (busy : s.currentParker.parker.call ≠ none) : ∃ deadline, s.driver = .parked deadline := by
    by_contra away
    rw [idle fun deadline there => away ⟨deadline, there⟩] at busy
    exact busy rfl
  cases accounts with
  | silent available call =>
    have released : released { s with currentParker := u } = s.released := by simp [released, call]
    refine ⟨?_, ?_, ?_⟩
    · simpa [Journal.after, Effect.of, released, available] using woken
    · simpa [Journal.after, Effect.of, released, available] using counted
    · simpa [Journal.after, Effect.of, call] using untimed
  | unparks available call =>
    have released : released { s with currentParker := u } = s.released := by simp [released, call]
    refine ⟨fun _ => .inr (.inl available), ?_, ?_⟩
    · simp only [Journal.after, Effect.of, released, available]
      simp
      omega
    · simpa [Journal.after, Effect.of, call] using untimed
  | consumes call before after busy ended =>
    obtain ⟨deadline, stage⟩ := parked (by simp [busy])
    have waits : s.released = false := by simp [released, stage, busy]
    have released : released { s with currentParker := u } = true := by simp [released, stage, ended]
    refine ⟨fun _ => .inr (.inr released), ?_, ?_⟩
    · simp only [Journal.after, Effect.of, released, after]
      simp [before, waits] at counted ⊢
      omega
    · simpa [Journal.after, Effect.of, ended, busy] using fun there => (untimed there).imp_right (·.1)
  | lapses dur before after busy ended =>
    obtain ⟨deadline, stage⟩ := parked (by simp [busy])
    have waits : s.released = false := by simp [released, stage, busy]
    have released : released { s with currentParker := u } = true := by simp [released, stage, ended]
    refine ⟨fun _ => .inr (.inr released), ?_, fun there => ?_⟩
    · simp only [Journal.after, Effect.of, released, after]
      simp [before, waits] at counted ⊢
      omega
    · exact absurd busy ((untimed (by simpa [Journal.after] using there)).2.2 dur)

theorem Moves.kept {a : CachedParkThreadAction I R} {j : Journal} (moves : Moves s a e t) (sound : Sound s)
    (kept : Kept s j) : Kept t (j.after a e) := by
  obtain ⟨woken, counted, untimed⟩ := kept
  cases moves with
  | refuses timeout idle =>
    refine ⟨?_, ?_, ?_⟩
    · simpa [Journal.after, Effect.ends] using woken
    · simpa [Journal.after, Effect.ends] using counted
    · simpa [Journal.after, Effect.ends] using untimed
  | begins timeout idle alive =>
    rw [released_away (by simp [idle])] at counted
    refine ⟨?_, ?_, ?_⟩
    · simp [Journal.after, Effect.begins]
    · rw [released_away (by simp)]
      simp [Journal.after, Effect.begins] at counted ⊢
      omega
    · cases timeout with
      | none => simpa [Journal.after, Effect.begins, idle, Driver.untimed] using untimed
      | some timeout => simp [Journal.after, Effect.begins]
  | ready deadline v stage =>
    rw [released_away (by simp [stage])] at counted
    refine ⟨fun _ => .inl rfl, ?_, ?_⟩
    · rw [released_away (by simp)]
      simpa [Journal.after, Effect.ends] using counted
    · simpa [Journal.after, Effect.ends, Driver.untimed] using fun there => (untimed there).imp_right (·.2)
  | expires deadline stage past =>
    rw [released_away (by simp [stage])] at counted
    refine ⟨fun _ => .inl rfl, ?_, ?_⟩
    · rw [released_away (by simp)]
      simpa [Journal.after, Effect.ends] using counted
    · simpa [Journal.after, Effect.ends, Driver.untimed] using fun there => (untimed there).imp_right (·.2)
  | pends deadline stage =>
    have here : s.released = false := released_away (by simp [stage])
    have there : released { s with driver := .pending deadline } = false := released_away (by simp)
    refine ⟨?_, ?_, ?_⟩
    · simpa [Journal.after, Effect.none, here, there, stage] using woken
    · simpa [Journal.after, Effect.none, here, there] using counted
    · simpa [Journal.after, Effect.none, stage, Driver.untimed] using untimed
  | parks deadline stage alive ahead =>
    have here : s.released = false := released_away (by simp [stage])
    refine ⟨?_, ?_, ?_⟩
    · simpa [Journal.after, Effect.none, here, stage, released, ParkThread.Parker.call, ParkThread.available]
        using woken
    · rw [here] at counted
      simpa [Journal.after, Effect.none, released, ParkThread.Parker.call, ParkThread.available] using counted
    · intro there
      obtain ⟨lapses, plain, _⟩ := untimed (by simpa [Journal.after] using there)
      rw [stage] at plain
      cases deadline with
      | none =>
        refine ⟨by simpa [Journal.after, Effect.none] using lapses, rfl, ?_⟩
        simp [ParkThread.Parker.call, Driver.parksFor]
      | some deadline => cases plain
  | polls deadline stage idle =>
    have here : s.released = true := by simp [released, stage, idle, ParkThread.Parker.call]
    have there : released { s with driver := .polling deadline } = false := released_away (by simp)
    refine ⟨?_, ?_, ?_⟩
    · simp [Journal.after, Effect.begins]
    · simp [Journal.after, Effect.begins, here, there] at counted ⊢
      omega
    · simpa [Journal.after, Effect.begins, stage, Driver.untimed] using untimed
  | tick elapsed =>
    refine ⟨?_, ?_, ?_⟩
    · simpa [Journal.after, Effect.none, released] using woken
    · simpa [Journal.after, Effect.none, released] using counted
    · simpa [Journal.after, Effect.none] using untimed
  | destroy idle =>
    refine ⟨fun _ => .inl idle, ?_, ?_⟩
    · simpa [Journal.after, Effect.none, released] using counted
    · simpa [Journal.after, Effect.none] using untimed
  | thread a event u other moves =>
    exact thread_kept ⟨woken, counted, untimed⟩ sound.idle (moves.accounts other) a

def observe (latest : Nat) (j : Journal) (s : CachedParkThread I) (a : CachedParkThreadAction I R)
    (_ : CachedParkThread I) : Journal :=
  match s.perform latest a with
  | .ok (e, _) => j.after a e
  | .error _ => j

def journaled (I R : Type) [DecidableEq I] (latest : Nat) :
    System (CachedParkThread I × Journal) (CachedParkThreadAction I R) Fault :=
  (machine I R latest).observed .first (observe latest)

instance (latest : Nat) : DecidablePred (journaled I R latest).within := fun _ => inferInstanceAs (Decidable True)

theorem reachable_kept {j : Journal} (reached : (journaled I R latest).Reachable (s, j)) : Kept s j := by
  apply System.Reachable.watched (P := Kept) _ _ reached
  · rintro s rfl
    exact new_kept
  · intro s j a t reached kept _ stepped
    have sound := reachable_sound reached
    obtain ⟨e, performed, moves⟩ := step_moves sound stepped
    have noted : observe latest j s a t = j.after a e := by simp [observe, performed]
    rw [noted]
    exact moves.kept sound kept

end Journal

section Progress

/-- What goes on without a poll, a new call of anybody, or a spurious wakeup. -/
def own : CachedParkThreadAction I R → Bool
  | .stepDriver => true
  | .thread a => ParkThread.own a
  | .blockOn _ | .polled _ | .tick _ | .destroy => false

def Driver.steps : Driver → Nat
  | .idle | .polling _ => 0
  | .parked _ => 1
  | .pending _ => 7

variable [DecidableEq I]

def Rest (R : Type) (s : CachedParkThread I) : Prop :=
  ∀ a : CachedParkThreadAction I R, own a = true → s.allowed a = false

theorem Rest.thread (rest : s.Rest R) : s.currentParker.Rest := by
  intro a owned
  have idle := rest (.thread a) owned
  cases a with
  | stepParker | stepUnparker => exact idle
  | park | wakeup | unpark | shutdown => cases owned

theorem Sound.rest (sound : Sound s) (rest : s.Rest R) :
    s.driver = .idle ∨ (∃ deadline, s.driver = .polling deadline) ∨
      ∃ deadline call, s.driver = .parked deadline ∧ s.currentParker.parker = .asleep call ∧
        s.currentParker.available = false ∧ s.released = false := by
  obtain ⟨_, _, parker⟩ := sound.thread.rest rest.thread
  have idle := rest .stepDriver rfl
  cases stage : s.driver with
  | idle => exact .inl rfl
  | polling deadline => exact .inr (.inl ⟨deadline, rfl⟩)
  | pending deadline => simp [allowed, stage] at idle
  | parked deadline =>
    rcases parker with awake | ⟨call, asleep, state⟩
    · simp [allowed, stage, awake] at idle
    · refine .inr (.inr ⟨deadline, call, rfl, asleep, ?_, ?_⟩)
      · simp [ParkThread.available, state, ParkThread.PARKED, ParkThread.NOTIFIED]
      · simp [released, stage, asleep, ParkThread.Parker.call]

variable [Fintype I]

def work (s : CachedParkThread I) : Nat := s.driver.steps + s.currentParker.work

theorem Moves.work_less {a : CachedParkThreadAction I R} (moves : Moves s a e t) (sound : Sound s)
    (owned : own a = true) : t.work < s.work := by
  cases moves with
  | refuses | begins | ready | pends | tick | destroy => cases owned
  | expires deadline stage =>
    simp [work, stage, Driver.steps]
  | parks deadline stage =>
    have idle := sound.idle (by simp [stage])
    simp [work, stage, Driver.steps, ParkThread.work, idle, ParkThread.Parker.steps]
    omega
  | polls deadline stage => simp [work, stage, Driver.steps]
  | thread a event u other moves =>
    have less := moves.work_less owned
    simpa [work] using less

/-- A poll has been asked for, or goes on, or the call has returned. -/
def Answered (s : CachedParkThread I) (j : Journal) : Prop :=
  j.woken = true ∨ s.driver = .idle ∨ ∃ deadline, s.driver = .polling deadline

omit [Fintype I] in
theorem Moves.answered {a : CachedParkThreadAction I R} {j : Journal} (moves : Moves s a e t) (owned : own a = true)
    (answered : Answered s j) : Answered t (j.after a e) := by
  cases moves with
  | refuses | begins | ready | pends | tick | destroy => cases owned
  | expires => exact .inr (.inl rfl)
  | polls deadline => exact .inr (.inr ⟨deadline, rfl⟩)
  | parks deadline stage =>
    simp only [Answered, stage] at answered
    exact .inl (by simpa [Journal.after, Effect.none] using answered)
  | thread a event u other moves =>
    refine answered.imp_left fun woken => ?_
    simp [Journal.after, Effect.of, woken]

omit [Fintype I] in
theorem journaled_moves {j k : Journal} {a : CachedParkThreadAction I R} (sound : Sound s)
    (stepped : (journaled I R latest).step (s, j) a = .next (t, k)) : ∃ e, Moves s a e t ∧ k = j.after a e := by
  obtain ⟨u, step, same⟩ := System.observed_step stepped
  obtain ⟨e, performed, moves⟩ := step_moves sound step
  obtain ⟨rfl, rfl⟩ : t = u ∧ k = j.after a e := by simpa [observe, performed] using same
  exact ⟨e, moves, rfl⟩

theorem own_run {actions : List (CachedParkThreadAction I R)} {j k : Journal}
    (reached : (journaled I R latest).Reachable (s, j)) (owned : ∀ a ∈ actions, own a = true)
    (ran : (journaled I R latest).run (s, j) actions = some (t, k)) :
    actions.length + t.work ≤ s.work ∧ (Answered s j → Answered t k) := by
  induction actions generalizing s j with
  | nil =>
    obtain ⟨rfl, rfl⟩ : s = t ∧ j = k := by simpa [System.run] using ran
    exact ⟨by simp, id⟩
  | cons a rest ih =>
    obtain ⟨⟨u, l⟩, within, stepped, ran⟩ := System.run_cons _ ran
    have sound := reachable_sound reached.of_observed
    obtain ⟨e, moves, rfl⟩ := journaled_moves sound stepped
    have mine := owned a List.mem_cons_self
    obtain ⟨short, later⟩ :=
      ih (reached.step within stepped) (fun b there => owned b (List.mem_cons_of_mem a there)) ran
    have less : u.work < s.work := moves.work_less sound mine
    have total : (a :: rest).length + t.work ≤ s.work := by
      rw [List.length_cons]
      omega
    exact ⟨total, fun answered => later (moves.answered mine answered)⟩

/-- Whoever wakes a future that is blocked on, from when its poll has begun, has it polled again. -/
theorem block_on_polls_again {j : Journal} (reached : (journaled I R latest).Reachable (s, j)) :
    -- However the parties are scheduled, they come to rest, and a call then sleeps only if nobody has woken it since
    -- its last poll has begun.
    (∀ actions t k, (∀ a ∈ actions, own a = true) → (journaled I R latest).run (s, j) actions = some (t, k) →
      actions.length ≤ s.work ∧
      (t.Rest R → t.driver = .idle ∨ (∃ deadline, t.driver = .polling deadline) ∨
        (∃ deadline call, t.driver = .parked deadline ∧ t.currentParker.parker = .asleep call) ∧
          k.woken = false ∧ j.woken = false)) ∧
    -- Each poll but the first of a call is paid for by a wake, or by a timeout.
    j.polls ≤ j.calls + j.unparks + j.lapses ∧
    (j.timed = false → j.polls ≤ j.calls + j.unparks) ∧
    -- A call panics only before its first poll, when its deadline is later than any instant.
    (∀ (a : CachedParkThreadAction I R) fault, s.step latest a = .failed fault ↔
      fault = .instantOverflow ∧ s.driver = .idle ∧ s.destroyed = false ∧
        ∃ timeout, a = .blockOn (some timeout) ∧ latest < s.now + timeout) := by
  have kept := reachable_kept reached
  have sound := reachable_sound reached.of_observed
  refine ⟨?_, ?_, ?_, step_failed latest sound⟩
  · intro actions t k owned ran
    obtain ⟨short, later⟩ := own_run reached owned ran
    refine ⟨by omega, fun rest => ?_⟩
    have reached := System.reachable_run _ reached ran
    have sound : Sound t := reachable_sound reached.of_observed
    rcases sound.rest rest with idle | polling | ⟨deadline, call, parked, asleep, empty, waits⟩
    · exact .inl idle
    · exact .inr (.inl polling)
    · have unwoken : k.woken = false := by
        cases woken : k.woken with
        | false => rfl
        | true =>
          have asked := (reachable_kept reached).woken woken
          simp [parked, empty, waits] at asked
      refine .inr (.inr ⟨⟨deadline, call, parked, asleep⟩, unwoken, ?_⟩)
      cases woken : j.woken with
      | false => rfl
      | true =>
        have answered := later (.inl woken)
        simp [Answered, unwoken, parked] at answered
  · have counted := kept.counted
    omega
  · intro untimed
    have counted := kept.counted
    have lapses := (kept.untimed untimed).1
    omega

end Progress

section Runs

/-- Woken while it is polled, the future is polled again; then it sleeps until it is woken once more. -/
def exampleCall : List (CachedParkThreadAction Bool Nat) :=
  [.blockOn none, .thread (.unpark true), .thread (.stepUnparker true), .polled none, .stepDriver, .thread .stepParker,
    .stepDriver, .polled none, .stepDriver] ++ List.replicate 4 (.thread .stepParker) ++
    [.thread (.unpark false), .thread (.stepUnparker false)]

theorem exampleCall_journal : ((journaled Bool Nat 1000).run (new, .first) exampleCall).map
    (fun r => (r.1.driver, r.1.currentParker.parker, r.2.polls, r.2.calls, r.2.unparks)) =
      some (.parked none, .asleep .park, 2, 1, 2) := by
  decide +kernel

theorem block_on_polls_again_run : ∃ j : Journal, j.polls = 2 ∧ j.polls ≤ j.calls + j.unparks + j.lapses := by
  obtain ⟨⟨s, j⟩, ran, facts⟩ := Option.map_eq_some_iff.mp exampleCall_journal
  simp only [Prod.mk.injEq] at facts
  obtain ⟨_, _, polls, _⟩ := facts
  have start : (journaled Bool Nat 1000).Reachable (new, .first) := .initial ⟨rfl, rfl⟩
  exact ⟨j, polls, (block_on_polls_again (System.reachable_run _ start ran)).2.1⟩

end Runs

end Osaka.CachedParkThread
