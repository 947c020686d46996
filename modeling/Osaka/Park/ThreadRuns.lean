import Mathlib.Algebra.BigOperators.Group.Finset.Basic
import Mathlib.Data.Fintype.Basic
import Osaka.Park.ThreadSteps

set_option autoImplicit false

namespace Osaka.ParkThread

open Transitions

variable {I : Type} {s t : ParkThread I} {e : Option Event} {i k : I}

section Tokens

/-- What `park` is for: there is one token, and only a call that has a duration returns without it. -/
def Event.next (available : Bool) : Event → Option Bool
  | .unparked => some true
  | .consumed => if available then some false else none
  | .lapsed => if available then none else some false

def tokenAfter (events : List Event) : Option Bool := events.foldlM Event.next false

def Event.follows (available : Bool) : Option Event → Option Bool
  | none => some available
  | some e => e.next available

def available (s : ParkThread I) : Bool := s.state == NOTIFIED

/-- The call that is on its way; it is not any more once its outcome is certain. -/
def Parker.call : Parker → Option Call
  | .idle | .leaving => none
  | .called call | .locking call | .announcing call | .consuming call | .waiting call | .asleep call | .woken call
  | .checking call => some call

inductive Accounts (s t : ParkThread I) : Option Event → Prop where
  | silent : t.available = s.available → t.parker.call = s.parker.call → Accounts s t none
  | unparks : t.available = true → t.parker.call = s.parker.call → Accounts s t (some .unparked)
  | consumes (call : Call) : s.available = true → t.available = false → s.parker.call = some call →
      t.parker.call = none → Accounts s t (some .consumed)
  | lapses (dur : Nat) : s.available = false → t.available = false → s.parker.call = some (.parkTimeout dur) →
      t.parker.call = none → Accounts s t (some .lapsed)

theorem Accounts.follows (accounts : Accounts s t e) : Event.follows s.available e = some t.available := by
  cases accounts with
  | silent same => rw [same]; rfl
  | unparks there => rw [there]; rfl
  | consumes _ before after | lapses _ before after => rw [before, after]; rfl

theorem Accounts.returned (accounts : Accounts s t e) {call : Call} (busy : s.parker.call = some call)
    (done : t.parker.call = none) : e = some .consumed ∨ e = some .lapsed ∧ ∃ dur, call = .parkTimeout dur := by
  cases accounts with
  | silent _ same | unparks _ same =>
    rw [done, busy] at same
    cases same
  | consumes => exact .inl rfl
  | lapses dur _ _ timed =>
    rw [busy] at timed
    exact .inr ⟨rfl, dur, Option.some.inj timed⟩

theorem ParkerMoves.accounts (moves : ParkerMoves s e t) : Accounts s t e := by
  cases moves with
  | takes call stage state | consumes call stage state | finds call stage state =>
    exact .consumes call (by simp [available, state]) rfl (by rw [stage]; rfl) rfl
  | skips stage state | expires dur stage state =>
    refine .lapses _ ?_ ?_ (by rw [stage]; rfl) rfl <;> simp [available, state, EMPTY, PARKED, NOTIFIED]
  | prepares _ stage state | announces _ stage state | meets _ stage state | returns stage state =>
    exact .silent (by simp [available, state, EMPTY, PARKED, NOTIFIED]) (by rw [stage]; rfl)
  | locks _ stage | sleeps _ stage | relocks _ stage | leaves stage => exact .silent rfl (by rw [stage]; rfl)

theorem Notifies.accounts (notified : Notifies s t) : Accounts s t none := by
  cases notified with
  | wakes call stage => exact .silent rfl (by rw [stage]; rfl)
  | misses => exact .silent rfl rfl

variable [DecidableEq I]

theorem UnparkerMoves.accounts (moves : UnparkerMoves s i e t) : Accounts s t e := by
  cases moves with
  | sets | meets => exact .unparks rfl rfl
  | locks | unlocks => exact .silent rfl rfl
  | notifies u _ notified =>
    cases notified.accounts with
    | silent same call => exact .silent same call

theorem Moves.accounts {a : ParkThreadAction I} (moves : Moves s a e t) (other : ∀ call, a ≠ .park call) :
    Accounts s t e := by
  cases moves with
  | park call => exact absurd rfl (other call)
  | unpark => exact .silent rfl rfl
  | stepParker _ _ moves => exact moves.accounts
  | stepUnparker _ _ _ moves => exact moves.accounts
  | wakeup _ notified | shutdown _ notified => exact notified.accounts

theorem Moves.stays_idle {a : ParkThreadAction I} (moves : Moves s a e t) (other : ∀ call, a ≠ .park call)
    (idle : s.parker = .idle) : t.parker = .idle := by
  cases moves with
  | park call => exact absurd rfl (other call)
  | unpark => exact idle
  | stepParker _ _ moves => cases moves <;> simp_all
  | stepUnparker i _ _ moves =>
    cases moves with
    | sets | meets | locks | unlocks => exact idle
    | notifies u _ notified =>
      cases notified with
      | wakes _ asleep => simp [idle] at asleep
      | misses => exact idle
  | wakeup _ notified | shutdown _ notified =>
    cases notified with
    | wakes _ asleep => simp [idle] at asleep
    | misses => exact idle

theorem Moves.follows {a : ParkThreadAction I} (moves : Moves s a e t) :
    Event.follows s.available e = some t.available := by
  cases a with
  | park call =>
    cases moves
    rfl
  | stepParker | wakeup | unpark | stepUnparker | shutdown => exact (moves.accounts (by simp)).follows

def record (events : List Event) (s : ParkThread I) (a : ParkThreadAction I) (_ : ParkThread I) : List Event :=
  match s.perform a with
  | .ok (some e, _) => events ++ [e]
  | .ok (none, _) => events
  | .error _ => events

def recorded (I : Type) [DecidableEq I] : System (ParkThread I × List Event) (ParkThreadAction I) Fault :=
  (machine I).observed [] record

instance : DecidablePred (recorded I).within := fun _ => inferInstanceAs (Decidable True)

theorem tokenAfter_follows {events : List Event} {available : Bool} (after : tokenAfter events = some available)
    (e : Option Event) : tokenAfter (events ++ e.toList) = Event.follows available e := by
  unfold tokenAfter at after ⊢
  cases e with
  | none => simpa [Event.follows] using after
  | some e => simp [List.foldlM_append, after, Event.follows]

theorem record_moves {a : ParkThreadAction I} {events : List Event} (performed : s.perform a = .ok (e, t)) :
    record events s a t = events ++ e.toList := by
  cases e <;> simp [record, performed]

theorem reachable_tokens {events : List Event} (reached : (recorded I).Reachable (s, events)) :
    tokenAfter events = some s.available := by
  apply System.Reachable.watched (P := fun s events => tokenAfter events = some s.available) _ _ reached
  · rintro s rfl
    rfl
  · intro s events a t reached after _ stepped
    obtain ⟨e, performed, moves⟩ := step_moves (reachable_sound reached) stepped
    rw [record_moves performed, tokenAfter_follows after, moves.follows]

/-- A run is one of the token, `park` returns with it, and nothing panics. -/
theorem park_refines_token {events : List Event} (reached : (recorded I).Reachable (s, events)) :
    tokenAfter events = some (s.state == NOTIFIED) ∧
    (∀ e t call, s.perform .stepParker = .ok (e, t) → s.allowed .stepParker = true → s.parker.call = some call →
      t.parker.call = none → e = some .consumed ∨ e = some .lapsed ∧ ∃ dur, call = .parkTimeout dur) ∧
    (∀ i e t, s.perform (.stepUnparker i) = .ok (e, t) → s.unparkers i = .called → e = some .unparked) ∧
    ∀ a fault, s.step a ≠ .failed fault := by
  have sound := reachable_sound reached.of_observed
  refine ⟨reachable_tokens reached, ?_, ?_, fun a => (step_kept sound a).sound⟩
  · intro e t call performed can busy done
    obtain ⟨f, u, performed', moves⟩ := stepParker_moves sound can
    obtain ⟨rfl, rfl⟩ : f = e ∧ u = t := by simpa [perform, performed'] using performed
    exact moves.accounts.returned busy done
  · intro i e t performed stage
    obtain ⟨f, u, performed', moves⟩ := stepUnparker_moves sound (i := i) (by simp [allowed, stage])
    obtain ⟨rfl, rfl⟩ : f = e ∧ u = t := by simpa [perform, performed'] using performed
    cases moves with
    | sets | meets => rfl
    | locks other | unlocks other | notifies _ other =>
      rw [stage] at other
      cases other

end Tokens

section Progress

/-- A step of what has been called before, no spurious wakeup. -/
def own : ParkThreadAction I → Bool
  | .stepParker | .stepUnparker _ => true
  | .park _ | .wakeup | .unpark _ | .shutdown => false

/-- How many steps the parking thread still takes at most, as long as nobody notifies it. -/
def Parker.steps : Parker → Nat
  | .idle | .asleep _ => 0
  | .leaving | .waiting _ => 1
  | .consuming _ => 2
  | .announcing _ | .checking _ => 3
  | .locking _ | .woken _ => 4
  | .called _ => 5

def Unparker.steps : Unparker → Nat
  | .idle => 0
  | .notifying => 1
  | .unlocking => 2
  | .locking => 3
  | .called => 4

/-- Nothing goes on of its own accord. -/
def Rest [DecidableEq I] (s : ParkThread I) : Prop := ∀ a, own a = true → s.allowed a = false

theorem ParkerMoves.progress (moves : ParkerMoves s e t) : t.parker.steps < s.parker.steps := by
  cases moves with
  | takes _ stage | skips stage | prepares _ stage | locks _ stage | announces _ stage | meets _ stage
  | consumes _ stage | sleeps _ stage | relocks _ stage | finds _ stage | returns stage | expires _ stage
  | leaves stage => simp [stage, Parker.steps]

theorem Notifies.steps (notified : Notifies s t) : t.parker.steps ≤ s.parker.steps + 4 := by
  cases notified with
  | wakes => simp [Parker.steps]
  | misses => simp

/-- The token is there, or on its way, or the call has got it. -/
def Awaited (s : ParkThread I) : Prop :=
  s.state = NOTIFIED ∨ (∃ i, s.unparkers i = .called) ∨ s.parker.call = none

theorem ParkerMoves.awaited (moves : ParkerMoves s e t) (awaited : s.Awaited) : t.Awaited := by
  unfold Awaited at awaited ⊢
  rw [moves.unparkers]
  cases moves with
  | takes | skips | consumes | finds | expires | leaves => exact .inr (.inr rfl)
  | locks _ stage | sleeps _ stage | relocks _ stage | meets _ stage =>
    rw [stage] at awaited
    exact awaited
  | prepares _ stage state | announces _ stage state | returns stage state =>
    simp only [stage, state, Parker.call, EMPTY, PARKED, NOTIFIED] at awaited ⊢
    simpa using awaited

variable [DecidableEq I]

theorem UnparkerMoves.progress (moves : UnparkerMoves s i e t) :
    t.unparkers = Function.update s.unparkers i (t.unparkers i) ∧
      t.parker.steps + 5 * (t.unparkers i).steps < s.parker.steps + 5 * (s.unparkers i).steps := by
  cases moves with
  | sets stage | meets stage | locks stage | unlocks stage =>
    refine ⟨by simp [setUnparker], ?_⟩
    simp [setUnparker_unparkers, stage, Unparker.steps]
  | notifies u stage notified =>
    have less := notified.steps
    refine ⟨by simp [setUnparker, notified.fields.2.2], ?_⟩
    simp only [setUnparker_parker, setUnparker_unparkers, if_true, stage, Unparker.steps]
    omega

theorem Sound.rest (sound : Sound s) (rest : s.Rest) :
    s.mutex = none ∧ (∀ i, s.unparkers i = .idle) ∧
      (s.parker = .idle ∨ ∃ call, s.parker = .asleep call ∧ s.state = PARKED) := by
  have free : s.mutex = none := by
    cases held : s.mutex with
    | none => rfl
    | some p =>
      cases p with
      | none =>
        have holds := sound.parking.mp held
        have idle := rest .stepParker rfl
        cases stage : s.parker <;> simp [allowed, stage, Parker.holds] at idle holds
      | some i =>
        have holds := (sound.unparking i).mp held
        have idle := rest (.stepUnparker i) rfl
        cases stage : s.unparkers i <;> simp [allowed, stage, Unparker.holds] at idle holds
  have unparkers (i : I) : s.unparkers i = .idle := by
    have idle := rest (.stepUnparker i) rfl
    cases stage : s.unparkers i <;> simp [allowed, stage, free] at idle ⊢
  refine ⟨free, unparkers, ?_⟩
  have idle := rest .stepParker rfl
  cases stage : s.parker with
  | idle => exact .inl rfl
  | asleep call =>
    have fits := sound.fits
    rw [stage] at fits
    refine .inr ⟨call, rfl, fits.resolve_right fun notified => ?_⟩
    obtain ⟨i, notifies⟩ := sound.reached call stage notified
    rw [unparkers i] at notifies
    cases notifies
  | called | locking | announcing | consuming | waiting | woken | checking | leaving =>
    simp [allowed, stage, free] at idle

theorem UnparkerMoves.awaited (moves : UnparkerMoves s i e t) (awaited : s.Awaited) : t.Awaited := by
  cases moves with
  | sets | meets => exact .inl rfl
  | locks stage | unlocks stage =>
    refine awaited.imp_right fun later => later.imp_left fun there => ?_
    exact stays_set (P := (· = .called)) there (by simp [stage])
  | notifies u stage notified =>
    obtain ⟨state, _, unparkers⟩ := notified.fields
    have awaited : u.Awaited := by
      cases notified.accounts with
      | silent _ call => simpa [Awaited, state, unparkers, call] using awaited
    refine awaited.imp_right fun later => later.imp_left fun there => ?_
    exact stays_set (P := (· = .called)) there (by simp [unparkers, stage])

variable [Fintype I]

/-- A bound on the steps that are to come. -/
def work (s : ParkThread I) : Nat := s.parker.steps + 5 * ∑ i, (s.unparkers i).steps

theorem sum_steps (unparkers : I → Unparker) (i : I) (unparker : Unparker) :
    (∑ k, (Function.update unparkers i unparker k).steps) + (unparkers i).steps =
      (∑ k, (unparkers k).steps) + unparker.steps := by
  have others : ∑ k ∈ Finset.univ.erase i, (Function.update unparkers i unparker k).steps =
      ∑ k ∈ Finset.univ.erase i, (unparkers k).steps := by
    refine Finset.sum_congr rfl fun k there => ?_
    rw [Function.update_of_ne (Finset.ne_of_mem_erase there)]
  rw [← Finset.add_sum_erase _ _ (Finset.mem_univ i), ← Finset.add_sum_erase (a := i) _ _ (Finset.mem_univ i), others,
    Function.update_self]
  omega

theorem Moves.work_less {a : ParkThreadAction I} (moves : Moves s a e t) (owned : own a = true) : t.work < s.work := by
  cases moves with
  | park | wakeup | unpark | shutdown => cases owned
  | stepParker _ _ moves =>
    have less := moves.progress
    unfold work
    rw [moves.unparkers]
    omega
  | stepUnparker i _ _ moves =>
    obtain ⟨same, less⟩ := moves.progress
    have total := sum_steps s.unparkers i (t.unparkers i)
    rw [← same] at total
    unfold work
    omega

theorem own_run {actions : List (ParkThreadAction I)} (sound : Sound s) (owned : ∀ a ∈ actions, own a = true)
    (ran : (machine I).run s actions = some t) :
    Sound t ∧ actions.length + t.work ≤ s.work ∧ (s.Awaited → t.Awaited) := by
  induction actions generalizing s with
  | nil =>
    obtain rfl : s = t := Option.some.inj ran
    exact ⟨sound, by simp, id⟩
  | cons a rest ih =>
    obtain ⟨u, _, stepped, ran⟩ := System.run_cons _ ran
    obtain ⟨e, _, moves⟩ := step_moves sound stepped
    have mine := owned a List.mem_cons_self
    obtain ⟨sound', short, later⟩ := ih (moves.sound sound) (fun b there => owned b (List.mem_cons_of_mem a there)) ran
    have less := moves.work_less mine
    refine ⟨sound', by simp only [List.length_cons]; omega, fun awaited => later ?_⟩
    cases moves with
    | park | wakeup | unpark | shutdown => cases mine
    | stepParker _ _ moves => exact moves.awaited awaited
    | stepUnparker _ _ _ moves => exact moves.awaited awaited

/-- However those who have been called are scheduled, they come to rest, and then nobody sleeps through a token. -/
theorem unpark_reaches (reached : (machine I).Reachable s) {actions : List (ParkThreadAction I)}
    (owned : ∀ a ∈ actions, own a = true) (ran : (machine I).run s actions = some t) :
    actions.length ≤ s.work ∧
    (t.Rest → t.mutex = none ∧ (∀ i, t.unparkers i = .idle) ∧
      (t.parker = .idle ∨ ∃ call, t.parker = .asleep call ∧ t.state = PARKED)) ∧
    -- a token that is there, or about to be made available, lets the call of this moment return
    (t.Rest → s.state = NOTIFIED ∨ (∃ i, s.unparkers i = .called) → t.parker = .idle) := by
  obtain ⟨sound, short, later⟩ := own_run (reachable_sound reached) owned ran
  refine ⟨by omega, sound.rest, fun rest token => ?_⟩
  obtain ⟨_, unparkers, idle | ⟨call, asleep, state⟩⟩ := sound.rest rest
  · exact idle
  · have awaited : t.Awaited := later (token.imp_right .inl)
    simp [Awaited, asleep, state, unparkers, Parker.call, PARKED, NOTIFIED] at awaited

end Progress

section Runs

def exampleSleep : List (ParkThreadAction Bool) := .park .park :: List.replicate 4 .stepParker ++ [.unpark true]

def exampleWake : List (ParkThreadAction Bool) := List.replicate 4 (.stepUnparker true) ++ List.replicate 3 .stepParker

theorem exampleSleep_state : ((machine Bool).run new exampleSleep).map
    (fun s => (s.state, s.parker, s.unparkers true)) = some (PARKED, .asleep .park, .called) := by
  decide +kernel

theorem exampleWake_events : ((recorded Bool).run (new, []) (exampleSleep ++ exampleWake)).map
    (fun r => (r.1.parker, r.2)) = some (.idle, [.unparked, .consumed]) := by
  decide +kernel

theorem exampleWake_state : (((machine Bool).run new exampleSleep).bind fun s => (machine Bool).run s exampleWake).map
    (fun s => (s.parker, s.unparkers true, s.unparkers false)) = some (.idle, .idle, .idle) := by
  decide +kernel

theorem park_refines_token_run : ∃ s : ParkThread Bool, tokenAfter [.unparked, .consumed] = some (s.state == NOTIFIED) := by
  obtain ⟨⟨s, events⟩, ran, facts⟩ := Option.map_eq_some_iff.mp exampleWake_events
  obtain ⟨_, same⟩ := Prod.mk.inj facts
  subst same
  have start : (recorded Bool).Reachable (new, []) := .initial ⟨rfl, rfl⟩
  exact ⟨s, (park_refines_token (System.reachable_run _ start ran)).1⟩

theorem unpark_reaches_run : ∃ s t : ParkThread Bool, s.parker = .asleep .park ∧
    (machine Bool).run s exampleWake = some t ∧ t.parker = .idle := by
  obtain ⟨s, ran, facts⟩ := Option.map_eq_some_iff.mp exampleSleep_state
  obtain ⟨t, both, ends⟩ := Option.map_eq_some_iff.mp exampleWake_state
  rw [ran, Option.bind_some] at both
  simp only [Prod.mk.injEq] at facts ends
  obtain ⟨_, asleep, called⟩ := facts
  have reached : (machine Bool).Reachable s := System.reachable_run _ (.initial rfl) ran
  have rest : t.Rest := by
    intro a owned
    cases a with
    | stepParker => simp [allowed, ends.1]
    | stepUnparker i => cases i <;> simp [allowed, ends.2]
    | park | wakeup | unpark | shutdown => cases owned
  have owned : ∀ a ∈ exampleWake, own a = true := by decide
  obtain ⟨_, _, returns⟩ := unpark_reaches reached owned both
  exact ⟨s, t, asleep, both, returns rest (.inr ⟨true, called⟩)⟩

end Runs

end Osaka.ParkThread
