import Osaka.Sync.AtomicWaker

set_option autoImplicit false

namespace Osaka.Sync.AtomicWaker

open Transitions

variable {I : Type} {s t : AtomicWaker I} {e : Effect} {i k : I}

section Parties

/-- From the exchange that sets REGISTERING to the one that clears it. -/
def Register.holds : Register → Bool
  | .cloning _ | .taking _ | .putting _ _ | .releasing _ _ | .retaking _ _ | .swapping _ _ _ => true
  | _ => false

/-- A wake has been left to the registering party, and it knows. -/
def Register.delegated : Register → Bool
  | .retaking _ _ | .swapping _ _ _ => true
  | _ => false

def Register.accesses : Register → Bool
  | .taking _ | .putting _ _ | .retaking _ _ => true
  | _ => false

def Wake.holds : Wake → Bool
  | .taking | .releasing _ => true
  | _ => false

def Wake.accesses : Wake → Bool
  | .taking => true
  | _ => false

def holds (s : AtomicWaker I) : Option I → Bool
  | none => s.register.holds
  | some i => (s.wakes i).holds

def accesses (s : AtomicWaker I) : Option I → Bool
  | none => s.register.accesses
  | some i => (s.wakes i).accesses

theorem accesses_holds (p : Option I) (accessing : s.accesses p = true) : s.holds p = true := by
  cases p with
  | none =>
    cases stage : s.register <;> simp [accesses, holds, stage, Register.accesses, Register.holds] at accessing ⊢
  | some i =>
    cases stage : s.wakes i <;> simp [accesses, holds, stage, Wake.accesses, Wake.holds] at accessing ⊢

def Quiet (s : AtomicWaker I) : Prop := s.register = .idle ∧ ∀ i, s.wakes i = .idle

end Parties

section Soundness

/-- The two bits say who holds the lock, and whether a wake has been left to the registering party. -/
inductive Locked (s : AtomicWaker I) : Prop where
  | free : s.state = WAITING → s.register.holds = false → (∀ i, (s.wakes i).holds = false) → Locked s
  | registering : s.state = REGISTERING → s.register.holds = true → s.register.delegated = false →
      (∀ i, (s.wakes i).holds = false) → Locked s
  | delegated : s.state = REGISTERING ||| WAKING → s.register.holds = true → (∀ i, (s.wakes i).holds = false) →
      Locked s
  | waking (i : I) : s.state = WAKING → s.register.holds = false → (s.wakes i).holds = true →
      (∀ k, (s.wakes k).holds = true → k = i) → Locked s

def Register.Shaped (calls : Nat) (cell : Option Waker) : Register → Prop
  | .idle => True
  | .called waker | .cloning waker | .taking waker | .wakingSelf waker => waker = calls
  | .putting newWaker _ => newWaker = calls ∧ cell = none
  | .releasing maybePanic oldWaker | .retaking maybePanic oldWaker =>
    if maybePanic then oldWaker = none else cell = some calls
  | .dropping maybePanic oldWaker => maybePanic = true → oldWaker = none
  | .swapping maybePanic oldWaker waker => cell = none ∧ if maybePanic then oldWaker = none else waker = some calls
  | .wakingOld maybePanic _ waker | .wakingNew maybePanic waker => waker = if maybePanic then none else some calls

structure Sound (s : AtomicWaker I) : Prop where
  locked : Locked s
  shaped : s.register.Shaped s.calls s.waker
  emptied : ∀ i waker, s.wakes i = .releasing waker → s.waker = none

theorem new_sound : Sound (new : AtomicWaker I) where
  locked := .free rfl rfl fun _ => rfl
  shaped := trivial
  emptied i waker stage := by simp [new] at stage

theorem Locked.exclusive (locked : Locked s) {p q : Option I} (first : s.holds p = true) (second : s.holds q = true) :
    p = q := by
  cases locked with
  | free _ register wakes | registering _ register _ wakes | delegated _ register wakes | waking i _ register _ wakes =>
    cases p <;> cases q <;> simp_all [holds]

theorem Locked.quiet (locked : Locked s) (quiet : s.Quiet) : s.state = WAITING := by
  cases locked with
  | free state => exact state
  | registering _ register | delegated _ register =>
    rw [quiet.1] at register
    cases register
  | waking i _ _ holds =>
    rw [quiet.2 i] at holds
    cases holds

theorem Locked.of_register (locked : Locked s) (register : s.register.holds = true) :
    (s.state = REGISTERING ∧ s.register.delegated = false ∨ s.state = REGISTERING ||| WAKING) ∧
      ∀ i, (s.wakes i).holds = false := by
  cases locked with
  | free _ idle | waking _ _ idle =>
    rw [idle] at register
    cases register
  | registering state _ early wakes => exact ⟨.inl ⟨state, early⟩, wakes⟩
  | delegated state _ wakes => exact ⟨.inr state, wakes⟩

theorem Locked.of_wake (locked : Locked s) (wake : (s.wakes i).holds = true) :
    s.state = WAKING ∧ s.register.holds = false ∧ ∀ k, (s.wakes k).holds = true → k = i := by
  cases locked with
  | free _ _ wakes | registering _ _ _ wakes | delegated _ _ wakes =>
    rw [wakes i] at wake
    cases wake
  | waking k state idle holds only =>
    obtain rfl := only i wake
    exact ⟨state, idle, only⟩

end Soundness

section Moves

inductive RegisterMoves (s : AtomicWaker I) : Effect → AtomicWaker I → Prop where
  | locks : s.register = .called s.calls → s.state = WAITING → s.register.holds = false →
      (∀ i, (s.wakes i).holds = false) →
      RegisterMoves s .none { s with state := REGISTERING, register := .cloning s.calls }
  | meets : s.register = .called s.calls → s.state = WAKING →
      RegisterMoves s .none { s with register := .wakingSelf s.calls }
  | clones : s.register = .cloning s.calls → RegisterMoves s .none { s with register := .taking s.calls }
  | panics : s.register = .cloning s.calls →
      RegisterMoves s { Effect.none with panicked := true } { s with register := .releasing true none }
  | takes : s.register = .taking s.calls →
      RegisterMoves s .none { s with waker := none, register := .putting s.calls s.waker }
  | puts (oldWaker : Option Waker) : s.register = .putting s.calls oldWaker → s.waker = none →
      RegisterMoves s .none { s with waker := some s.calls, register := .releasing false oldWaker }
  | releases (maybePanic : Bool) (oldWaker : Option Waker) : s.register = .releasing maybePanic oldWaker →
      s.state = REGISTERING →
      RegisterMoves s .none { s with state := WAITING, register := .dropping maybePanic oldWaker }
  | fails (maybePanic : Bool) (oldWaker : Option Waker) : s.register = .releasing maybePanic oldWaker →
      s.state = REGISTERING ||| WAKING → RegisterMoves s .none { s with register := .retaking maybePanic oldWaker }
  | drops (maybePanic : Bool) (oldWaker : Option Waker) : s.register = .dropping maybePanic oldWaker →
      RegisterMoves s { Effect.none with dropped := oldWaker, ended := some (resume maybePanic) }
        { s with register := .idle }
  | retakes (maybePanic : Bool) (oldWaker : Option Waker) : s.register = .retaking maybePanic oldWaker →
      RegisterMoves s .none { s with waker := none, register := .swapping maybePanic oldWaker s.waker }
  | swaps (oldWaker : Option Waker) : s.register = .swapping false oldWaker (some s.calls) →
      RegisterMoves s .none { s with state := WAITING, register := .wakingOld false oldWaker (some s.calls) }
  | swapsBack (waker : Option Waker) : s.register = .swapping true none waker →
      RegisterMoves s .none { s with state := WAITING, register := .wakingOld true waker none }
  | wakesOld (maybePanic : Bool) (oldWaker waker : Option Waker) : s.register = .wakingOld maybePanic oldWaker waker →
      RegisterMoves s { Effect.none with woken := oldWaker } { s with register := .wakingNew maybePanic waker }
  | wakesNew (ended : Ended) : s.register = .wakingNew false (some s.calls) →
      RegisterMoves s { Effect.none with woken := some s.calls, ended := some ended } { s with register := .idle }
  | resumes : s.register = .wakingNew true none →
      RegisterMoves s { Effect.none with ended := some .unwound } { s with register := .idle }
  | wakesSelf (ended : Ended) : s.register = .wakingSelf s.calls →
      RegisterMoves s { Effect.none with woken := some s.calls, ended := some ended } { s with register := .idle }

theorem RegisterMoves.busy (moves : RegisterMoves s e t) : s.register ≠ .idle := by
  intro idle
  cases moves <;> simp_all

theorem RegisterMoves.wakes (moves : RegisterMoves s e t) : t.wakes = s.wakes := by
  cases moves <;> rfl

theorem RegisterMoves.calls (moves : RegisterMoves s e t) : t.calls = s.calls := by
  cases moves <;> rfl

theorem stepRegister_moves (sound : Sound s) (busy : s.register ≠ .idle) (panics : Bool) :
    ∃ e t, s.stepRegister panics = .ok (e, t) ∧ RegisterMoves s e t := by
  have shaped := sound.shaped
  cases stage : s.register with
  | idle => exact absurd stage busy
  | called waker =>
    obtain rfl : waker = s.calls := by simpa [stage, Register.Shaped] using shaped
    have idle : s.register.holds = false := by rw [stage]; rfl
    cases sound.locked with
    | free state _ wakes =>
      refine ⟨_, _, ?_, .locks stage state idle wakes⟩
      simp [stepRegister, stage, compareExchange, unwrapOrElse, state]
    | registering _ held | delegated _ held =>
      rw [idle] at held
      cases held
    | waking i state =>
      refine ⟨_, _, ?_, .meets stage state⟩
      simp [stepRegister, stage, compareExchange, unwrapOrElse, state, WAKING, WAITING]
  | cloning waker =>
    obtain rfl : waker = s.calls := by simpa [stage, Register.Shaped] using shaped
    cases panics with
    | false => exact ⟨_, _, by simp [stepRegister, stage], .clones stage⟩
    | true => exact ⟨_, _, by simp [stepRegister, stage], .panics stage⟩
  | taking newWaker =>
    obtain rfl : newWaker = s.calls := by simpa [stage, Register.Shaped] using shaped
    exact ⟨_, _, by simp [stepRegister, stage], .takes stage⟩
  | putting newWaker oldWaker =>
    obtain ⟨rfl, empty⟩ : newWaker = s.calls ∧ s.waker = none := by simpa [stage, Register.Shaped] using shaped
    exact ⟨_, _, by simp [stepRegister, stage], .puts oldWaker stage empty⟩
  | releasing maybePanic oldWaker =>
    have held : s.register.holds = true := by rw [stage]; rfl
    rcases (sound.locked.of_register held).1 with ⟨state, _⟩ | state
    · exact ⟨_, _, by simp [stepRegister, stage, compareExchange, state], .releases maybePanic oldWaker stage state⟩
    · refine ⟨_, _, ?_, .fails maybePanic oldWaker stage state⟩
      simp [stepRegister, stage, compareExchange, state, REGISTERING, WAKING]
  | dropping maybePanic oldWaker => exact ⟨_, _, by simp [stepRegister, stage], .drops maybePanic oldWaker stage⟩
  | retaking maybePanic oldWaker => exact ⟨_, _, by simp [stepRegister, stage], .retakes maybePanic oldWaker stage⟩
  | swapping maybePanic oldWaker waker =>
    cases maybePanic with
    | false =>
      obtain ⟨_, rfl⟩ : s.waker = none ∧ waker = some s.calls := by simpa [stage, Register.Shaped] using shaped
      exact ⟨_, _, by simp [stepRegister, stage, swap], .swaps oldWaker stage⟩
    | true =>
      obtain ⟨_, rfl⟩ : s.waker = none ∧ oldWaker = none := by simpa [stage, Register.Shaped] using shaped
      exact ⟨_, _, by simp [stepRegister, stage, swap], .swapsBack waker stage⟩
  | wakingOld maybePanic oldWaker waker =>
    exact ⟨_, _, by simp [stepRegister, stage], .wakesOld maybePanic oldWaker waker stage⟩
  | wakingNew maybePanic waker =>
    cases maybePanic with
    | false =>
      obtain rfl : waker = some s.calls := by simpa [stage, Register.Shaped] using shaped
      exact ⟨_, _, by simp [stepRegister, stage], .wakesNew (resume panics) stage⟩
    | true =>
      obtain rfl : waker = none := by simpa [stage, Register.Shaped] using shaped
      exact ⟨_, _, by simp [stepRegister, stage, resume], .resumes stage⟩
  | wakingSelf waker =>
    obtain rfl : waker = s.calls := by simpa [stage, Register.Shaped] using shaped
    exact ⟨_, _, by simp [stepRegister, stage], .wakesSelf (resume panics) stage⟩

variable [DecidableEq I]

inductive WakeMoves (s : AtomicWaker I) (i : I) : Effect → AtomicWaker I → Prop where
  | locks : s.wakes i = .called → s.state = WAITING → s.register.holds = false → (∀ k, (s.wakes k).holds = false) →
      WakeMoves s i .none ({ s with state := WAKING }.setWake i .taking)
  -- The registering party is left to do it.
  | delegates : s.wakes i = .called → s.state = REGISTERING ∨ s.state = REGISTERING ||| WAKING →
      s.register.holds = true →
      WakeMoves s i { Effect.none with ended := some .returned }
        ({ s with state := REGISTERING ||| WAKING }.setWake i .idle)
  -- Another waking party is left to do it.
  | leaves (k : I) : s.wakes i = .called → s.state = WAKING → (s.wakes k).holds = true →
      WakeMoves s i { Effect.none with ended := some .returned } ({ s with state := WAKING }.setWake i .idle)
  | takes : s.wakes i = .taking → WakeMoves s i .none ({ s with waker := none }.setWake i (.releasing s.waker))
  | releases (waker : Waker) : s.wakes i = .releasing (some waker) → s.state = WAKING → s.waker = none →
      WakeMoves s i .none ({ s with state := WAITING }.setWake i (.waking waker))
  | releasesEmpty : s.wakes i = .releasing none → s.state = WAKING → s.waker = none →
      WakeMoves s i { Effect.none with ended := some .returned } ({ s with state := WAITING }.setWake i .idle)
  | wakes (waker : Waker) (ended : Ended) : s.wakes i = .waking waker →
      WakeMoves s i { Effect.none with woken := some waker, ended := some ended } (s.setWake i .idle)

theorem WakeMoves.register (moves : WakeMoves s i e t) : t.register = s.register := by
  cases moves <;> rfl

theorem WakeMoves.calls (moves : WakeMoves s i e t) : t.calls = s.calls := by
  cases moves <;> rfl

theorem WakeMoves.others (moves : WakeMoves s i e t) (k : I) (other : k ≠ i) : t.wakes k = s.wakes k := by
  cases moves <;> simp [setWake_wakes, other]

theorem stepWake_moves (sound : Sound s) (busy : s.wakes i ≠ .idle) (panics : Bool) :
    ∃ e t, s.stepWake i panics = .ok (e, t) ∧ WakeMoves s i e t := by
  cases stage : s.wakes i with
  | idle => exact absurd stage busy
  | called =>
    cases sound.locked with
    | free state register wakes =>
      refine ⟨_, _, ?_, .locks stage state register wakes⟩
      simp [stepWake, stage, fetchOr, state, WAITING]
    | registering state register =>
      refine ⟨_, _, ?_, .delegates stage (.inl state) register⟩
      simp [stepWake, stage, fetchOr, state, WAITING, REGISTERING, WAKING]
    | delegated state register =>
      refine ⟨_, _, ?_, .delegates stage (.inr state) register⟩
      simp [stepWake, stage, fetchOr, state, WAITING, REGISTERING, WAKING]
    | waking k state _ holds =>
      refine ⟨_, _, ?_, .leaves k stage state holds⟩
      simp [stepWake, stage, fetchOr, state, WAITING, REGISTERING, WAKING]
  | taking => exact ⟨_, _, by simp [stepWake, stage], .takes stage⟩
  | releasing waker =>
    have held : (s.wakes i).holds = true := by rw [stage]; rfl
    have state := (sound.locked.of_wake held).1
    have empty := sound.emptied i waker stage
    cases waker with
    | none =>
      refine ⟨_, _, ?_, .releasesEmpty stage state empty⟩
      simp [stepWake, stage, fetchAnd, state, WAITING, WAKING]
    | some waker =>
      refine ⟨_, _, ?_, .releases waker stage state empty⟩
      simp [stepWake, stage, fetchAnd, state, WAITING, WAKING]
  | waking waker => exact ⟨_, _, by simp [stepWake, stage], .wakes waker (resume panics) stage⟩

end Moves

section Invariants

theorem Locked.told (locked : Locked s) (late : s.register.delegated = true) : s.state = REGISTERING ||| WAKING := by
  have held : s.register.holds = true := by
    cases stage : s.register <;> simp [stage, Register.delegated, Register.holds] at late ⊢
  rcases (locked.of_register held).1 with ⟨_, early⟩ | state
  · rw [early] at late
    cases late
  · exact state

theorem Locked.keeps (locked : Locked s) (state : t.state = s.state) (register : t.register.holds = s.register.holds)
    (wakes : ∀ i, (t.wakes i).holds = (s.wakes i).holds)
    (late : t.register.delegated = true → s.state = REGISTERING ||| WAKING) : Locked t := by
  cases locked with
  | free bits idle others =>
    exact .free (state.trans bits) (register.trans idle) fun i => (wakes i).trans (others i)
  | registering bits held early others =>
    refine .registering (state.trans bits) (register.trans held) ?_ fun i => (wakes i).trans (others i)
    cases delegated : t.register.delegated with
    | false => rfl
    | true =>
      rw [late delegated] at bits
      cases bits
  | delegated bits held others =>
    exact .delegated (state.trans bits) (register.trans held) fun i => (wakes i).trans (others i)
  | waking i bits idle held only =>
    exact .waking i (state.trans bits) (register.trans idle) ((wakes i).trans held)
      fun k holds => only k ((wakes k).symm.trans holds)

theorem RegisterMoves.locked (moves : RegisterMoves s e t) (sound : Sound s) : Locked t := by
  have locked := sound.locked
  cases moves with
  | locks stage state idle others => exact .registering rfl rfl rfl others
  | meets stage | clones stage | panics stage | takes stage | puts _ stage | drops _ _ stage | wakesOld _ _ _ stage
  | wakesNew _ stage | resumes stage | wakesSelf _ stage =>
    exact locked.keeps rfl (by rw [stage]; rfl) (fun _ => rfl) (fun late => by cases late)
  | fails _ _ stage state => exact locked.keeps rfl (by rw [stage]; rfl) (fun _ => rfl) (fun _ => state)
  | retakes _ _ stage =>
    exact locked.keeps rfl (by rw [stage]; rfl) (fun _ => rfl) (fun _ => locked.told (by rw [stage]; rfl))
  | releases _ _ stage | swaps _ stage | swapsBack _ stage =>
    exact .free rfl rfl (locked.of_register (by rw [stage]; rfl)).2

/-- Whoever holds the lock keeps the others out of the cell. -/
theorem Locked.alone (locked : Locked s) (held : s.register.holds = true) (i : I) (waker : Option Waker) :
    s.wakes i ≠ .releasing waker := by
  intro stage
  have out := (locked.of_register held).2 i
  rw [stage] at out
  cases out

theorem RegisterMoves.sound (moves : RegisterMoves s e t) (sound : Sound s) : Sound t := by
  have locked := moves.locked sound
  have shaped := sound.shaped
  have emptied := sound.emptied
  cases moves with
  | locks | meets | clones => exact ⟨locked, rfl, emptied⟩
  | panics => exact ⟨locked, by simp [Register.Shaped], emptied⟩
  | takes => exact ⟨locked, ⟨rfl, rfl⟩, fun _ _ _ => rfl⟩
  | puts _ stage =>
    refine ⟨locked, by simp [Register.Shaped], ?_⟩
    intro i waker releasing
    exact absurd releasing (sound.locked.alone (by rw [stage]; rfl) i waker)
  | releases maybePanic _ stage =>
    rw [stage] at shaped
    refine ⟨locked, ?_, emptied⟩
    rintro rfl
    simpa [Register.Shaped] using shaped
  | fails _ _ stage | wakesOld _ _ _ stage =>
    rw [stage] at shaped
    exact ⟨locked, shaped, emptied⟩
  | retakes _ _ stage =>
    rw [stage] at shaped
    exact ⟨locked, ⟨rfl, shaped⟩, fun _ _ _ => rfl⟩
  | swaps | swapsBack => exact ⟨locked, by simp [Register.Shaped], emptied⟩
  | drops | wakesNew | resumes | wakesSelf => exact ⟨locked, trivial, emptied⟩

theorem Register.Shaped.outside {calls : Nat} {cell cell' : Option Waker} {register : Register}
    (shaped : register.Shaped calls cell) (idle : register.holds = false) : register.Shaped calls cell' := by
  cases register with
  | putting | releasing | retaking | swapping => cases idle
  | _ => exact shaped

section Waking

variable [DecidableEq I] {wake : Wake}

theorem Locked.passes (locked : Locked s) (state : t.state = s.state) (register : t.register = s.register)
    (wakes : t.wakes = s.wakes) (same : wake.holds = (s.wakes i).holds) : Locked (t.setWake i wake) := by
  refine locked.keeps state (by rw [setWake_register, register]) (fun k => ?_) ?_
  · rw [setWake_wakes, wakes]
    split
    next here => rw [here, same]
    next => rfl
  · rw [setWake_register, register]
    exact locked.told

theorem Locked.opens (locked : Locked s) (held : (s.wakes i).holds = true) (idle : wake.holds = false) :
    Locked ({ s with state := WAITING }.setWake i wake) := by
  obtain ⟨_, register, only⟩ := locked.of_wake held
  refine .free rfl register fun k => ?_
  rw [setWake_wakes]
  split
  next => exact idle
  next other =>
    cases holds : (s.wakes k).holds with
    | false => rfl
    | true => exact absurd (only k holds) other

theorem WakeMoves.locked (moves : WakeMoves s i e t) (sound : Sound s) : Locked t := by
  have locked := sound.locked
  cases moves with
  | locks stage state idle others =>
    refine .waking i rfl idle ?_ fun k holds => ?_
    · rw [setWake_wakes, if_pos rfl]
      rfl
    · rw [setWake_wakes] at holds
      split at holds
      next here => exact here
      next =>
        rw [others k] at holds
        cases holds
  | delegates stage state held =>
    refine .delegated rfl held fun k => ?_
    rw [setWake_wakes]
    split
    next => rfl
    next => exact (locked.of_register held).2 k
  | leaves k stage state => exact locked.passes state.symm rfl rfl (by rw [stage]; rfl)
  | takes stage | wakes _ _ stage => exact locked.passes rfl rfl rfl (by rw [stage]; rfl)
  | releases _ stage | releasesEmpty stage => exact locked.opens (by rw [stage]; rfl) rfl

theorem Sound.emptied_after (sound : Sound s) (same : t.waker = s.waker) (wakes : t.wakes = s.wakes)
    (early : ∀ waker, wake ≠ .releasing waker) (k : I) (waker : Option Waker)
    (stage : (t.setWake i wake).wakes k = .releasing waker) : (t.setWake i wake).waker = none := by
  rw [setWake_wakes, wakes] at stage
  rw [setWake_waker, same]
  split at stage
  next => exact absurd stage (early waker)
  next => exact sound.emptied k waker stage

theorem WakeMoves.sound (moves : WakeMoves s i e t) (sound : Sound s) : Sound t := by
  have locked := moves.locked sound
  have shaped := sound.shaped
  cases moves with
  | takes stage =>
    have idle := (sound.locked.of_wake (i := i) (by rw [stage]; rfl)).2.1
    exact ⟨locked, shaped.outside idle, fun _ _ _ => rfl⟩
  | locks | delegates | leaves | releases | releasesEmpty | wakes =>
    exact ⟨locked, shaped, sound.emptied_after rfl rfl (by simp)⟩

inductive Moves (s : AtomicWaker I) : AtomicWakerAction I → Effect → AtomicWaker I → Prop where
  | register : s.register = .idle →
      Moves s .register .none { s with calls := s.calls + 1, register := .called (s.calls + 1) }
  | stepRegister (panics : Bool) {e : Effect} {t : AtomicWaker I} : RegisterMoves s e t →
      Moves s (.stepRegister panics) e t
  | wake (i : I) : s.wakes i = .idle → Moves s (.wake i) .none (s.setWake i .called)
  | stepWake (i : I) (panics : Bool) {e : Effect} {t : AtomicWaker I} : WakeMoves s i e t →
      Moves s (.stepWake i panics) e t

theorem Moves.sound {a : AtomicWakerAction I} (moves : Moves s a e t) (sound : Sound s) : Sound t := by
  cases moves with
  | register idle =>
    exact ⟨sound.locked.keeps rfl (by rw [idle]; rfl) (fun _ => rfl) (fun late => by cases late), rfl, sound.emptied⟩
  | stepRegister _ moves => exact moves.sound sound
  | wake i idle =>
    exact ⟨sound.locked.passes rfl rfl rfl (by rw [idle]; rfl), sound.shaped, sound.emptied_after rfl rfl (by simp)⟩
  | stepWake _ _ moves => exact moves.sound sound

theorem Moves.untouched {a : AtomicWakerAction I} (moves : Moves s a e t) (away : s.accesses a.party = false) :
    t.waker = s.waker := by
  cases moves with
  | register | wake => rfl
  | stepRegister panics moves =>
    replace away : s.register.accesses = false := away
    cases moves with
    | takes stage | puts _ stage | retakes _ _ stage =>
      rw [stage] at away
      cases away
    | _ => rfl
  | stepWake i panics moves =>
    replace away : (s.wakes i).accesses = false := away
    cases moves with
    | takes stage =>
      rw [stage] at away
      cases away
    | _ => rfl

theorem perform_moves {a : AtomicWakerAction I} (sound : Sound s) (allowed : s.allowed a = true) :
    ∃ e t, s.perform a = .ok (e, t) ∧ Moves s a e t := by
  cases a with
  | register => exact ⟨_, _, rfl, .register (by simpa [AtomicWaker.allowed] using allowed)⟩
  | stepRegister panics =>
    obtain ⟨e, t, performed, moves⟩ :=
      stepRegister_moves sound (by simpa [AtomicWaker.allowed] using allowed) panics
    exact ⟨e, t, performed, .stepRegister panics moves⟩
  | wake i => exact ⟨_, _, rfl, .wake i (by simpa [AtomicWaker.allowed] using allowed)⟩
  | stepWake i panics =>
    obtain ⟨e, t, performed, moves⟩ := stepWake_moves sound (by simpa [AtomicWaker.allowed] using allowed) panics
    exact ⟨e, t, performed, .stepWake i panics moves⟩

theorem step_moves {a : AtomicWakerAction I} (sound : Sound s) (stepped : s.step a = .next t) :
    ∃ e, s.perform a = .ok (e, t) ∧ Moves s a e t := by
  unfold step at stepped
  split at stepped
  next allowed =>
    obtain ⟨e, u, performed, moves⟩ := perform_moves sound allowed
    obtain rfl : u = t := by simpa [performed] using stepped
    exact ⟨e, performed, moves⟩
  next => cases stepped

theorem step_kept (sound : Sound s) (a : AtomicWakerAction I) : (s.step a).Kept Sound := by
  unfold step
  split
  next allowed =>
    obtain ⟨e, t, performed, moves⟩ := perform_moves sound allowed
    rw [performed]
    exact moves.sound sound
  next => trivial

theorem reachable_sound (reached : (machine I).Reachable s) : Sound s := by
  apply System.Reachable.invariant _ _ reached
  · rintro s rfl
    exact new_sound
  · exact fun s a sound _ => step_kept sound a

end Waking

end Invariants

end Osaka.Sync.AtomicWaker
