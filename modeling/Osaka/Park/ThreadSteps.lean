import Osaka.Park.Thread

set_option autoImplicit false

namespace Osaka.ParkThread

open Transitions

variable {I : Type} {s t : ParkThread I} {e : Option Event} {i k : I}

section Soundness

/-- From where the parking thread has announced itself, the state is PARKED or has been notified. -/
def Parker.Fits (state : Nat) : Parker → Prop
  | .idle | .called _ | .locking _ | .announcing _ | .leaving => state = EMPTY ∨ state = NOTIFIED
  | .consuming _ => state = NOTIFIED
  | .waiting _ | .asleep _ | .woken _ | .checking _ => state = PARKED ∨ state = NOTIFIED

def Unparker.notifies : Unparker → Bool
  | .locking | .unlocking | .notifying => true
  | .idle | .called => false

/-- Who has met PARKED cannot get past the mutex before the parking thread is in the queue. -/
structure Sound (s : ParkThread I) : Prop where
  parking : s.mutex = some none ↔ s.parker.holds = true
  unparking : ∀ i, s.mutex = some (some i) ↔ (s.unparkers i).holds = true
  fits : s.parker.Fits s.state
  before : ∀ call, s.parker = .waiting call → s.state = NOTIFIED → ∃ i, s.unparkers i = .locking
  reached : ∀ call, s.parker = .asleep call → s.state = NOTIFIED → ∃ i, (s.unparkers i).notifies = true

theorem new_sound : Sound (new : ParkThread I) where
  parking := by simp [new, Parker.holds]
  unparking i := by simp [new, Unparker.holds]
  fits := .inl rfl
  before call stage := by simp [new] at stage
  reached call stage := by simp [new] at stage

theorem Sound.free (sound : Sound s) (free : s.mutex = none) :
    s.parker.holds = false ∧ ∀ i, (s.unparkers i).holds = false := by
  constructor
  · cases holds : s.parker.holds with
    | false => rfl
    | true => simp [sound.parking.mpr holds] at free
  · intro i
    cases holds : (s.unparkers i).holds with
    | false => rfl
    | true => simp [(sound.unparking i).mpr holds] at free

theorem Sound.alone (sound : Sound s) (first : (s.unparkers i).holds = true) :
    s.parker.holds = false ∧ ∀ k, (s.unparkers k).holds = true → k = i := by
  have held := (sound.unparking i).mpr first
  constructor
  · cases holds : s.parker.holds with
    | false => rfl
    | true => simp [sound.parking.mpr holds] at held
  · intro k second
    simpa [held, eq_comm] using (sound.unparking k).mpr second

end Soundness

section Moving

inductive ParkerMoves (s : ParkThread I) : Option Event → ParkThread I → Prop where
  | takes (call : Call) : s.parker = .called call → s.state = NOTIFIED →
      ParkerMoves s (some .consumed) { s with state := EMPTY, parker := .idle }
  | skips : s.parker = .called (.parkTimeout 0) → s.state = EMPTY →
      ParkerMoves s (some .lapsed) { s with parker := .idle }
  | prepares (call : Call) : s.parker = .called call → s.state = EMPTY →
      ParkerMoves s none { s with parker := .locking call }
  | locks (call : Call) : s.parker = .locking call → s.mutex = none →
      ParkerMoves s none { s with mutex := some none, parker := .announcing call }
  | announces (call : Call) : s.parker = .announcing call → s.state = EMPTY →
      ParkerMoves s none { s with state := PARKED, parker := .waiting call }
  | meets (call : Call) : s.parker = .announcing call → s.state = NOTIFIED →
      ParkerMoves s none { s with parker := .consuming call }
  | consumes (call : Call) : s.parker = .consuming call → s.state = NOTIFIED →
      ParkerMoves s (some .consumed) { s with state := EMPTY, parker := .leaving }
  | sleeps (call : Call) : s.parker = .waiting call →
      ParkerMoves s none { s with mutex := none, parker := .asleep call }
  | relocks (call : Call) : s.parker = .woken call → s.mutex = none →
      ParkerMoves s none { s with mutex := some none, parker := .checking call }
  | finds (call : Call) : s.parker = .checking call → s.state = NOTIFIED →
      ParkerMoves s (some .consumed) { s with state := EMPTY, parker := .leaving }
  | returns : s.parker = .checking .park → s.state = PARKED →
      ParkerMoves s none { s with parker := .waiting .park }
  | expires (dur : Nat) : s.parker = .checking (.parkTimeout dur) → s.state = PARKED →
      ParkerMoves s (some .lapsed) { s with state := EMPTY, parker := .leaving }
  | leaves : s.parker = .leaving → ParkerMoves s none { s with mutex := none, parker := .idle }

theorem ParkerMoves.unparkers (moves : ParkerMoves s e t) : t.unparkers = s.unparkers := by
  cases moves <;> rfl

variable [DecidableEq I]

theorem stepParker_moves (sound : Sound s) (can : s.allowed .stepParker = true) :
    ∃ e t, s.stepParker = .ok (e, t) ∧ ParkerMoves s e t := by
  have fits := sound.fits
  cases stage : s.parker with
  | idle | asleep call => simp [allowed, stage] at can
  | called call =>
    rw [stage] at fits
    rcases fits with empty | notified
    · by_cases zero : call = .parkTimeout 0
      · subst zero
        refine ⟨_, _, ?_, .skips stage empty⟩
        simp [stepParker, stage, compareExchange, empty, EMPTY, NOTIFIED]
      · refine ⟨_, _, ?_, .prepares call stage empty⟩
        simp [stepParker, stage, compareExchange, empty, EMPTY, NOTIFIED, zero]
    · exact ⟨_, _, by simp [stepParker, stage, compareExchange, notified], .takes call stage notified⟩
  | locking call => exact ⟨_, _, by simp [stepParker, stage], .locks call stage (by simpa [allowed, stage] using can)⟩
  | announcing call =>
    rw [stage] at fits
    rcases fits with empty | notified
    · exact ⟨_, _, by simp [stepParker, stage, compareExchange, empty], .announces call stage empty⟩
    · refine ⟨_, _, ?_, .meets call stage notified⟩
      simp [stepParker, stage, compareExchange, notified, EMPTY, NOTIFIED]
  | consuming call =>
    rw [stage] at fits
    have notified : s.state = NOTIFIED := fits
    exact ⟨_, _, by simp [stepParker, stage, notified], .consumes call stage notified⟩
  | waiting call => exact ⟨_, _, by simp [stepParker, stage], .sleeps call stage⟩
  | woken call => exact ⟨_, _, by simp [stepParker, stage], .relocks call stage (by simpa [allowed, stage] using can)⟩
  | checking call =>
    rw [stage] at fits
    cases call with
    | park =>
      rcases fits with parked | notified
      · refine ⟨_, _, ?_, .returns stage parked⟩
        simp [stepParker, stage, compareExchange, parked, PARKED, NOTIFIED]
      · exact ⟨_, _, by simp [stepParker, stage, compareExchange, notified], .finds .park stage notified⟩
    | parkTimeout dur =>
      rcases fits with parked | notified
      · exact ⟨_, _, by simp [stepParker, stage, parked, PARKED, NOTIFIED], .expires dur stage parked⟩
      · exact ⟨_, _, by simp [stepParker, stage, notified], .finds (.parkTimeout dur) stage notified⟩
  | leaving => exact ⟨_, _, by simp [stepParker, stage], .leaves stage⟩

end Moving

section Notifying

inductive Notifies (s : ParkThread I) : ParkThread I → Prop where
  | wakes (call : Call) : s.parker = .asleep call → Notifies s { s with parker := .woken call }
  | misses : (∀ call, s.parker ≠ .asleep call) → Notifies s s

theorem notifyOne_notifies (s : ParkThread I) : Notifies s s.notifyOne := by
  cases stage : s.parker with
  | asleep call =>
    have wakes := Notifies.wakes call stage
    simpa [notifyOne, stage] using wakes
  | idle | called | locking | announcing | consuming | waiting | woken | checking | leaving =>
    have misses : Notifies s s := .misses (by simp [stage])
    simpa [notifyOne, stage] using misses

theorem Notifies.fields (notified : Notifies s t) :
    t.state = s.state ∧ t.mutex = s.mutex ∧ t.unparkers = s.unparkers := by
  cases notified <;> exact ⟨rfl, rfl, rfl⟩

theorem Notifies.sound (notified : Notifies s t) (sound : Sound s) : Sound t := by
  cases notified with
  | misses => exact sound
  | wakes call stage =>
    have parking := sound.parking
    have fits := sound.fits
    rw [stage] at parking fits
    exact
      { parking := parking
        unparking := sound.unparking
        fits := fits
        before := by simp
        reached := by simp }

variable [DecidableEq I]

inductive UnparkerMoves (s : ParkThread I) (i : I) : Option Event → ParkThread I → Prop where
  | sets : s.unparkers i = .called → s.state = EMPTY ∨ s.state = NOTIFIED →
      UnparkerMoves s i (some .unparked) ({ s with state := NOTIFIED }.setUnparker i .idle)
  | meets : s.unparkers i = .called → s.state = PARKED →
      UnparkerMoves s i (some .unparked) ({ s with state := NOTIFIED }.setUnparker i .locking)
  | locks : s.unparkers i = .locking → s.mutex = none →
      UnparkerMoves s i none ({ s with mutex := some (some i) }.setUnparker i .unlocking)
  | unlocks : s.unparkers i = .unlocking →
      UnparkerMoves s i none ({ s with mutex := none }.setUnparker i .notifying)
  | notifies (u : ParkThread I) : s.unparkers i = .notifying → Notifies s u →
      UnparkerMoves s i none (u.setUnparker i .idle)

theorem Parker.Fits.cases {state : Nat} {parker : Parker} (fits : parker.Fits state) :
    (state = EMPTY ∨ state = NOTIFIED) ∨ state = PARKED := by
  cases parker <;> simp only [Parker.Fits] at fits <;> omega

theorem stepUnparker_moves (sound : Sound s) (can : s.allowed (.stepUnparker i) = true) :
    ∃ e t, s.stepUnparker i = .ok (e, t) ∧ UnparkerMoves s i e t := by
  cases stage : s.unparkers i with
  | idle => simp [allowed, stage] at can
  | called =>
    rcases sound.fits.cases with there | parked
    · exact ⟨_, _, by simp [stepUnparker, stage, there], .sets stage there⟩
    · exact ⟨_, _, by simp [stepUnparker, stage, parked, EMPTY, PARKED, NOTIFIED], .meets stage parked⟩
  | locking => exact ⟨_, _, by simp [stepUnparker, stage], .locks stage (by simpa [allowed, stage] using can)⟩
  | unlocking => exact ⟨_, _, by simp [stepUnparker, stage], .unlocks stage⟩
  | notifying =>
    exact ⟨_, _, by simp [stepUnparker, stage], .notifies s.notifyOne stage (notifyOne_notifies s)⟩

inductive Moves (s : ParkThread I) : ParkThreadAction I → Option Event → ParkThread I → Prop where
  | park (call : Call) : s.parker = .idle → Moves s (.park call) none { s with parker := .called call }
  | stepParker (e : Option Event) (t : ParkThread I) : ParkerMoves s e t → Moves s .stepParker e t
  | wakeup (t : ParkThread I) : Notifies s t → Moves s .wakeup none t
  | unpark (i : I) : s.unparkers i = .idle → Moves s (.unpark i) none (s.setUnparker i .called)
  | stepUnparker (i : I) (e : Option Event) (t : ParkThread I) : UnparkerMoves s i e t → Moves s (.stepUnparker i) e t
  | shutdown (t : ParkThread I) : Notifies s t → Moves s .shutdown none t

theorem perform_moves (sound : Sound s) {a : ParkThreadAction I} (can : s.allowed a = true) :
    ∃ e t, s.perform a = .ok (e, t) ∧ Moves s a e t := by
  cases a with
  | park call => exact ⟨_, _, rfl, .park call (by simpa [allowed] using can)⟩
  | stepParker =>
    obtain ⟨e, t, performed, moves⟩ := stepParker_moves sound can
    exact ⟨e, t, performed, .stepParker e t moves⟩
  | wakeup => exact ⟨_, _, rfl, .wakeup _ (notifyOne_notifies s)⟩
  | unpark i => exact ⟨_, _, rfl, .unpark i (by simpa [allowed] using can)⟩
  | stepUnparker i =>
    obtain ⟨e, t, performed, moves⟩ := stepUnparker_moves sound can
    exact ⟨e, t, performed, .stepUnparker i e t moves⟩
  | shutdown => exact ⟨_, _, rfl, .shutdown _ (notifyOne_notifies s)⟩

end Notifying

section Invariant

theorem Sound.others (sound : Sound s) (held : s.parker.holds = true) (i : I) : (s.unparkers i).holds = false := by
  cases holds : (s.unparkers i).holds with
  | false => rfl
  | true =>
    have first := sound.parking.mpr held
    simp [(sound.unparking i).mpr holds] at first

theorem ParkerMoves.sound (moves : ParkerMoves s e t) (sound : Sound s) : Sound t := by
  have parking := sound.parking
  cases moves with
  | takes call stage state =>
    rw [stage] at parking
    exact ⟨parking, sound.unparking, .inl rfl, by simp, by simp⟩
  | skips stage state | prepares call stage state =>
    rw [stage] at parking
    exact ⟨parking, sound.unparking, .inl state, by simp, by simp⟩
  | locks call stage free =>
    have fits := sound.fits
    rw [stage] at fits
    have others := (sound.free free).2
    exact ⟨by simp [Parker.holds], fun i => by simp [others i], fits, by simp, by simp⟩
  | announces call stage state =>
    rw [stage] at parking
    exact ⟨parking, sound.unparking, .inl rfl, by simp [PARKED, NOTIFIED], by simp⟩
  | meets call stage state =>
    rw [stage] at parking
    exact ⟨parking, sound.unparking, state, by simp, by simp⟩
  | consumes call stage | finds call stage | expires dur stage =>
    rw [stage] at parking
    exact ⟨parking, sound.unparking, .inl rfl, by simp, by simp⟩
  | sleeps call stage =>
    have fits := sound.fits
    rw [stage] at fits
    have others := sound.others (by rw [stage]; rfl)
    refine ⟨by simp [Parker.holds], fun i => by simp [others i], fits, by simp, ?_⟩
    rintro _ _ state
    obtain ⟨i, locking⟩ := sound.before call stage state
    exact ⟨i, by rw [locking]; rfl⟩
  | relocks call stage free =>
    have fits := sound.fits
    rw [stage] at fits
    have others := (sound.free free).2
    exact ⟨by simp [Parker.holds], fun i => by simp [others i], fits, by simp, by simp⟩
  | returns stage state =>
    rw [stage] at parking
    exact ⟨parking, sound.unparking, .inl state, by simp [state, PARKED, NOTIFIED], by simp⟩
  | leaves stage =>
    have fits := sound.fits
    rw [stage] at fits
    have others := sound.others (by rw [stage]; rfl)
    exact ⟨by simp [Parker.holds], fun i => by simp [others i], fits, by simp, by simp⟩

theorem Parker.fits_notified (parker : Parker) : parker.Fits NOTIFIED := by
  cases parker <;> simp [Parker.Fits]

variable [DecidableEq I]

theorem Sound.unparking_set (sound : Sound s) {unparker : Unparker} (same : unparker.holds = (s.unparkers i).holds)
    (k : I) : s.mutex = some (some k) ↔ ((s.setUnparker i unparker).unparkers k).holds = true := by
  rw [sound.unparking k, setUnparker_unparkers]
  split
  next own => rw [own, same]
  next => rfl

theorem stays_set {P : Unparker → Prop} {unparker : Unparker} (there : ∃ k, P (s.unparkers k))
    (leaves : ¬ P (s.unparkers i)) : ∃ k, P ((s.setUnparker i unparker).unparkers k) := by
  obtain ⟨k, at_k⟩ := there
  have other : k ≠ i := by
    rintro rfl
    exact leaves at_k
  exact ⟨k, by simpa [setUnparker_unparkers, other] using at_k⟩

theorem UnparkerMoves.sound (moves : UnparkerMoves s i e t) (sound : Sound s) : Sound t := by
  cases moves with
  | sets stage state =>
    have same : Unparker.idle.holds = (s.unparkers i).holds := by rw [stage]; rfl
    refine ⟨sound.parking, sound.unparking_set same, s.parker.fits_notified, ?_, ?_⟩
    · intro call there _
      have fits := sound.fits
      rw [show s.parker = .waiting call from there] at fits
      have notified : s.state = NOTIFIED := by
        simp only [Parker.Fits, EMPTY, PARKED, NOTIFIED] at fits state ⊢
        omega
      exact stays_set (P := (· = .locking)) (sound.before call there notified) (by simp [stage])
    · intro call there _
      have fits := sound.fits
      rw [show s.parker = .asleep call from there] at fits
      have notified : s.state = NOTIFIED := by
        simp only [Parker.Fits, EMPTY, PARKED, NOTIFIED] at fits state ⊢
        omega
      exact stays_set (P := (·.notifies = true)) (sound.reached call there notified) (by simp [stage, Unparker.notifies])
  | meets stage state =>
    have same : Unparker.locking.holds = (s.unparkers i).holds := by rw [stage]; rfl
    refine ⟨sound.parking, sound.unparking_set same, s.parker.fits_notified, ?_, ?_⟩
    · intro call _ _
      exact ⟨i, by simp [setUnparker_unparkers]⟩
    · intro call _ _
      exact ⟨i, by simp [setUnparker_unparkers, Unparker.notifies]⟩
  | locks stage free =>
    obtain ⟨parker, others⟩ := sound.free free
    refine ⟨by simp [parker], fun k => ?_, sound.fits, ?_, ?_⟩
    · by_cases own : k = i
      · simp [setUnparker_unparkers, own, Unparker.holds]
      · simp [setUnparker_unparkers, own, others k, Ne.symm own]
    · intro call there
      rw [show s.parker = .waiting call from there] at parker
      cases parker
    · intro call _ _
      exact ⟨i, by simp [setUnparker_unparkers, Unparker.notifies]⟩
  | unlocks stage =>
    obtain ⟨parker, others⟩ := sound.alone (i := i) (by rw [stage]; rfl)
    refine ⟨by simp [parker], fun k => ?_, sound.fits, ?_, ?_⟩
    · by_cases own : k = i
      · simp [setUnparker_unparkers, own, Unparker.holds]
      · have away : (s.unparkers k).holds = false := by
          cases holds : (s.unparkers k).holds with
          | false => rfl
          | true => exact absurd (others k holds) own
        simp [setUnparker_unparkers, own, away]
    · intro call there
      rw [show s.parker = .waiting call from there] at parker
      cases parker
    · intro call _ _
      exact ⟨i, by simp [setUnparker_unparkers, Unparker.notifies]⟩
  | notifies u stage notified =>
    have sound' := notified.sound sound
    have stage' : u.unparkers i = .notifying := by rw [notified.fields.2.2, stage]
    have same : Unparker.idle.holds = (u.unparkers i).holds := by rw [stage']; rfl
    refine ⟨sound'.parking, sound'.unparking_set same, sound'.fits, ?_, ?_⟩
    · intro call there state
      exact stays_set (P := (· = .locking)) (sound'.before call there state) (by simp [stage'])
    · intro call there
      cases notified with
      | wakes => simp at there
      | misses awake => exact absurd there (awake call)

theorem Moves.sound {a : ParkThreadAction I} (moves : Moves s a e t) (sound : Sound s) : Sound t := by
  cases moves with
  | park call idle =>
    have parking := sound.parking
    have fits := sound.fits
    rw [idle] at parking fits
    exact ⟨parking, sound.unparking, fits, by simp, by simp⟩
  | stepParker _ _ moves => exact moves.sound sound
  | wakeup _ notified | shutdown _ notified => exact notified.sound sound
  | unpark i idle =>
    have same : Unparker.called.holds = (s.unparkers i).holds := by rw [idle]; rfl
    refine ⟨sound.parking, sound.unparking_set same, sound.fits, ?_, ?_⟩
    · intro call there state
      exact stays_set (P := (· = .locking)) (sound.before call there state) (by simp [idle])
    · intro call there state
      exact stays_set (P := (·.notifies = true)) (sound.reached call there state) (by simp [idle, Unparker.notifies])
  | stepUnparker i _ _ moves => exact moves.sound sound

theorem step_moves (sound : Sound s) {a : ParkThreadAction I} (stepped : s.step a = .next t) :
    ∃ e, s.perform a = .ok (e, t) ∧ Moves s a e t := by
  unfold step at stepped
  split at stepped
  next can =>
    obtain ⟨e, u, performed, moves⟩ := perform_moves sound can
    obtain rfl : u = t := by simpa [performed] using stepped
    exact ⟨e, performed, moves⟩
  next => simp at stepped

/-- No panic of `park/thread.rs` is reached. -/
theorem step_kept (sound : Sound s) (a : ParkThreadAction I) : (s.step a).Kept Sound := by
  unfold step
  split
  next can =>
    obtain ⟨e, t, performed, moves⟩ := perform_moves sound can
    simpa [performed, Outcome.Kept] using moves.sound sound
  next => trivial

theorem reachable_sound (reached : (machine I).Reachable s) : Sound s := by
  refine reached.invariant (P := Sound) ?_ fun s a sound _ => step_kept sound a
  rintro s rfl
  exact new_sound

end Invariant

end Osaka.ParkThread
