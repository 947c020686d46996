import Osaka.Sync.AtomicWakerPlaces

set_option autoImplicit false

namespace Osaka.Sync.AtomicWaker

open Transitions

variable {I : Type} {s t : AtomicWaker I} {j : Journal I}

section Invariants

def Finished (s : AtomicWaker I) (call : Waker) : Prop :=
  call ≠ 0 ∧ (call < s.calls ∨ call = s.calls ∧ s.register = .idle)

/-- A call that has met a wake has woken its waker itself, and one that has not has left it in the cell. -/
def Settled (j : Journal I) (call : Waker) : Prop :=
  j.place call = .panicked ∨ call ∈ j.met ∧ j.place call = .woken none ∨ call ∉ j.met ∧ call ∈ j.left

def Register.Staged (state : State) (left met : Prop) : Register → Prop
  | .idle => True
  | .called _ => ¬met
  | .cloning _ | .taking _ | .putting _ _ | .releasing _ _ => met ↔ state = REGISTERING ||| WAKING
  | .dropping maybePanic _ => ¬met ∧ (maybePanic = false → left)
  | .retaking _ _ | .swapping _ _ _ | .wakingOld _ _ _ | .wakingNew _ _ | .wakingSelf _ => met

structure Kept (s : AtomicWaker I) (j : Journal I) : Prop where
  placed : ∀ waker, At s waker (j.place waker)
  counted : s.register ≠ .idle → s.calls ≠ 0
  older : ∀ waker, s.register.oldWaker = some waker → waker ≠ s.calls
  panicked : s.register ≠ .idle → (j.place s.calls = .panicked ↔ s.register.maybePanic = true)
  replaced : ∀ waker later, j.place waker = .replaced later → waker < later ∧ later ∈ j.left
  left : ∀ call ∈ j.left, j.place call ≠ .offered ∧ j.place call ≠ .panicked
  early : ∀ call ∈ j.met, call ≤ s.calls
  staged : s.register.Staged s.state (s.calls ∈ j.left) (s.calls ∈ j.met)
  settled : ∀ call, s.Finished call → Settled j call
  returned : ∀ call ∈ j.returned, s.Finished call ∧ j.place call ≠ .panicked

theorem new_at (waker : Waker) : At (new : AtomicWaker I) waker .offered where
  cell := by simp [new]
  taken party := by cases party <;> simp [new, hand, Register.hand, Wake.hand]
  offered := by
    simp only [new, Offers, true_iff]
    exact (Nat.eq_zero_or_pos waker).imp_right .inl

theorem new_kept : Kept (new : AtomicWaker I) .first := by
  constructor
  case placed => exact new_at
  all_goals simp [new, Journal.first, Register.oldWaker, Register.Staged, Finished]

theorem Kept.before (kept : Kept s j) (waker : Waker) (old : s.register.oldWaker = some waker) :
    waker ≠ 0 ∧ waker < s.calls := by
  have held : waker ∈ s.hand none := by
    cases stage : s.register <;> simp_all [Register.oldWaker, hand, Register.hand]
  have fits := kept.placed waker
  have taken := (fits.taken none).mpr held
  have given : ¬s.Offers waker := by
    rw [← fits.offered, taken]
    simp
  have other := kept.older waker old
  simp only [Offers, not_or] at given
  exact ⟨given.1, Nat.lt_of_le_of_ne (Nat.le_of_not_lt given.2.1) other⟩

theorem Kept.given (kept : Kept s j) (i : I) : ∀ waker ∈ (s.wakes i).hand, ¬s.Offers waker := by
  intro waker held
  have fits := kept.placed waker
  rw [← fits.offered, (fits.taken (some i)).mpr held]
  simp

theorem Kept.finished_given (kept : Kept s j) {call : Waker} (finished : s.Finished call) :
    j.place call ≠ .offered := by
  intro offered
  obtain ⟨given, finished⟩ := finished
  rcases (kept.placed call).offered.mp offered with zero | ahead | ⟨last, offers⟩
  · exact given zero
  · rcases finished with before | ⟨last, _⟩
    · exact Nat.lt_asymm ahead before
    · exact absurd last (Nat.ne_of_gt ahead)
  · rcases finished with before | ⟨_, idle⟩
    · exact absurd last (Nat.ne_of_lt before)
    · rw [idle] at offers
      cases offers

end Invariants

section Places

variable {party : Option I} {e : Effect} {waker : Waker} {place after : Place I}

theorem Goes.given (goes : Goes s party e waker place after) (offered : place ≠ .offered)
    (panicked : place ≠ .panicked) : after ≠ .offered ∧ after ≠ .panicked := by
  cases goes with
  | stays => exact ⟨offered, panicked⟩
  | put | panicked | wokenSelf => exact absurd rfl offered
  | taken | woken | dropped => simp

theorem Goes.panicked_iff (goes : Goes s party e waker place after) (calm : e.panicked = false) :
    after = .panicked ↔ place = .panicked := by
  cases goes with
  | stays => exact .rfl
  | panicked own panics =>
    rw [panics] at calm
    cases calm
  | put | taken | woken | wokenSelf | dropped => simp

end Places

section Steps

variable {a : AtomicWakerAction I} {e : Effect}

theorem left_after (call : Waker) : call ∈ (j.after s a e t).left ↔
    call ∈ j.left ∨ call = s.calls ∧ s.state ≠ WAITING ∧ t.state = WAITING ∧ t.waker = some s.calls := by
  simp only [Journal.after]
  split <;> grind

theorem met_after (call : Waker) :
    call ∈ (j.after s a e t).met ↔ call ∈ j.met ∨ call = s.calls ∧ s.meets a = true := by
  simp only [Journal.after]
  split <;> grind

theorem returned_after (call : Waker) : call ∈ (j.after s a e t).returned ↔
    call ∈ j.returned ∨ call = s.calls ∧ a.party = none ∧ e.ended = some .returned := by
  simp only [Journal.after]
  split <;> grind

variable [DecidableEq I]

theorem Kept.follows (kept : Kept s j) (sound : Sound s) (moves : Moves s a e t) (waker : Waker) :
    Goes s a.party e waker (j.place waker) ((j.after s a e t).place waker) ∧
      At t waker ((j.after s a e t).place waker) :=
  (moves.moved sound kept.counted kept.before kept.given waker).follows moves.others (kept.placed waker)

theorem Kept.panicked_after (kept : Kept s j) (sound : Sound s) (moves : Moves s a e t) (busy : t.register ≠ .idle) :
    (j.after s a e t).place t.calls = .panicked ↔ t.register.maybePanic = true := by
  obtain ⟨goes, fits⟩ := kept.follows sound moves t.calls
  have before := kept.panicked
  -- into_waker has not panicked while the waker is still offered.
  have new (offers : t.register.offers = true) (calm : t.register.maybePanic = false) :
      (j.after s a e t).place t.calls = .panicked ↔ t.register.maybePanic = true := by
    rw [fits.offered.mpr (.inr (.inr ⟨rfl, offers⟩)), calm]
    simp
  cases moves with
  | register idle => exact new rfl rfl
  | stepRegister panics moves =>
    cases moves with
    | locks | meets | clones | takes => exact new rfl rfl
    | panics => simp [Journal.after, Place.after, Effect.none, Register.maybePanic]
    | puts =>
      rw [fits.cell.mpr rfl]
      simp [Register.maybePanic]
    | releases _ _ stage | fails _ _ stage | retakes _ _ stage | swaps _ stage | swapsBack _ stage
    | wakesOld _ _ _ stage =>
      rw [stage] at before
      exact (goes.panicked_iff rfl).trans (before (by simp))
    | drops | wakesNew | resumes | wakesSelf => exact absurd rfl busy
  | wake i idle => exact (goes.panicked_iff rfl).trans (before busy)
  | stepWake i panics moves =>
    have calm : e.panicked = false := by cases moves <;> rfl
    rw [moves.register] at busy ⊢
    rw [moves.calls] at goes ⊢
    exact (goes.panicked_iff calm).trans (before busy)

theorem Kept.older_after (kept : Kept s j) (moves : Moves s a e t) (waker : Waker)
    (old : t.register.oldWaker = some waker) : waker ≠ t.calls := by
  have older := kept.older
  cases moves with
  | register idle => cases old
  | stepRegister panics moves =>
    cases moves with
    | locks | meets | clones | panics | drops | wakesOld | wakesNew | resumes | wakesSelf => cases old
    | takes stage =>
      rintro rfl
      have fits := kept.placed s.calls
      have inside := fits.cell.mpr old
      rw [fits.offered.mpr (.inr (.inr ⟨rfl, by rw [stage]; rfl⟩))] at inside
      cases inside
    | puts _ stage | releases _ _ stage | fails _ _ stage | retakes _ _ stage | swaps _ stage =>
      rw [stage] at older
      exact older waker old
    | swapsBack newWaker stage =>
      rintro rfl
      obtain rfl : newWaker = some s.calls := old
      have held := ((kept.placed s.calls).taken none).mpr (by simp [hand, stage, Register.hand])
      rw [(kept.panicked (by simp [stage])).mpr (by rw [stage]; rfl)] at held
      cases held
  | wake i idle => exact older waker old
  | stepWake i panics moves =>
    rw [moves.register] at old
    rw [moves.calls]
    exact older waker old

theorem Moves.drops {waker : Waker} (moves : Moves s a e t) (dropped : e.dropped = some waker) :
    ∃ maybePanic, s.register = .dropping maybePanic (some waker) := by
  cases moves with
  | register | wake => cases dropped
  | stepRegister panics moves =>
    cases moves with
    | drops maybePanic oldWaker stage =>
      obtain rfl : oldWaker = some waker := dropped
      exact ⟨maybePanic, stage⟩
    | _ => cases dropped
  | stepWake i panics moves =>
    cases moves <;> cases dropped

theorem Kept.replaced_after (kept : Kept s j) (sound : Sound s) (moves : Moves s a e t) (waker later : Waker)
    (replaced : (j.after s a e t).place waker = .replaced later) :
    waker < later ∧ later ∈ (j.after s a e t).left := by
  have goes := (kept.follows sound moves waker).1
  rw [replaced] at goes
  generalize earlier : j.place waker = place at goes
  cases goes with
  | stays =>
    obtain ⟨before, left⟩ := kept.replaced waker later earlier
    exact ⟨before, (left_after later).mpr (.inl left)⟩
  | dropped drops =>
    obtain ⟨maybePanic, stage⟩ := moves.drops drops
    have before := (kept.before waker (by rw [stage]; rfl)).2
    have shaped := sound.shaped
    have staged := kept.staged
    rw [stage] at shaped staged
    cases maybePanic with
    | true => cases shaped rfl
    | false => exact ⟨before, (left_after s.calls).mpr (.inl (staged.2 rfl))⟩

theorem Moves.calls (moves : Moves s a e t) : s.calls ≤ t.calls := by
  cases moves with
  | register => exact Nat.le_succ s.calls
  | stepRegister panics moves => exact Nat.le_of_eq moves.calls.symm
  | wake => exact Nat.le_refl s.calls
  | stepWake i panics moves => exact Nat.le_of_eq moves.calls.symm

theorem Kept.left_given (kept : Kept s j) (sound : Sound s) (moves : Moves s a e t) (call : Waker)
    (left : call ∈ (j.after s a e t).left) :
    (j.after s a e t).place call ≠ .offered ∧ (j.after s a e t).place call ≠ .panicked := by
  obtain ⟨goes, fits⟩ := kept.follows sound moves call
  rcases (left_after call).mp left with before | ⟨rfl, _, _, inside⟩
  · obtain ⟨offered, panicked⟩ := kept.left call before
    exact goes.given offered panicked
  · rw [fits.cell.mpr inside]
    simp

theorem Kept.early_after (kept : Kept s j) (moves : Moves s a e t) (call : Waker)
    (met : call ∈ (j.after s a e t).met) : call ≤ t.calls := by
  rcases (met_after call).mp met with before | ⟨rfl, _⟩
  · exact Nat.le_trans (kept.early call before) moves.calls
  · exact moves.calls

theorem Register.Staged.next {register : Register} {state state' : State} {left left' met met' : Prop}
    (staged : register.Staged state left met) (more : left → left') (same : met' ↔ met)
    (bits : register.holds = true → state' = state) : register.Staged state' left' met' := by
  rw [← same] at staged
  cases register with
  | idle | called | retaking | swapping | wakingOld | wakingNew | wakingSelf => exact staged
  | cloning | taking | putting | releasing =>
    rw [bits rfl]
    exact staged
  | dropping => exact ⟨staged.1, fun whole => more (staged.2 whole)⟩

theorem Kept.staged_after (kept : Kept s j) (sound : Sound s) (moves : Moves s a e t) :
    t.register.Staged t.state (t.calls ∈ (j.after s a e t).left) (t.calls ∈ (j.after s a e t).met) := by
  have staged := kept.staged
  have shaped := sound.shaped
  simp only [left_after, met_after]
  cases moves with
  | register idle =>
    rintro (early | ⟨early, _⟩)
    · exact Nat.not_succ_le_self s.calls (kept.early (s.calls + 1) early)
    · exact Nat.succ_ne_self s.calls early
  | stepRegister panics moves =>
    cases moves with
    | locks stage state =>
      rw [stage] at staged
      have early : s.meets (.stepRegister panics) = false := by simp [meets, state, WAITING, WAKING]
      have unmet : s.calls ∉ j.met := staged
      simp [Register.Staged, unmet, early, REGISTERING, WAKING]
    | meets stage state => simp [Register.Staged, meets, stage, state]
    | releases maybePanic oldWaker stage state =>
      rw [stage] at staged shaped
      have unmet : s.calls ∉ j.met := by
        intro met
        rw [staged.mp met] at state
        cases state
      have inside (whole : maybePanic = false) : s.waker = some s.calls := by
        simpa [Register.Shaped, whole] using shaped
      refine ⟨by simp [unmet, meets, stage], fun whole => .inr ⟨rfl, ?_, rfl, inside whole⟩⟩
      rw [state]
      decide
    | clones stage | panics stage | takes stage | puts _ stage =>
      rw [stage] at staged
      simpa [Register.Staged, meets, stage] using staged
    | fails _ _ stage state =>
      rw [stage] at staged
      exact .inl (staged.mpr state)
    | retakes _ _ stage | swaps _ stage | swapsBack _ stage | wakesOld _ _ _ stage =>
      rw [stage] at staged
      exact .inl staged
    | drops | wakesNew | resumes | wakesSelf => trivial
  | wake i idle => exact staged.next .inl (by simp [meets]) (fun _ => rfl)
  | stepWake i panics moves =>
    cases moves with
    | delegates stage state held =>
      have meets : s.meets (.stepWake i panics) = true := by
        rcases state with state | state <;> simp [AtomicWaker.meets, stage, state, REGISTERING, WAKING]
      cases register : s.register with
      | idle | called | dropping | wakingOld | wakingNew | wakingSelf =>
        rw [register] at held
        cases held
      | cloning | taking | putting | releasing | retaking | swapping => simp [Register.Staged, meets]
    | locks stage state idle =>
      exact staged.next .inl (by simp [meets, state, WAITING, REGISTERING]) (by simp [idle])
    | leaves _ stage state =>
      exact staged.next .inl (by simp [meets, state, WAKING, REGISTERING]) (fun _ => state.symm)
    | takes stage | wakes _ _ stage => exact staged.next .inl (by simp [meets, stage]) (fun _ => rfl)
    | releases _ stage | releasesEmpty stage =>
      have idle := (sound.locked.of_wake (i := i) (by rw [stage]; rfl)).2.1
      exact staged.next .inl (by simp [meets, stage]) (by simp [idle])

/-- Whoever meets the other kind of party does so during a call of `register`. -/
theorem Moves.meets_busy (moves : Moves s a e t) (meets : s.meets a = true) : s.register ≠ .idle := by
  intro idle
  cases moves with
  | register | wake => cases meets
  | stepRegister panics moves => exact moves.busy idle
  | stepWake i panics moves =>
    cases moves with
    | delegates stage state held =>
      rw [idle] at held
      cases held
    | locks _ state | leaves _ _ state => simp [AtomicWaker.meets, state, WAITING, WAKING, REGISTERING] at meets
    | takes stage | releases _ stage | releasesEmpty stage | wakes _ _ stage =>
      simp [AtomicWaker.meets, stage] at meets

theorem Moves.finished_mono (moves : Moves s a e t) {call : Waker} (finished : s.Finished call) : t.Finished call := by
  obtain ⟨given, before | ⟨last, idle⟩⟩ := finished
  · exact ⟨given, .inl (Nat.lt_of_lt_of_le before moves.calls)⟩
  · refine ⟨given, ?_⟩
    cases moves with
    | register => exact .inl (last ▸ Nat.lt_succ_self s.calls)
    | stepRegister panics moves => exact absurd idle moves.busy
    | wake => exact .inr ⟨last, idle⟩
    | stepWake i panics moves => exact .inr ⟨last.trans moves.calls.symm, moves.register.trans idle⟩

theorem Moves.finishes (moves : Moves s a e t) {call : Waker} (finished : t.Finished call) :
    s.Finished call ∨ call = s.calls ∧ RegisterMoves s e t ∧ t.register = .idle := by
  obtain ⟨given, finished⟩ := finished
  cases moves with
  | register idle =>
    rcases finished with before | ⟨_, busy⟩
    · exact .inl ⟨given, (Nat.lt_or_eq_of_le (Nat.le_of_lt_succ before)).imp_right fun last => ⟨last, idle⟩⟩
    · cases busy
  | stepRegister panics moves =>
    rw [moves.calls] at finished
    rcases finished with before | ⟨last, idle⟩
    · exact .inl ⟨given, .inl before⟩
    · exact .inr ⟨last, moves, idle⟩
  | wake => exact .inl ⟨given, finished⟩
  | stepWake i panics moves =>
    rw [moves.calls, moves.register] at finished
    exact .inl ⟨given, finished⟩

theorem Kept.settled_keeps (kept : Kept s j) (sound : Sound s) (moves : Moves s a e t) {call : Waker}
    (finished : s.Finished call) : Settled (j.after s a e t) call := by
  have goes := (kept.follows sound moves call).1
  have settled := kept.settled call finished
  have met : call ∈ (j.after s a e t).met ↔ call ∈ j.met := by
    rw [met_after]
    refine or_iff_left ?_
    rintro ⟨last, meets⟩
    obtain ⟨_, before | ⟨_, idle⟩⟩ := finished
    · exact absurd last (Nat.ne_of_lt before)
    · exact moves.meets_busy meets idle
  unfold Settled at settled ⊢
  rw [met, left_after]
  generalize j.place call = place at goes settled
  generalize (j.after s a e t).place call = after at goes ⊢
  rcases settled with rfl | ⟨here, rfl⟩ | ⟨away, left⟩
  · cases goes
    exact .inl rfl
  · cases goes
    exact .inr (.inl ⟨here, rfl⟩)
  · exact .inr (.inr ⟨away, .inl left⟩)

theorem Kept.settled_after (kept : Kept s j) (sound : Sound s) (moves : Moves s a e t) (call : Waker)
    (finished : t.Finished call) : Settled (j.after s a e t) call := by
  rcases moves.finishes finished with before | ⟨rfl, own, idle⟩
  · exact kept.settled_keeps sound moves before
  · have staged := kept.staged
    have panicked := kept.panicked own.busy
    have goes := (kept.follows sound moves s.calls).1
    unfold Settled
    rw [met_after, left_after]
    cases moves with
    | register busy => cases idle
    | wake i asleep => exact absurd idle own.busy
    | stepWake i panics moves => exact absurd (moves.register.symm.trans idle) own.busy
    | stepRegister panics moves =>
      cases moves with
      | locks | meets | clones | panics | takes | puts | releases | fails | retakes | swaps | swapsBack | wakesOld =>
        cases idle
      | drops maybePanic oldWaker stage =>
        rw [stage] at staged panicked
        cases maybePanic with
        | true => exact .inl ((goes.panicked_iff rfl).mpr (panicked.mpr rfl))
        | false => exact .inr (.inr ⟨by simp [staged.1, meets, stage], .inl (staged.2 rfl)⟩)
      | resumes stage =>
        rw [stage] at panicked
        exact .inl ((goes.panicked_iff rfl).mpr (panicked.mpr rfl))
      | wakesNew ended stage | wakesSelf ended stage =>
        rw [stage] at staged
        exact .inr (.inl ⟨.inl staged, by simp [Journal.after, Place.after, AtomicWakerAction.party]⟩)

theorem Kept.returned_next (kept : Kept s j) (sound : Sound s) (moves : Moves s a e t) (call : Waker)
    (returned : call ∈ (j.after s a e t).returned) :
    t.Finished call ∧ (j.after s a e t).place call ≠ .panicked := by
  have goes := (kept.follows sound moves call).1
  rcases (returned_after call).mp returned with before | ⟨rfl, own, ended⟩
  · obtain ⟨finished, panicked⟩ := kept.returned call before
    exact ⟨moves.finished_mono finished, (goes.given (kept.finished_given finished) panicked).2⟩
  · cases moves with
    | register | wake => cases ended
    | stepWake => cases own
    | stepRegister panics moves =>
      have counted := kept.counted moves.busy
      have panicked := kept.panicked moves.busy
      cases moves with
      | locks | meets | clones | panics | takes | puts | releases | fails | retakes | swaps | swapsBack | wakesOld
      | resumes => cases ended
      | drops maybePanic oldWaker stage =>
        rw [stage] at panicked
        refine ⟨⟨counted, .inr ⟨rfl, rfl⟩⟩, ?_⟩
        rw [Ne, goes.panicked_iff rfl, panicked]
        cases maybePanic with
        | true => cases ended
        | false => simp [Register.maybePanic]
      | wakesNew | wakesSelf =>
        exact ⟨⟨counted, .inr ⟨rfl, rfl⟩⟩, by simp [Journal.after, Place.after]⟩

theorem Kept.next (kept : Kept s j) (sound : Sound s) (moves : Moves s a e t) : Kept t (j.after s a e t) where
  placed waker := (kept.follows sound moves waker).2
  counted busy := by
    cases moves with
    | register => exact Nat.succ_ne_zero s.calls
    | stepRegister panics moves =>
      rw [moves.calls]
      exact kept.counted moves.busy
    | wake => exact kept.counted busy
    | stepWake i panics moves =>
      rw [moves.calls]
      exact kept.counted (moves.register ▸ busy)
  older := kept.older_after moves
  panicked := kept.panicked_after sound moves
  replaced := kept.replaced_after sound moves
  left := kept.left_given sound moves
  early := kept.early_after moves
  staged := kept.staged_after sound moves
  settled := kept.settled_after sound moves
  returned := kept.returned_next sound moves

theorem observe_moves (sound : Sound s) (stepped : s.step a = .next t) :
    ∃ e, Moves s a e t ∧ j.observe s a t = j.after s a e t := by
  obtain ⟨e, performed, moves⟩ := step_moves sound stepped
  exact ⟨e, moves, by simp [Journal.observe, performed]⟩

theorem reachable_kept (reached : (journaled I).Reachable (s, j)) : Kept s j := by
  apply System.Reachable.watched (P := Kept) _ _ reached
  · rintro s rfl
    exact new_kept
  · intro s j a t reached kept _ stepped
    have sound := reachable_sound reached
    obtain ⟨e, moves, observed⟩ := observe_moves (j := j) sound stepped
    rw [observed]
    exact kept.next sound moves

end Steps

end Osaka.Sync.AtomicWaker
