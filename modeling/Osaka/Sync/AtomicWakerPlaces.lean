import Osaka.Sync.AtomicWakerSteps

set_option autoImplicit false

namespace Osaka.Sync.AtomicWaker

open Transitions

variable {I : Type}

section Journals

/-- Where the waker that a call of `register` was given is. The registering party goes by `none`. -/
inductive Place (I : Type) where
  -- It has not been put into the cell, and has not been woken.
  | offered
  -- There is no clone of it.
  | panicked
  | cell
  -- It has been taken out of the cell.
  | taken (party : Option I)
  | woken (party : Option I)
  -- It has been dropped by a later call.
  | replaced (later : Waker)
  deriving DecidableEq

structure Journal (I : Type) where
  place : Waker → Place I
  -- the calls whose waker was in the cell when the lock was released
  left : List Waker
  -- the calls that have come while a wake held the lock, or the other way round
  met : List Waker
  returned : List Waker

def Journal.first : Journal I := ⟨fun _ => .offered, [], [], []⟩

def Place.after (place : Place I) (s t : AtomicWaker I) (party : Option I) (e : Effect) (waker : Waker) : Place I :=
  if e.woken = some waker then
    .woken party
  else if e.dropped = some waker then
    .replaced s.calls
  else if e.panicked = true ∧ waker = s.calls then
    .panicked
  else if t.waker = some waker then
    .cell
  else if s.waker = some waker then
    .taken party
  else
    place

variable [DecidableEq I]

/-- A step of one party that finds the lock held by another kind of party. -/
def meets (s : AtomicWaker I) : AtomicWakerAction I → Bool
  | .stepRegister _ => s.register == .called s.calls && s.state &&& WAKING == WAKING
  | .stepWake i _ => s.wakes i == .called && s.state &&& REGISTERING == REGISTERING
  | _ => false

def Journal.after (j : Journal I) (s : AtomicWaker I) (a : AtomicWakerAction I) (e : Effect) (t : AtomicWaker I) :
    Journal I where
  place waker := (j.place waker).after s t a.party e waker
  left := if s.state ≠ WAITING ∧ t.state = WAITING ∧ t.waker = some s.calls then s.calls :: j.left else j.left
  met := if s.meets a then s.calls :: j.met else j.met
  returned := if a.party = none ∧ e.ended = some .returned then s.calls :: j.returned else j.returned

def Journal.observe (j : Journal I) (s : AtomicWaker I) (a : AtomicWakerAction I) (t : AtomicWaker I) : Journal I :=
  match s.perform a with
  | .error _ => j
  | .ok (e, _) => j.after s a e t

def journaled (I : Type) [DecidableEq I] : System (AtomicWaker I × Journal I) (AtomicWakerAction I) Fault :=
  (machine I).observed .first Journal.observe

instance : DecidablePred (journaled I).within := fun _ => inferInstanceAs (Decidable True)

end Journals

section Hands

def Register.hand : Register → List Waker
  | .putting _ oldWaker | .releasing _ oldWaker | .dropping _ oldWaker | .retaking _ oldWaker => oldWaker.toList
  | .swapping _ oldWaker waker | .wakingOld _ oldWaker waker => oldWaker.toList ++ waker.toList
  | .wakingNew _ waker => waker.toList
  | _ => []

def Wake.hand : Wake → List Waker
  | .releasing waker => waker.toList
  | .waking waker => [waker]
  | _ => []

/-- What a party has taken out of the cell, and has not woken or dropped yet. -/
def hand (s : AtomicWaker I) : Option I → List Waker
  | none => s.register.hand
  | some i => (s.wakes i).hand

/-- The call has not come to put its waker into the cell, or to wake it. -/
def Register.offers : Register → Bool
  | .called _ | .cloning _ | .taking _ | .putting _ _ | .wakingSelf _ => true
  | _ => false

def Register.maybePanic : Register → Bool
  | .releasing maybePanic _ | .dropping maybePanic _ | .retaking maybePanic _ | .swapping maybePanic _ _
  | .wakingOld maybePanic _ _ | .wakingNew maybePanic _ => maybePanic
  | _ => false

def Register.oldWaker : Register → Option Waker
  | .putting _ oldWaker | .releasing _ oldWaker | .dropping _ oldWaker | .retaking _ oldWaker
  | .swapping _ oldWaker _ | .wakingOld _ oldWaker _ => oldWaker
  | _ => none

-- There is no such call, or it still has its waker to offer.
def Offers (s : AtomicWaker I) (waker : Waker) : Prop :=
  waker = 0 ∨ s.calls < waker ∨ waker = s.calls ∧ s.register.offers = true

end Hands

section Places

inductive Moved (s t : AtomicWaker I) (party : Option I) (e : Effect) (waker : Waker) : Prop where
  | stays : e.woken ≠ some waker → e.dropped ≠ some waker → ¬(e.panicked = true ∧ waker = s.calls) →
      (t.waker = some waker ↔ s.waker = some waker) → (waker ∈ t.hand party ↔ waker ∈ s.hand party) →
      (t.Offers waker ↔ s.Offers waker) → Moved s t party e waker
  | put : e = .none → waker = s.calls → s.Offers waker → t.waker = some waker → t.hand party = s.hand party →
      ¬t.Offers waker → Moved s t party e waker
  | panicked : e = { Effect.none with panicked := true } → waker = s.calls → s.Offers waker → t.waker = s.waker →
      t.hand party = s.hand party → ¬t.Offers waker → Moved s t party e waker
  | taken : e = .none → s.waker = some waker → t.waker = none → waker ∈ t.hand party →
      (t.Offers waker ↔ s.Offers waker) → Moved s t party e waker
  | woken : e.woken = some waker → (waker ∈ s.hand party ∨ s.Offers waker) → t.waker = s.waker →
      waker ∉ t.hand party → ¬t.Offers waker → Moved s t party e waker
  | dropped : e.woken = none → e.dropped = some waker → waker ∈ s.hand party → t.waker = s.waker →
      waker ∉ t.hand party → (t.Offers waker ↔ s.Offers waker) → Moved s t party e waker

variable {s t : AtomicWaker I} {e : Effect} {i : I}

theorem Moved.still {party : Option I} {waker : Waker} {ended : Option Ended}
    (cell : t.waker = some waker ↔ s.waker = some waker) (hand : waker ∈ t.hand party ↔ waker ∈ s.hand party)
    (offers : t.Offers waker ↔ s.Offers waker) : Moved s t party { Effect.none with ended := ended } waker :=
  .stays (by simp [Effect.none]) (by simp [Effect.none]) (by simp [Effect.none]) cell hand offers

theorem RegisterMoves.moved (moves : RegisterMoves s e t) (sound : Sound s) (busy : s.calls ≠ 0)
    (older : ∀ waker, s.register.oldWaker = some waker → waker ≠ 0 ∧ waker < s.calls) (waker : Waker) :
    Moved s t none e waker := by
  have shaped := sound.shaped
  cases moves with
  | locks stage | meets stage | clones stage | releases _ _ stage | fails _ _ stage | swaps _ stage | swapsBack _ stage
  | resumes stage =>
    exact .still .rfl (by simp [hand, stage, Register.hand]) (by simp [Offers, stage, Register.offers])
  | panics stage =>
    by_cases own : waker = s.calls
    · subst own
      exact .panicked rfl rfl (by simp [Offers, stage, Register.offers]) rfl (by simp [hand, stage, Register.hand])
        (by simp [Offers, Register.offers, busy])
    · exact .stays (by simp [Effect.none]) (by simp [Effect.none]) (by simp [own]) .rfl
        (by simp [hand, stage, Register.hand]) (by simp [Offers, own])
  | takes stage | retakes _ _ stage =>
    by_cases inside : s.waker = some waker
    · exact .taken rfl inside rfl (by simp [hand, Register.hand, inside]) (by simp [Offers, stage, Register.offers])
    · exact .still (by simp [inside]) (by simp [hand, stage, Register.hand, inside])
        (by simp [Offers, stage, Register.offers])
  | puts oldWaker stage empty =>
    by_cases own : waker = s.calls
    · subst own
      exact .put rfl rfl (by simp [Offers, stage, Register.offers]) rfl (by simp [hand, stage, Register.hand])
        (by simp [Offers, Register.offers, busy])
    · exact .still (by simp [empty, Ne.symm own]) (by simp [hand, stage, Register.hand]) (by simp [Offers, own])
  | drops maybePanic oldWaker stage =>
    by_cases old : oldWaker = some waker
    · exact .dropped rfl old (by simp [hand, stage, Register.hand, old]) rfl (by simp [hand, Register.hand])
        (by simp [Offers, stage, Register.offers])
    · exact .stays (by simp [Effect.none]) old (by simp [Effect.none]) .rfl
        (by simp [hand, stage, Register.hand, old]) (by simp [Offers, stage, Register.offers])
  | wakesOld maybePanic oldWaker newWaker stage =>
    by_cases old : oldWaker = some waker
    · obtain ⟨given, before⟩ := older waker (by rw [stage]; exact old)
      rw [stage] at shaped
      obtain rfl : newWaker = if maybePanic then none else some s.calls := shaped
      have other : waker ∉ (if maybePanic then none else some s.calls : Option Waker) := by
        cases maybePanic <;> simp [Nat.ne_of_gt before]
      refine .woken old (.inl (by simp [hand, stage, Register.hand, old])) rfl ?_ ?_
      · simpa [hand, Register.hand] using other
      · simp [Offers, Register.offers, given, Nat.le_of_lt before]
    · exact .stays old (by simp [Effect.none]) (by simp [Effect.none]) .rfl
        (by simp [hand, stage, Register.hand, old]) (by simp [Offers, stage, Register.offers])
  | wakesNew ended stage =>
    by_cases own : waker = s.calls
    · subst own
      exact .woken rfl (.inl (by simp [hand, stage, Register.hand])) rfl (by simp [hand, Register.hand])
        (by simp [Offers, Register.offers, busy])
    · exact .stays (by simp [Ne.symm own]) (by simp [Effect.none]) (by simp [Effect.none]) .rfl
        (by simp [hand, stage, Register.hand, own]) (by simp [Offers, own])
  | wakesSelf ended stage =>
    by_cases own : waker = s.calls
    · subst own
      exact .woken rfl (.inr (by simp [Offers, stage, Register.offers])) rfl (by simp [hand, Register.hand])
        (by simp [Offers, Register.offers, busy])
    · exact .stays (by simp [Ne.symm own]) (by simp [Effect.none]) (by simp [Effect.none]) .rfl
        (by simp [hand, stage, Register.hand]) (by simp [Offers, own])

section Waking

variable [DecidableEq I] {wake : Wake}

theorem WakeMoves.moved (moves : WakeMoves s i e t) (kept : ∀ waker ∈ (s.wakes i).hand, ¬s.Offers waker)
    (waker : Waker) : Moved s t (some i) e waker := by
  cases moves with
  | locks stage | delegates stage | leaves _ stage | releasesEmpty stage =>
    exact .still .rfl (by simp [hand, setWake_wakes, stage, Wake.hand]) .rfl
  | releases taken stage => exact .still .rfl (by simp [hand, setWake_wakes, stage, Wake.hand]) .rfl
  | takes stage =>
    by_cases inside : s.waker = some waker
    · exact .taken rfl inside rfl (by simp [hand, setWake_wakes, Wake.hand, inside]) .rfl
    · exact .still (by simp [inside]) (by simp [hand, setWake_wakes, stage, Wake.hand, inside]) .rfl
  | wakes taken ended stage =>
    by_cases same : waker = taken
    · subst same
      have held : waker ∈ (s.wakes i).hand := by simp [stage, Wake.hand]
      exact .woken rfl (.inl held) rfl (by simp [hand, setWake_wakes, Wake.hand]) (kept waker held)
    · exact .stays (by simp [Ne.symm same]) (by simp [Effect.none]) (by simp [Effect.none]) .rfl
        (by simp [hand, setWake_wakes, stage, Wake.hand, same]) .rfl

theorem Moves.moved {a : AtomicWakerAction I} (moves : Moves s a e t) (sound : Sound s)
    (counted : s.register ≠ .idle → s.calls ≠ 0)
    (older : ∀ waker, s.register.oldWaker = some waker → waker ≠ 0 ∧ waker < s.calls)
    (kept : ∀ i, ∀ waker ∈ (s.wakes i).hand, ¬s.Offers waker) (waker : Waker) : Moved s t a.party e waker := by
  cases moves with
  | register idle =>
    refine .still .rfl (by simp [AtomicWakerAction.party, hand, idle, Register.hand]) ?_
    simp only [Offers, idle, Register.offers]
    grind
  | stepRegister panics moves => exact moves.moved sound (counted moves.busy) older waker
  | wake i idle => exact .still .rfl (by simp [AtomicWakerAction.party, hand, setWake_wakes, idle, Wake.hand]) .rfl
  | stepWake i panics moves => exact moves.moved (kept i) waker

theorem Moves.others {a : AtomicWakerAction I} (moves : Moves s a e t) (party : Option I) (other : party ≠ a.party) :
    t.hand party = s.hand party := by
  cases party with
  | none =>
    cases moves with
    | register | stepRegister => exact absurd rfl other
    | wake i idle => rfl
    | stepWake i panics moves => rw [hand, hand, moves.register]
  | some k =>
    have apart (i : I) (own : a.party = some i) : k ≠ i := by
      rintro rfl
      exact other own.symm
    cases moves with
    | register idle => rfl
    | stepRegister panics moves => rw [hand, hand, moves.wakes]
    | wake i idle => rw [hand, hand, setWake_wakes, if_neg (apart i rfl)]
    | stepWake i panics moves => rw [hand, hand, moves.others k (apart i rfl)]

end Waking

structure At (s : AtomicWaker I) (waker : Waker) (place : Place I) : Prop where
  cell : place = .cell ↔ s.waker = some waker
  taken : ∀ party, place = .taken party ↔ waker ∈ s.hand party
  offered : place = .offered ↔ s.Offers waker

variable {party : Option I} {waker : Waker} {place : Place I}

inductive Goes (s : AtomicWaker I) (party : Option I) (e : Effect) (waker : Waker) : Place I → Place I → Prop where
  | stays (place : Place I) : Goes s party e waker place place
  | put : waker = s.calls → Goes s party e waker .offered .cell
  | panicked : waker = s.calls → e = { Effect.none with panicked := true } → Goes s party e waker .offered .panicked
  | taken : Goes s party e waker .cell (.taken party)
  | woken : e.woken = some waker → Goes s party e waker (.taken party) (.woken party)
  | wokenSelf : e.woken = some waker → Goes s party e waker .offered (.woken party)
  | dropped : e.dropped = some waker → Goes s party e waker (.taken party) (.replaced s.calls)

theorem At.next {after : Place I} (fits : At s waker place)
    (others : ∀ other, other ≠ party → t.hand other = s.hand other) (cell : after = .cell ↔ t.waker = some waker)
    (own : after = .taken party ↔ waker ∈ t.hand party)
    (elsewhere : ∀ other, other ≠ party → (after = .taken other ↔ place = .taken other))
    (offered : after = .offered ↔ t.Offers waker) : At t waker after where
  cell := cell
  taken other := by
    by_cases same : other = party
    · rw [same]
      exact own
    · rw [others other same]
      exact (elsewhere other same).trans (fits.taken other)
  offered := offered

theorem Moved.follows (moved : Moved s t party e waker) (others : ∀ other, other ≠ party → t.hand other = s.hand other)
    (fits : At s waker place) :
    Goes s party e waker place (place.after s t party e waker) ∧ At t waker (place.after s t party e waker) := by
  have cell := fits.cell
  have taken := fits.taken party
  have offered := fits.offered
  cases moved with
  | stays quiet kept calm same hand offers =>
    have after : place.after s t party e waker = place := by
      simp only [Place.after, quiet, kept, calm, if_false, same]
      grind
    rw [after]
    exact ⟨.stays place, fits.next others (cell.trans same.symm) (taken.trans hand.symm) (fun _ _ => .rfl)
      (offered.trans offers.symm)⟩
  | put quiet own offers inside hand done =>
    obtain rfl := offered.mpr offers
    have after : Place.after .offered s t party e waker = .cell := by simp [Place.after, quiet, Effect.none, inside]
    rw [after]
    exact ⟨.put own, fits.next others (by simp [inside]) (by simpa [hand] using taken) (by simp) (by simp [done])⟩
  | panicked quiet own offers same hand done =>
    obtain rfl := offered.mpr offers
    have after : Place.after .offered s t party e waker = .panicked := by
      simp [Place.after, quiet, Effect.none, own]
    rw [after]
    exact ⟨.panicked own quiet, fits.next others (by simpa [same] using cell) (by simpa [hand] using taken) (by simp)
      (by simp [done])⟩
  | taken quiet inside empty held offers =>
    obtain rfl := cell.mpr inside
    have after : Place.after .cell s t party e waker = .taken party := by
      simp [Place.after, quiet, Effect.none, inside, empty]
    rw [after]
    exact ⟨.taken, fits.next others (by simp [empty]) (by simp [held]) (by simp +contextual [eq_comm])
      (by simpa [offers] using offered)⟩
  | woken woken held same gone done =>
    have after : place.after s t party e waker = .woken party := by simp [Place.after, woken]
    rw [after]
    rcases held with held | offers
    · obtain rfl := taken.mpr held
      exact ⟨.woken woken, fits.next others (by simpa [same] using cell) (by simp [gone])
        (by simp +contextual [eq_comm]) (by simp [done])⟩
    · obtain rfl := offered.mpr offers
      exact ⟨.wokenSelf woken, fits.next others (by simpa [same] using cell) (by simp [gone]) (by simp)
        (by simp [done])⟩
  | dropped quiet dropped held same gone offers =>
    have after : place.after s t party e waker = .replaced s.calls := by simp [Place.after, quiet, dropped]
    obtain rfl := taken.mpr held
    rw [after]
    exact ⟨.dropped dropped, fits.next others (by simpa [same] using cell) (by simp [gone])
      (by simp +contextual [eq_comm]) (by simpa [offers] using offered)⟩

end Places

end Osaka.Sync.AtomicWaker
