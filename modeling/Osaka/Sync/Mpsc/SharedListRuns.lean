import Osaka.Sync.Mpsc.SharedListCalls

set_option autoImplicit false

namespace Osaka.Sync.Mpsc.SharedList

open Transitions

variable {I T : Type} {c d : Chart I T} {s t : SharedList I T}

theorem Inv.unclaimed (inv : Inv c s) (same : ∀ k, (d.slots k).claim = (c.slots k).claim) (k : Nat) :
    (d.slots k).claim = if k = s.tailPosition then none else (c.slots k).claim := by
  rw [same]
  split
  next last =>
    rw [(inv.ledger.free k).mpr (Nat.le_of_eq last.symm)]
    rfl
  next => rfl

section Steps

variable [Fintype I] [DecidableEq I] {a : SharedListAction I T}

theorem Inv.sends {i : I} {call : Sending T} {address : Nat} (inv : Inv c s) (sender : s.senders i = some call)
    (allowed : s.allowed (.stepSender i address) = true) :
    ∃ t, s.stepSending i call address = .ok t ∧ SendingMoves c s i call t := by
  refine stepSending_moves inv.chain inv.owns sender (inv.calls i call sender) fun ptr tries stage => ?_
  simpa [SharedList.allowed, sender, stage] using allowed

omit [DecidableEq I] in
theorem receiver_busy (allowed : s.allowed (.stepReceiver : SharedListAction I T) = true) :
    s.receiver ≠ .idle ∧ s.receiver ≠ .dropping none := by
  simpa [SharedList.allowed] using allowed

theorem Inv.performs (inv : Inv c s) (allowed : s.allowed a = true) :
    ∃ r, s.perform a = .ok r ∧ ((∃ d, Inv d r.2 ∧
      ∀ k, (d.slots k).claim = if k = s.tailPosition then a.claim else (c.slots k).claim) ∨ Fading c r.2) := by
  have claimed (value : Option T) (k : Nat) : ((c.setSlot s.tailPosition (.claimed value)).slots k).claim =
      if k = s.tailPosition then some value else (c.slots k).claim := by
    rw [c.setSlot_slots]
    split <;> rfl
  cases a with
  | push i value =>
    obtain ⟨⟨idle, opened⟩, _⟩ : ((s.senders i).isNone = true ∧ s.closed = false) ∧ s.dropped = false := by
      simpa [SharedList.allowed] using allowed
    have inv' := inv.claims s.closed (some value) (Option.isNone_iff_eq_none.mp idle) opened opened
      (by simp)
    exact ⟨_, rfl, .inl ⟨_, inv', claimed _⟩⟩
  | close i =>
    obtain ⟨⟨⟨quiet, idle⟩, opened⟩, _⟩ : (((∀ k, (s.senders k).isNone = true) ∧ (s.senders i).isNone = true) ∧
        s.closed = false) ∧ s.dropped = false := by
      simpa [SharedList.allowed] using allowed
    have inv' := inv.claims true none (Option.isNone_iff_eq_none.mp idle) opened rfl
      fun _ k => Option.isNone_iff_eq_none.mp (quiet k)
    exact ⟨_, rfl, .inl ⟨_, inv', claimed _⟩⟩
  | stepSender i address =>
    cases sender : s.senders i with
    | none => simp [SharedList.allowed, sender] at allowed
    | some call =>
      obtain ⟨t, stepped, moves⟩ := inv.sends sender allowed
      obtain ⟨d, inv', same, _⟩ := moves.inv inv sender
      exact ⟨(none, t), by simp [perform, sender, stepped], .inl ⟨d, inv', inv.unclaimed same⟩⟩
  | pop =>
    have idle : s.receiver = .idle := by simpa [SharedList.allowed] using allowed
    have inv' : Inv c (s.receives (.advancing none)).2 :=
      inv.receives (by rw [idle]; rfl) (by simp [Receiving.arrived]) trivial
    exact ⟨_, rfl, .inl ⟨c, inv', inv.unclaimed fun _ => rfl⟩⟩
  | tryPop =>
    have idle : s.receiver = .idle := by simpa [SharedList.allowed] using allowed
    have inv' : Inv c (s.receives .called).2 :=
      inv.receives (by rw [idle]; rfl) (by simp [Receiving.arrived]) trivial
    exact ⟨_, rfl, .inl ⟨c, inv', inv.unclaimed fun _ => rfl⟩⟩
  | freeBlocks =>
    obtain ⟨quiet, idle⟩ : (∀ k, (s.senders k).isNone = true) ∧ s.receiver = .idle := by
      simpa [SharedList.allowed] using allowed
    exact ⟨_, rfl, .inr (inv.fades (fun k => Option.isNone_iff_eq_none.mp (quiet k)) idle)⟩
  | stepReceiver =>
    obtain ⟨r, stepped, moves⟩ := stepReceiver_moves inv (receiver_busy allowed).1
    obtain ⟨d, inv', same, _⟩ := moves.inv inv
    exact ⟨r, stepped, .inl ⟨d, inv', inv.unclaimed same⟩⟩

omit [DecidableEq I] in
theorem Fading.only (fading : Fading c s) (allowed : s.allowed a = true) :
    a = .stepReceiver ∧ s.receiver ≠ .dropping none := by
  have receiver := fading.receiver
  have dropped : s.dropped = true := by simp [SharedList.dropped, receiver]
  cases a with
  | push i value => simp [SharedList.allowed, dropped] at allowed
  | close i => simp [SharedList.allowed, dropped] at allowed
  | stepSender i address => simp [SharedList.allowed, fading.quiet i] at allowed
  | pop | tryPop | freeBlocks => simp [SharedList.allowed, receiver] at allowed
  | stepReceiver => exact ⟨rfl, (receiver_busy allowed).2⟩

omit [DecidableEq I] in
theorem Fading.performs (fading : Fading c s) (allowed : s.allowed a = true) :
    a = .stepReceiver ∧ ∃ t, s.stepReceiver = .ok (none, t) ∧ Fading { c with first := c.first + 1 } t := by
  obtain ⟨own, more⟩ := fading.only allowed
  exact ⟨own, fading.step more⟩

def Settled (s : SharedList I T) : Prop := (∃ c, Inv c s) ∨ ∃ c, Fading c s

theorem Settled.step (settled : Settled s) (a : SharedListAction I T) : ((machine I T).step s a).Kept Settled := by
  show (s.step a).Kept Settled
  unfold SharedList.step
  split
  next allowed =>
    rcases settled with ⟨c, inv⟩ | ⟨c, fading⟩
    · obtain ⟨r, performed, ⟨d, inv', _⟩ | fading⟩ := inv.performs allowed
      · rw [performed]
        exact .inl ⟨d, inv'⟩
      · rw [performed]
        exact .inr ⟨c, fading⟩
    · obtain ⟨rfl, t, performed, fading'⟩ := fading.performs allowed
      have performed : s.perform .stepReceiver = .ok (none, t) := performed
      rw [performed]
      exact .inr ⟨_, fading'⟩
  next => trivial

theorem settled (reached : (machine I T).Reachable s) : Settled s := by
  refine reached.invariant (fun s first => ?_) fun s a settled _ => settled.step a
  obtain rfl : s = channel := first
  exact .inl ⟨_, channel_inv⟩

end Steps

section Safety

variable [Fintype I] [DecidableEq I]

/-- However the calls are interleaved, no block is accessed that has been freed, no value is read that is not there, and
none is overwritten; and a slot is for one call, until the receiver takes its value. -/
theorem access_sound (reached : (machine I T).Reachable s) :
    (∀ a fault, (machine I T).step s a ≠ .failed fault) ∧
      (∀ i k call other, s.senders i = some call → s.senders k = some other → call.slot = other.slot → i = k) ∧
      ∀ tried i call, s.receiver = .taking tried → s.senders i = some call → call.slot ≠ s.index := by
  refine ⟨fun a fault => ((settled reached).step a).sound fault, fun i k call other first second same => ?_,
    fun tried i call stage sends same => ?_⟩
  · rcases settled reached with ⟨c, inv⟩ | ⟨c, fading⟩
    · exact inv.ledger.apart i k call other first second same
    · rw [fading.quiet i] at first
      cases first
  · rcases settled reached with ⟨c, inv⟩ | ⟨c, fading⟩
    · have ready := inv.receiver
      rw [stage] at ready
      have ready : (c.slots s.index).isReady = true := ready
      have unready := (Slot.pending_unready (inv.calls i call sends).pending).1
      rw [same, ready] at unready
      cases unready
    · rw [fading.quiet i] at sends
      cases sends

/-- Two calls of `push` run at once, and the second one has returned. -/
def exampleRace : List (SharedListAction Bool Nat) :=
  [.push true 7, .push false 8, .stepSender true 1, .stepSender false 1, .stepSender true 1, .stepSender false 1,
    .stepSender true 1, .stepSender false 1, .stepSender false 1, .stepSender false 1]

theorem exampleRace_state :
    ((machine Bool Nat).run channel exampleRace).map (fun s => (s.senders true, s.senders false)) =
      some (some ⟨0, some 7, .writing 0⟩, none) := by rfl

theorem access_sound_run : ∃ s : SharedList Bool Nat, s.senders true = some ⟨0, some 7, .writing 0⟩ ∧
    ∀ address fault, (machine Bool Nat).step s (.stepSender true address) ≠ .failed fault := by
  obtain ⟨s, ran, facts⟩ := Option.map_eq_some_iff.mp exampleRace_state
  have reached : (machine Bool Nat).Reachable s := System.reachable_run _ (.initial rfl) ran
  exact ⟨s, (Prod.mk.inj facts).1, fun address fault => (access_sound reached).1 (.stepSender true address) fault⟩

/-- No block is lost. -/
theorem blocks_freed (reached : (machine I T).Reachable s) (done : s.receiver = .dropping none) (a : Nat) :
    s.blocks a = none := by
  rcases settled reached with ⟨c, inv⟩ | ⟨c, fading⟩
  · have fits := inv.receiver
    rw [done] at fits
    exact fits.elim
  · have receiver := fading.receiver
    rw [done] at receiver
    by_contra there
    obtain ⟨n, here⟩ := fading.found a there
    rw [if_pos (Nat.le_trans here.1 here.2.1)] at receiver
    cases receiver

def exampleDrop : List (SharedListAction Bool Nat) :=
  exampleRace ++ [.stepSender true 1, .stepSender true 1, .freeBlocks, .stepReceiver]

theorem exampleDrop_state :
    ((machine Bool Nat).run channel exampleDrop).map (fun s => (s.tailPosition, s.receiver)) =
      some (2, .dropping none) := by rfl

theorem blocks_freed_run : ∃ s : SharedList Bool Nat, s.tailPosition = 2 ∧ ∀ a, s.blocks a = none := by
  obtain ⟨s, ran, facts⟩ := Option.map_eq_some_iff.mp exampleDrop_state
  obtain ⟨position, receiver⟩ := Prod.mk.inj facts
  have reached : (machine Bool Nat).Reachable s := System.reachable_run _ (.initial rfl) ran
  exact ⟨s, position, blocks_freed reached receiver⟩

end Safety

end Osaka.Sync.Mpsc.SharedList
