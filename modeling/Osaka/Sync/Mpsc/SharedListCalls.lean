import Osaka.Sync.Mpsc.SharedListReceiving

set_option autoImplicit false

namespace Osaka.Sync.Mpsc

open Transitions

def SharedListAction.claim {I T : Type} : SharedListAction I T → Option (Option T)
  | .push _ value => some (some value)
  | .close _ => some none
  | .stepSender _ _ | .pop | .tryPop | .freeBlocks | .stepReceiver => none

namespace SharedList

variable {I T : Type} {c d : Chart I T} {s t : SharedList I T} {n m ptr : Nat}

section Starting

def Chart.channel : Chart I T where
  address _ := 0
  first := 0
  last := 0
  head := 0
  tail := 0
  phase _ := .ahead
  slots _ := .free

theorem channel_inv : Inv (Chart.channel : Chart I T) channel := by
  have only (n ptr : Nat) (here : (Chart.channel : Chart I T).At n ptr) : n = 0 ∧ ptr = 0 :=
    ⟨Nat.le_zero.mp here.2.1, here.2.2.symm⟩
  have none' (p : Option I) : (channel : SharedList I T).owned p = none := by
    cases p <;> rfl
  refine ⟨⟨⟨Nat.le_refl _, Nat.le_refl _⟩, ⟨Nat.le_refl _, Nat.le_refl _⟩, ?_, ?_, rfl, rfl, rfl, ?_⟩,
    ⟨?_, ?_, ?_, ?_, ?_⟩, ⟨?_, ?_, ?_, Nat.zero_le _, ?_, ?_, ?_, ?_⟩, ?_, Nat.zero_le _, fun there => ?_, trivial⟩
  · intro m n ptr first second
    rw [(only m ptr first).1, (only n ptr second).1]
  · intro n ptr here
    obtain ⟨rfl, rfl⟩ := only n ptr here
    refine ⟨.new 0, by simp [channel], ?_⟩
    exact blank_shows rfl rfl rfl (fun _ _ => rfl) rfl fun _ _ => rfl
  · intro n
    exact iff_of_true rfl (Nat.zero_le n)
  · intro p q a owner
    rw [none'] at owner
    cases owner
  · intro p a n owner
    rw [none'] at owner
    cases owner
  · intro i a owner
    rw [none'] at owner
    cases owner
  · intro p a owner
    rw [none'] at owner
    cases owner
  · intro a found
    refine .inl ⟨0, Nat.le_refl _, Nat.le_refl _, Eq.symm ?_⟩
    by_contra other
    have other : a ≠ 0 := other
    exact found (by simp [channel, other])
  · exact fun k => iff_of_true rfl (Nat.zero_le k)
  · exact fun k => iff_of_false (by simp [Chart.channel, Slot.isTaken]) (Nat.not_lt_zero k)
  · intro k there
    cases there
  · intro k there
    cases there
  · intro i k call other sends
    cases sends
  · intro _ k there
    cases there
  · intro closed
    cases closed
  · intro i call sends
    cases sends
  · cases there

end Starting

section Claiming

variable [DecidableEq I] {i : I} {value : Option T}

omit [DecidableEq I] in
theorem Shows.claims {k : Nat} {b : Block T} (shows : Shows c n b) (free : c.slots k = .free) :
    Shows (c.setSlot k (.claimed value)) n b := by
  by_cases own : n = k / 32
  · subst own
    have within : k % 32 < 32 := Nat.mod_lt _ (by decide)
    have ready := shows.ready (k % 32) within
    have stored := shows.values (k % 32) within
    rw [Nat.div_add_mod, free] at ready stored
    exact shows.slots (fun _ _ _ => rfl) ready (fun _ _ => rfl) stored (by simp) (by simp [free])
  · refine shows.congr rfl rfl rfl fun o inside => ?_
    rw [c.setSlot_slots, if_neg (by omega)]

theorem Inv.claims (inv : Inv c s) (closed : Bool) (value : Option T) (idle : s.senders i = none)
    (opened : s.closed = false) (last : closed = value.isNone) (quiet : value = none → ∀ k, s.senders k = none) :
    Inv (c.setSlot s.tailPosition (.claimed value)) ({ s with closed := closed }.claim i value) := by
  have unused : c.slots s.tailPosition = .free := (inv.ledger.free _).mpr (Nat.le_refl _)
  have own : (c.setSlot s.tailPosition (.claimed value)).slots s.tailPosition = .claimed value := by
    rw [c.setSlot_slots, if_pos rfl]
  have other {k : Nat} (away : k ≠ s.tailPosition) :
      (c.setSlot s.tailPosition (.claimed value)).slots k = c.slots k := by
    rw [c.setSlot_slots, if_neg away]
  have senders (k : I) : ({ s with closed := closed }.claim i value).senders k =
      if k = i then some ⟨s.tailPosition, value, .claimed⟩ else s.senders k := Function.update_apply s.senders i _ k
  have ready (k : Nat) (there : (c.slots k).isReady = true) :
      ((c.setSlot s.tailPosition (.claimed value)).slots k).isReady = true := by
    rw [other]
    · exact there
    · rintro rfl
      rw [unused] at there
      cases there
  have chain := inv.chain
  have passed := inv.ledger.passed
  refine ⟨⟨chain.head, chain.tail, chain.apart, fun n ptr here => ?_, chain.blockTail, chain.headAt, chain.freeHead,
    chain.phases⟩, ?_, ⟨fun k => ?_, fun k => ?_, fun k there => ?_, ?_, fun k there => ?_,
    fun k l x y first second same => ?_, fun open' k => ?_, fun close => ?_⟩, fun k x sends => ?_, inv.near,
    inv.arrived, ?_⟩
  · obtain ⟨b, found, shows⟩ := chain.shows n ptr here
    exact ⟨b, found, shows.claims unused⟩
  · have owned : ({ s with closed := closed }.claim i value).owned = s.owned := by
      refine (owned_setSender _ i _).trans (Function.update_eq_self_iff.mpr ?_)
      simp [SharedList.owned, idle, Stage.fresh]
    rw [owned]
    exact inv.owns.chart fun _ _ => Iff.rfl
  · show _ ↔ s.tailPosition + 1 ≤ k
    by_cases same : k = s.tailPosition
    · rw [same, own]
      simp
    · rw [other same, inv.ledger.free k]
      omega
  · show _ ↔ k < s.index
    rw [← inv.ledger.taken k]
    by_cases same : k = s.tailPosition
    · rw [same, own, unused]
      rfl
    · rw [other same]
  · by_cases same : k = s.tailPosition
    · rw [same, own] at there
      cases there
    · rw [other same] at there
      exact inv.ledger.touched k there
  · show 32 * c.tail ≤ s.tailPosition + 1
    omega
  · simp only [senders]
    by_cases same : k = s.tailPosition
    · exact ⟨i, _, if_pos rfl, same.symm⟩
    · rw [other same] at there
      obtain ⟨l, x, sends, at_k⟩ := inv.ledger.held k there
      have away : l ≠ i := by
        rintro rfl
        rw [idle] at sends
        cases sends
      exact ⟨l, x, by rw [if_neg away]; exact sends, at_k⟩
  · rw [senders] at first second
    split at first <;> split at second
    next mine theirs => rw [mine, theirs]
    next mine theirs =>
      have before := (inv.slot_lt second).1
      obtain rfl := Option.some.inj first
      exact absurd same (Nat.ne_of_gt before)
    next mine theirs =>
      have before := (inv.slot_lt first).1
      obtain rfl := Option.some.inj second
      exact absurd same (Nat.ne_of_lt before)
    next mine theirs => exact inv.ledger.apart k l x y first second same
  · have open' : closed = false := open'
    rw [last] at open'
    by_cases same : k = s.tailPosition
    · rw [same, own]
      cases value with
      | none => cases open'
      | some v => simp [Slot.claim]
    · rw [other same]
      exact inv.ledger.opened opened k
  · have close : closed = true := close
    obtain rfl : value = none := Option.isNone_iff_eq_none.mp (last.symm.trans close)
    refine ⟨s.tailPosition, rfl, by rw [own]; rfl, fun k before => ready k ?_⟩
    have used : c.slots k ≠ .free := fun unused => Nat.not_lt_of_le ((inv.ledger.free k).mp unused) before
    have done : (c.slots k).pending ≠ true := by
      intro pending
      obtain ⟨l, x, sends, _⟩ := inv.ledger.held k pending
      rw [quiet rfl l] at sends
      cases sends
    have unsealed := inv.ledger.opened opened k
    cases slot : c.slots k <;> simp [slot, Slot.pending, Slot.claim, Slot.isReady] at used done unsealed ⊢
  · rw [senders] at sends
    split at sends
    next mine =>
      subst mine
      obtain rfl := Option.some.inj sends
      have ahead : c.tail ≤ s.tailPosition / 32 := by omega
      exact ⟨own, ahead, c.tail, trivial, chain.guarded _⟩
    next theirs =>
      have before := inv.calls k x sends
      have away : x.slot ≠ s.tailPosition := Nat.ne_of_lt (inv.slot_lt sends).1
      exact before.mono (fun _ _ _ _ _ here => here) (fun _ _ => rfl) (fun _ _ stamped => .inl stamped) ready
        (other away) before.ahead fun _ _ => rfl
  · exact inv.receiver.mono rfl rfl (fun _ _ here => here) (fun _ there => there) (ready _) fun _ _ => rfl

end Claiming

section Fading

structure Fading (c : Chart I T) (s : SharedList I T) : Prop where
  quiet : ∀ i, s.senders i = none
  receiver : s.receiver = .dropping (if c.first ≤ c.last then some (c.address c.first) else none)
  apart : ∀ m n ptr, c.At m ptr → c.At n ptr → m = n
  shows : ∀ n ptr, c.At n ptr → ∃ b, s.blocks ptr = some b ∧ Shows c n b
  found : ∀ a, s.blocks a ≠ none → ∃ n, c.At n a

theorem Inv.fades (inv : Inv c s) (quiet : ∀ i, s.senders i = none) (idle : s.receiver = .idle) :
    Fading c (s.receives (.dropping (some s.freeHead))).2 := by
  have chain := inv.chain
  have some' : c.first ≤ c.last := Nat.le_trans chain.head.1 chain.head.2
  refine ⟨quiet, ?_, chain.apart, chain.shows, fun a found => ?_⟩
  · rw [if_pos some', ← chain.freeHead]
    rfl
  · rcases inv.owns.found a found with here | ⟨p, mine⟩
    · exact here
    · cases p with
      | none => simp [owned, idle, Receiving.block] at mine
      | some i => simp [owned, quiet i] at mine

theorem Fading.step (fading : Fading c s) (more : s.receiver ≠ .dropping none) :
    ∃ t, s.stepReceiver = .ok (none, t) ∧ Fading { c with first := c.first + 1 } t := by
  have receiver := fading.receiver
  have some' : c.first ≤ c.last := by
    by_contra over'
    rw [if_neg over'] at receiver
    exact more receiver
  rw [if_pos some'] at receiver
  have here : c.At c.first (c.address c.first) := ⟨Nat.le_refl _, some', rfl⟩
  obtain ⟨b, there, shows⟩ := fading.shows _ _ here
  have found : s.block (c.address c.first) = .ok b := by simp [SharedList.block, there]
  have loaded : s.loadNext b = .ok (if c.first + 1 ≤ c.last then some (c.address (c.first + 1)) else none) := by
    rcases loadNext_linked fading.shows here shows with ⟨before, loaded⟩ | ⟨last, loaded⟩
    · rw [loaded, if_pos (Nat.succ_le_of_lt before)]
    · rw [loaded, if_neg (by omega)]
  have further (n ptr : Nat) (at_n : ({ c with first := c.first + 1 } : Chart I T).At n ptr) :
      c.At n ptr ∧ ptr ≠ c.address c.first := by
    have before : c.first + 1 ≤ n := at_n.1
    have at_n : c.At n ptr := ⟨Nat.le_of_succ_le before, at_n.2⟩
    refine ⟨at_n, ?_⟩
    rintro rfl
    exact absurd (fading.apart _ _ _ here at_n) (Nat.ne_of_lt before)
  refine ⟨{ s with
      blocks := Function.update s.blocks (c.address c.first) none
      receiver := .dropping (if c.first + 1 ≤ c.last then some (c.address (c.first + 1)) else none) }, ?_,
    fading.quiet, rfl, fun m n ptr first second => ?_, fun n ptr at_n => ?_, fun a found => ?_⟩
  · simp only [stepReceiver, receiver, found, loaded, Bind.bind, Except.bind, pure, Except.pure, receives]
  · exact fading.apart m n ptr (further m ptr first).1 (further n ptr second).1
  · obtain ⟨at_n, away⟩ := further n ptr at_n
    obtain ⟨b, found, shows⟩ := fading.shows n ptr at_n
    exact ⟨b, by simp [away, found], shows.congr rfl rfl rfl fun _ _ => rfl⟩
  · have away : a ≠ c.address c.first := by
      rintro rfl
      simp at found
    have found : s.blocks a ≠ none := by simpa [away] using found
    obtain ⟨n, at_n⟩ := fading.found a found
    have other : c.first ≠ n := by
      rintro rfl
      exact away at_n.2.2.symm
    exact ⟨n, Nat.lt_of_le_of_ne at_n.1 other, at_n.2⟩

end Fading

end SharedList

end Osaka.Sync.Mpsc
