import Mathlib.Algebra.Order.BigOperators.Group.Finset
import Osaka.Sync.Mpsc.SharedListAnswers

set_option autoImplicit false

namespace Osaka.Sync.Mpsc

open Transitions

def SharedListAction.continues {I T : Type} : SharedListAction I T → Bool
  | .stepSender _ _ | .stepReceiver => true
  | .push _ _ | .close _ | .pop | .tryPop | .freeBlocks => false

namespace SharedList

variable {I T : Type} {c d : Chart I T} {s t : SharedList I T} {b : Block T} {n m ptr a top : Nat}
  {blocks : Nat → Option (Block T)}

section Places

def place (blocks : Nat → Option (Block T)) (ptr : Nat) : Nat :=
  match blocks ptr with
  | some b => b.startIndex / 32
  | none => 0

def Placed (c : Chart I T) (blocks : Nat → Option (Block T)) : Prop := ∀ n ptr, c.At n ptr → place blocks ptr = n

theorem Chain.placed (chain : Chain c s) : Placed c s.blocks := by
  intro n ptr here
  obtain ⟨b, found, shows⟩ := chain.shows n ptr here
  simp only [place, found, shows.start]
  omega

theorem Placed.outside (placed : Placed c blocks) (away : ∀ n, ¬ c.At n a) (x : Option (Block T)) :
    Placed c (Function.update blocks a x) := by
  intro n ptr here
  have other : ptr ≠ a := by
    rintro rfl
    exact away n here
  rw [place, Function.update_of_ne other]
  exact placed n ptr here

theorem Placed.rewrites (placed : Placed c blocks) (found : blocks a = some b) {b' : Block T}
    (same : b'.startIndex = b.startIndex) : Placed c (Function.update blocks a (some b')) := by
  intro n ptr here
  have before := placed n ptr here
  by_cases own : ptr = a
  · subst own
    rw [place, found] at before
    rw [place, Function.update_self]
    show b'.startIndex / 32 = n
    rw [same]
    exact before
  · rw [place, Function.update_of_ne own]
    exact before

end Places

section Work

def Stage.left (place : Nat → Nat) (tail slot : Nat) : Stage → Nat
  | .claimed => slot / 32 - tail
  | .loaded ptr | .walking ptr _ | .following ptr _ | .growing ptr _ | .linking ptr _ _ | .numbering ptr _ _ _ _
  | .appending ptr _ _ _ _ | .judging ptr _ _ | .advancing ptr _ | .observing ptr _ | .recording ptr _ _
  | .releasing ptr _ => slot / 32 - place ptr
  | .writing _ | .publishing _ => 0

/-- How many blocks it may still link: one at each of them. -/
def Stage.links (left : Nat) : Stage → Nat
  | .claimed | .loaded _ | .walking _ _ | .following _ _ | .growing _ _ | .linking _ _ _ | .numbering _ _ _ _ _
  | .appending _ _ _ _ _ => left
  | .judging _ _ _ | .advancing _ _ | .observing _ _ | .recording _ _ _ | .releasing _ _ => left - 1
  | .writing _ | .publishing _ => 0

/-- How many steps are left to it, if the last block has no number above `top`. -/
def Stage.work (place : Nat → Nat) (top left : Nat) : Stage → Nat
  | .claimed => left * (2 * top + 20) + 5
  | .loaded _ => left * (2 * top + 20) + 4
  | .walking _ _ => left * (2 * top + 20) + 3
  | .following _ _ => (left - 1) * (2 * top + 20) + (2 * top + 13)
  | .growing _ _ => (left - 1) * (2 * top + 20) + (2 * top + 12)
  | .linking _ _ _ => (left - 1) * (2 * top + 20) + (2 * top + 11)
  | .numbering _ _ curr _ _ => (left - 1) * (2 * top + 20) + (2 * (top - place curr) + 10)
  | .appending _ _ curr _ _ => (left - 1) * (2 * top + 20) + (2 * (top - place curr) + 9)
  | .judging _ _ _ => (left - 1) * (2 * top + 20) + 8
  | .advancing _ _ => (left - 1) * (2 * top + 20) + 7
  | .observing _ _ => (left - 1) * (2 * top + 20) + 6
  | .recording _ _ _ => (left - 1) * (2 * top + 20) + 5
  | .releasing _ _ => (left - 1) * (2 * top + 20) + 4
  | .writing _ => 2
  | .publishing _ => 1

theorem turn (top : Nat) {left : Nat} (more : 0 < left) :
    left * (2 * top + 20) = (left - 1) * (2 * top + 20) + (2 * top + 20) := by
  obtain ⟨k, rfl⟩ := Nat.exists_eq_succ_of_ne_zero (Nat.ne_of_gt more)
  rw [Nat.succ_mul, Nat.succ_sub_one]

def callLinks (s : SharedList I T) : Option (Sending T) → Nat
  | none => 0
  | some call => call.stage.links (call.stage.left (place s.blocks) (place s.blocks s.blockTail) call.slot)

def callWork (s : SharedList I T) (top : Nat) : Option (Sending T) → Nat
  | none => 0
  | some call =>
    call.stage.work (place s.blocks) top (call.stage.left (place s.blocks) (place s.blocks s.blockTail) call.slot)

namespace Receiving

/-- `left`: from the first block to the one of the index. -/
def links (left : Nat) : Receiving → Nat
  | .called | .advancing _ | .stepping _ | .reclaiming _ | .inspecting _ | .unlinking _ | .reading _ | .taking _ => left
  | .resetting _ _ | .tailing _ _ | .numbering _ _ _ _ | .appending _ _ _ _ | .freeing _ _ => left + 1
  | .idle | .dropping _ => 0

def work (ahead left : Nat) : Receiving → Nat
  | .called => 2 * ahead + 20 * left + 13
  | .advancing _ => 2 * ahead + 20 * left + 12
  | .stepping _ => 2 * ahead + 20 * left + 11
  | .reclaiming _ => 20 * left + 5
  | .inspecting _ => 20 * left + 4
  | .unlinking _ => 20 * left + 3
  | .resetting _ _ => 20 * left + 22
  | .tailing _ _ => 20 * left + 21
  | .numbering _ _ _ tries => 20 * left + 2 * tries + 13
  | .appending _ _ _ tries => 20 * left + 2 * tries + 12
  | .freeing _ _ => 20 * left + 10
  | .reading _ => 4
  | .taking _ => 3
  | .idle | .dropping _ => 0

end Receiving

def receiverLinks (s : SharedList I T) : Nat := s.receiver.links (s.index / 32 - place s.blocks s.freeHead)

def receiverWork (s : SharedList I T) : Nat :=
  s.receiver.work (s.index / 32 - place s.blocks s.head) (s.index / 32 - place s.blocks s.freeHead)

end Work

section Frames

variable {i : I} {call : Sending T} {stage : Stage} {seen seen' : Nat → Nat} {tail tail' slot left left' : Nat}

theorem Stage.links_mono (less : left' ≤ left) : stage.links left' ≤ stage.links left := by
  cases stage <;> simp only [Stage.links] <;> omega

theorem Stage.work_mono (less : left' ≤ left)
    (curr : ∀ ptr next curr fresh tries, stage = .numbering ptr next curr fresh tries ∨
      stage = .appending ptr next curr fresh tries → seen' curr = seen curr) :
    stage.work seen' top left' ≤ stage.work seen top left := by
  have whole := Nat.mul_le_mul_right (2 * top + 20) less
  have part := Nat.mul_le_mul_right (2 * top + 20) (Nat.sub_le_sub_right less 1)
  cases stage with
  | numbering ptr next x fresh tries =>
    have same := curr ptr next x fresh tries (.inl rfl)
    simp only [Stage.work, same]
    omega
  | appending ptr next x fresh tries =>
    have same := curr ptr next x fresh tries (.inr rfl)
    simp only [Stage.work, same]
    omega
  | _ =>
    simp only [Stage.work]
    omega

theorem Stage.Stands.left_le (stands : stage.Stands c blocks i slot n)
    (same : ∀ n ptr, c.At n ptr → seen' ptr = seen ptr) (later : tail ≤ tail') :
    stage.left seen' tail' slot ≤ stage.left seen tail slot := by
  cases stage with
  | claimed => exact Nat.sub_le_sub_left later _
  | writing | publishing => exact Nat.le_refl _
  | loaded | walking | following | growing | linking | numbering | appending | judging | advancing | observing
  | recording | releasing =>
    rw [Stage.left, Stage.left, same _ _ stands.1]

theorem CallFits.rests (fits : CallFits c s.blocks i call) (top : Nat) (before : Placed c s.blocks)
    (after : Placed c t.blocks) (later : place s.blocks s.blockTail ≤ place t.blocks t.blockTail) :
    t.callLinks (some call) ≤ s.callLinks (some call) ∧ t.callWork top (some call) ≤ s.callWork top (some call) := by
  obtain ⟨n, stands, _⟩ := fits.stands
  have same (n ptr : Nat) (here : c.At n ptr) : place t.blocks ptr = place s.blocks ptr := by
    rw [before n ptr here, after n ptr here]
  have less := stands.left_le same later
  refine ⟨Stage.links_mono less, Stage.work_mono less ?_⟩
  rintro ptr next curr fresh tries (stage | stage)
  · rw [stage] at stands
    obtain ⟨m, _, here⟩ := stands.2.2.2
    exact same m curr here
  · rw [stage] at stands
    obtain ⟨m, _, here, _⟩ := stands.2.2.2
    exact same m curr here

end Frames

section Sending

variable [DecidableEq I] {i : I} {call : Sending T} {stage : Stage}

theorem SendingMoves.placed (moves : SendingMoves c s i call t) (inv : Inv c s) (sender : s.senders i = some call) :
    Placed c t.blocks := by
  have placed := inv.chain.placed
  cases moves with
  | allocates ptr n address tries stage here free =>
    exact placed.outside (fun k there => inv.chain.found there free) _
  | numbers ptr next curr fresh n tries b stage here found =>
    refine placed.outside (fun k there => ?_) _
    exact (inv.fresh_blank sender (by rw [stage]; rfl)).2.2 k there
  | links ptr fresh tries b stage here found => exact placed.rewrites found rfl
  | appends ptr next curr fresh tries b stage here found => exact placed.rewrites found rfl
  | records ptr next tailPosition b stage found => exact placed.rewrites found rfl
  | releases ptr next b stage found => exact placed.rewrites found rfl
  | seals ptr b stage value found => exact placed.rewrites found rfl
  | writes ptr value b stage pushed found => exact placed.rewrites found rfl
  | publishes ptr b stage found => exact placed.rewrites found rfl
  | loads | measures | arrives | passes | follows | ends | meets | runsOn | finds | leaves | advances | trails
  | observes => exact placed

theorem SendingMoves.later (moves : SendingMoves c s i call t) (inv : Inv c s) (sender : s.senders i = some call) :
    place s.blocks s.blockTail ≤ place t.blocks t.blockTail := by
  have placed := moves.placed inv sender
  have at_tail := inv.chain.at_tail
  have before := inv.chain.placed _ _ at_tail
  have same := placed _ _ at_tail
  cases moves with
  | advances ptr next stage tail =>
    obtain ⟨n, stands, _⟩ := (inv.calls i call sender).stands
    rw [stage] at stands
    obtain rfl := inv.chain.apart _ _ _ (tail ▸ at_tail) stands.1
    rw [before]
    exact Nat.le_trans (Nat.le_succ _) (Nat.le_of_eq (inv.chain.placed _ _ stands.2.2.1).symm)
  | _ => exact Nat.le_of_eq (before.trans same.symm)

theorem callWork_goes (u : SharedList I T) : (u.goes i call stage).callWork top ((u.goes i call stage).senders i) =
    stage.work (place u.blocks) top (stage.left (place u.blocks) (place u.blocks u.blockTail) call.slot) := by
  simp [goes, setSender, callWork]

theorem callLinks_goes (u : SharedList I T) : (u.goes i call stage).callLinks ((u.goes i call stage).senders i) =
    stage.links (stage.left (place u.blocks) (place u.blocks u.blockTail) call.slot) := by
  simp [goes, setSender, callLinks]

theorem SendingMoves.works (moves : SendingMoves c s i call t) (inv : Inv c s) (sender : s.senders i = some call)
    (within : c.last ≤ top) :
    t.callWork top (t.senders i) < s.callWork top (some call) ∧
      t.callLinks (t.senders i) ≤ s.callLinks (some call) ∧
      (call.stage.fresh ≠ none → t.owned (some i) = none →
        t.callLinks (t.senders i) < s.callLinks (some call)) := by
  have placed := inv.chain.placed
  have after := moves.placed inv sender
  obtain ⟨n, stands, _⟩ := (inv.calls i call sender).stands
  have done (u : SharedList I T) : (u.setSender i none).senders i = none := Function.update_self _ _ _
  cases moves with
  | loads stage =>
    rw [callWork_goes, callLinks_goes]
    simp only [callWork, callLinks, stage, Stage.work, Stage.left, Stage.links, Stage.fresh]
    exact ⟨by omega, Nat.le_refl _, fun none' => absurd rfl none'⟩
  | measures ptr tries stage | arrives ptr tries stage =>
    rw [callWork_goes, callLinks_goes]
    simp only [callWork, callLinks, stage, Stage.work, Stage.left, Stage.links, Stage.fresh]
    exact ⟨by omega, by omega, fun none' => absurd rfl none'⟩
  | passes ptr tries stage away =>
    rw [stage] at stands
    have before : n < call.slot / 32 := by
      refine Nat.lt_of_le_of_ne stands.2 fun same => away ?_
      exact same ▸ stands.1
    have turn := turn top (show 0 < call.slot / 32 - n by omega)
    rw [callWork_goes, callLinks_goes]
    simp only [callWork, callLinks, stage, Stage.work, Stage.left, Stage.links, Stage.fresh, placed n ptr stands.1]
    exact ⟨by omega, Nat.le_refl _, fun none' => absurd rfl none'⟩
  | follows ptr m tries stage | finds ptr next m stage =>
    rw [callWork_goes, callLinks_goes]
    simp only [callWork, callLinks, stage, Stage.work, Stage.left, Stage.links, Stage.fresh]
    exact ⟨by omega, by omega, fun none' => absurd rfl none'⟩
  | ends ptr tries stage =>
    rw [callWork_goes, callLinks_goes]
    simp only [callWork, callLinks, stage, Stage.work, Stage.left, Stage.links, Stage.fresh]
    exact ⟨by omega, by omega, fun none' => absurd rfl none'⟩
  | allocates ptr m address tries stage here =>
    have after : place (s.setBlock address (.new (32 * (m + 1)))).blocks ptr = m := after m ptr here
    rw [callWork_goes, callLinks_goes]
    simp only [callWork, callLinks, stage, Stage.work, Stage.left, Stage.links, Stage.fresh, placed m ptr here, after]
    exact ⟨by omega, by omega, fun none' => absurd rfl none'⟩
  | links ptr fresh tries b stage here found =>
    rw [stage] at stands
    have more := stands.2.1
    have after : place (s.setBlock ptr { b with next := some fresh }).blocks ptr = n := after n ptr stands.1
    rw [callWork_goes, callLinks_goes]
    simp only [callWork, callLinks, stage, Stage.work, Stage.left, Stage.links, placed n ptr stands.1, after]
    exact ⟨by omega, by omega, fun _ _ => by omega⟩
  | meets ptr fresh m tries stage here more =>
    rw [callWork_goes, callLinks_goes]
    simp only [callWork, callLinks, stage, Stage.work, Stage.left, Stage.links, placed m ptr here,
      placed _ _ (here.next more)]
    refine ⟨by omega, Nat.le_refl _, fun _ gone => ?_⟩
    simp [owned, goes, setSender, Stage.fresh] at gone
  | numbers ptr next curr fresh m tries b stage here found =>
    rw [stage] at stands
    have at_ptr := stands.1
    have ptr_after : place (s.setBlock fresh { b with startIndex := 32 * (m + 1) }).blocks ptr = n := after n ptr at_ptr
    have curr_after : place (s.setBlock fresh { b with startIndex := 32 * (m + 1) }).blocks curr = m :=
      after m curr here
    rw [callWork_goes, callLinks_goes]
    simp only [callWork, callLinks, stage, Stage.work, Stage.left, Stage.links, placed n ptr at_ptr, placed m curr here,
      ptr_after, curr_after]
    refine ⟨by omega, Nat.le_refl _, fun _ gone => ?_⟩
    simp [owned, goes, setSender, Stage.fresh] at gone
  | appends ptr next curr fresh tries b stage here found =>
    rw [stage] at stands
    have more := stands.2.1
    have after : place (s.setBlock curr { b with next := some fresh }).blocks ptr = n := after n ptr stands.1
    rw [callWork_goes, callLinks_goes]
    simp only [callWork, callLinks, stage, Stage.work, Stage.left, Stage.links, placed n ptr stands.1, after]
    exact ⟨by omega, by omega, fun _ _ => by omega⟩
  | runsOn ptr next curr fresh m tries stage here more =>
    rw [callWork_goes, callLinks_goes]
    simp only [callWork, callLinks, stage, Stage.work, Stage.left, Stage.links, placed m curr here,
      placed _ _ (here.next more)]
    refine ⟨by omega, Nat.le_refl _, fun _ gone => ?_⟩
    simp [owned, goes, setSender, Stage.fresh] at gone
  | leaves ptr next tries stage =>
    rw [stage] at stands
    have at_next := stands.2.2
    rw [callWork_goes, callLinks_goes]
    simp only [callWork, callLinks, stage, Stage.work, Stage.left, Stage.links, Stage.fresh, placed n ptr stands.1,
      placed _ _ at_next, Nat.sub_add_eq]
    exact ⟨by omega, Nat.le_refl _, fun none' => absurd rfl none'⟩
  | advances ptr next stage tail =>
    rw [callWork_goes, callLinks_goes]
    simp only [callWork, callLinks, stage, Stage.work, Stage.left, Stage.links, Stage.fresh]
    exact ⟨by omega, Nat.le_refl _, fun none' => absurd rfl none'⟩
  | trails ptr next stage =>
    rw [stage] at stands
    have at_next := stands.2.2.1
    rw [callWork_goes, callLinks_goes]
    simp only [callWork, callLinks, stage, Stage.work, Stage.left, Stage.links, Stage.fresh, placed n ptr stands.1,
      placed _ _ at_next, Nat.sub_add_eq]
    exact ⟨by omega, Nat.le_refl _, fun none' => absurd rfl none'⟩
  | observes ptr next stage =>
    rw [callWork_goes, callLinks_goes]
    simp only [callWork, callLinks, stage, Stage.work, Stage.left, Stage.links, Stage.fresh]
    exact ⟨by omega, Nat.le_refl _, fun none' => absurd rfl none'⟩
  | records ptr next tailPosition b stage found =>
    rw [stage] at stands
    have after : place (s.setBlock ptr { b with observedTailPosition := tailPosition }).blocks ptr = n :=
      after n ptr stands.1
    rw [callWork_goes, callLinks_goes]
    simp only [callWork, callLinks, stage, Stage.work, Stage.left, Stage.links, Stage.fresh, placed n ptr stands.1,
      after]
    exact ⟨by omega, Nat.le_refl _, fun none' => absurd rfl none'⟩
  | releases ptr next b stage found =>
    rw [stage] at stands
    have after : place (s.setBlock ptr { b with readySlots := b.readySlots ||| RELEASED }).blocks next = n + 1 :=
      after _ _ stands.2.2.1
    rw [callWork_goes, callLinks_goes]
    simp only [callWork, callLinks, stage, Stage.work, Stage.left, Stage.links, Stage.fresh, placed n ptr stands.1,
      after, Nat.sub_add_eq]
    exact ⟨by omega, Nat.le_refl _, fun none' => absurd rfl none'⟩
  | writes ptr value b stage pushed found =>
    rw [callWork_goes, callLinks_goes]
    simp only [callWork, callLinks, stage, Stage.work, Stage.links, Stage.fresh]
    exact ⟨by omega, Nat.le_refl _, fun none' => absurd rfl none'⟩
  | seals ptr b stage value found | publishes ptr b stage found =>
    rw [done]
    simp only [callWork, callLinks, stage, Stage.work, Stage.links, Stage.fresh]
    exact ⟨by omega, Nat.le_refl _, fun none' => absurd rfl none'⟩

theorem SendingMoves.others (moves : SendingMoves c s i call t) (inv : Inv c s) (sender : s.senders i = some call) :
    (∀ k, k ≠ i → t.senders k = s.senders k) ∧ t.receiverLinks = s.receiverLinks ∧
      t.receiverWork = s.receiverWork := by
  have placed := moves.placed inv sender
  have at_head := inv.chain.at_head
  have at_first := inv.chain.at_first
  have head : place t.blocks s.head = place s.blocks s.head :=
    (placed _ _ at_head).trans (inv.chain.placed _ _ at_head).symm
  have first : place t.blocks s.freeHead = place s.blocks s.freeHead :=
    (placed _ _ at_first).trans (inv.chain.placed _ _ at_first).symm
  have same : t.head = s.head ∧ t.freeHead = s.freeHead ∧ t.index = s.index ∧ t.receiver = s.receiver := by
    cases moves <;> exact ⟨rfl, rfl, rfl, rfl⟩
  obtain ⟨head', first', index, receiver⟩ := same
  refine ⟨fun k other => ?_, ?_, ?_⟩
  · cases moves <;> exact Function.update_of_ne other _ _
  · rw [receiverLinks, receiverLinks, first', index, receiver, first]
  · rw [receiverWork, receiverWork, head', first', index, receiver, head, first]

end Sending

section Receiver

variable {r : Option (Answer T) × SharedList I T}

theorem ReceivingMoves.placed (moves : ReceivingMoves c s r) (inv : Inv c s) : Placed c r.2.blocks := by
  have placed := inv.chain.placed
  have away (a : Nat) (mine : s.receiver.block = some a) (n : Nat) : ¬ c.At n a := inv.owns.outside none a n mine
  cases moves with
  | resets tried a b stage => exact placed.outside (away a (by rw [stage]; rfl)) _
  | numbers tried a curr left m b stage => exact placed.outside (away a (by rw [stage]; rfl)) _
  | deallocates tried a stage => exact placed.outside (away a (by rw [stage]; rfl)) _
  | links tried a curr left b stage here found => exact placed.rewrites found rfl
  | takes tried value b stage slot found => exact placed.rewrites found rfl
  | loads | arrives | seeks | steps | misses | skips | looks | spares | frees | unlinks | tails | runsOn | gives | finds
  | closes | waits => exact placed

theorem ReceivingMoves.apart (moves : ReceivingMoves c s r) :
    r.2.blockTail = s.blockTail ∧ r.2.senders = s.senders := by
  cases moves <;> exact ⟨rfl, rfl⟩

theorem ReceivingMoves.works (moves : ReceivingMoves c s r) (inv : Inv c s) :
    r.2.receiverWork < s.receiverWork ∧ r.2.receiverLinks ≤ s.receiverLinks ∧
      (s.receiver.block ≠ none → r.2.receiver.block = none → r.2.receiverLinks < s.receiverLinks) := by
  have chain := inv.chain
  have at_head := chain.placed _ _ chain.at_head
  have at_first := chain.placed _ _ chain.at_first
  have placed := moves.placed inv
  have head_after := placed _ _ chain.at_head
  have first_after := placed _ _ chain.at_first
  have fits := inv.receiver
  have arrived := inv.arrived
  cases moves with
  | loads stage =>
    simp only [receives, receiverWork, receiverLinks, stage, Receiving.work, Receiving.links, Receiving.block]
    exact ⟨by omega, Nat.le_refl _, fun none' => absurd rfl none'⟩
  | arrives tried stage | skips tried stage | finds tried stage | seeks tried stage
  | looks tried stage | frees tried _ stage =>
    simp only [receives, receiverWork, receiverLinks, stage, Receiving.work, Receiving.links, Receiving.block]
    exact ⟨by omega, Nat.le_refl _, fun none' => absurd rfl none'⟩
  | spares tried stage =>
    have there := arrived (by rw [stage]; rfl)
    rw [stage] at fits
    have before : c.first < c.head := fits.1
    simp only [receives, receiverWork, receiverLinks, stage, Receiving.work, Receiving.links, Receiving.block, at_first]
    exact ⟨by omega, Nat.le_refl _, fun none' => absurd rfl none'⟩
  | misses tried stage | closes tried stage | waits tried stage =>
    simp only [returns, receiverWork, receiverLinks, stage, Receiving.work, Receiving.links, Receiving.block]
    exact ⟨by omega, Nat.zero_le _, fun none' => absurd rfl none'⟩
  | steps tried stage more =>
    rw [stage] at fits
    have before : c.head < s.index / 32 := fits
    have further : place s.blocks (c.address (c.head + 1)) = c.head + 1 :=
      chain.placed _ _ (chain.at_head.next more)
    simp only [receives, receiverWork, receiverLinks, stage, Receiving.work, Receiving.links, Receiving.block, at_head,
      further]
    exact ⟨by omega, Nat.le_refl _, fun none' => absurd rfl none'⟩
  | unlinks tried stage =>
    have there := arrived (by rw [stage]; rfl)
    rw [stage] at fits
    have before : c.first < c.head := fits.1
    have further : place s.blocks (c.address (c.first + 1)) = c.first + 1 :=
      chain.placed _ _ (chain.at_first.next (Nat.lt_of_lt_of_le before chain.head.2))
    simp only [receives, receiverWork, receiverLinks, stage, Receiving.work, Receiving.links, Receiving.block, at_first,
      further]
    exact ⟨by omega, by omega, fun none' => absurd rfl none'⟩
  | resets tried a b stage found =>
    have after : place (s.setBlock a b.reclaim).blocks s.freeHead = c.first := first_after
    simp only [receives, receiverWork, receiverLinks, stage, Receiving.work, Receiving.links, Receiving.block, at_first]
    refine ⟨?_, ?_, fun _ gone => by cases gone⟩
    · show 20 * (s.index / 32 - place (s.setBlock a b.reclaim).blocks s.freeHead) + 21 < _
      rw [after]
      omega
    · show s.index / 32 - place (s.setBlock a b.reclaim).blocks s.freeHead + 1 ≤ _
      rw [after]
  | tails tried a stage | runsOn tried a curr left m stage _ _ several | gives tried a curr left stage =>
    simp only [receives, receiverWork, receiverLinks, stage, Receiving.work, Receiving.links, Receiving.block]
    exact ⟨by omega, Nat.le_refl _, fun _ gone => by cases gone⟩
  | numbers tried a curr left m b stage here found =>
    have after : place (s.setBlock a { b with startIndex := 32 * (m + 1) }).blocks s.freeHead = c.first := first_after
    simp only [receives, receiverWork, receiverLinks, stage, Receiving.work, Receiving.links, Receiving.block, at_first]
    refine ⟨?_, ?_, fun _ gone => by cases gone⟩
    · show 20 * (s.index / 32 - place (s.setBlock a { b with startIndex := 32 * (m + 1) }).blocks s.freeHead) +
        2 * left + 12 < _
      rw [after]
      omega
    · show s.index / 32 - place (s.setBlock a { b with startIndex := 32 * (m + 1) }).blocks s.freeHead + 1 ≤ _
      rw [after]
  | links tried a curr left b stage here found =>
    have after : place (s.setBlock curr { b with next := some a }).blocks s.freeHead = c.first := first_after
    have work : (s.setBlock curr { b with next := some a }).index / 32 -
        place (s.setBlock curr { b with next := some a }).blocks s.freeHead = s.index / 32 - c.first := by
      rw [after]
      rfl
    simp only [receives, receiverWork, receiverLinks, stage, Receiving.work, Receiving.links, at_first]
    exact ⟨lt_of_eq_of_lt (congrArg (fun x => 20 * x + 5) work) (by omega), by
      exact Nat.le_succ_of_le (Nat.le_of_eq work), fun _ _ => by exact Nat.lt_succ_of_le (Nat.le_of_eq work)⟩
  | deallocates tried a stage =>
    have after : place (Function.update s.blocks a none) s.freeHead = c.first := first_after
    simp only [receives, receiverWork, receiverLinks, stage, Receiving.work, Receiving.links, at_first, after]
    exact ⟨by omega, by omega, fun _ _ => by omega⟩
  | takes tried value b stage slot found =>
    simp only [receiverWork, receiverLinks, stage, Receiving.work, Receiving.links, Receiving.block]
    exact ⟨by omega, Nat.zero_le _, fun none' => absurd rfl none'⟩

end Receiver

section Totals

variable [Fintype I]

/-- How many blocks may still be linked before all calls have returned. -/
def links (s : SharedList I T) : Nat := (∑ i, s.callLinks (s.senders i)) + s.receiverLinks

def work (s : SharedList I T) (top : Nat) : Nat := (∑ i, s.callWork top (s.senders i)) + s.receiverWork

variable [DecidableEq I] {i : I} {call : Sending T}

theorem sum_step {f g : Option (Sending T) → Nat} (others : ∀ k, k ≠ i → t.senders k = s.senders k)
    (rests : ∀ k call, s.senders k = some call → f (some call) ≤ g (some call)) (zero : f none = g none) :
    (f (t.senders i) ≤ g (s.senders i) → ∑ k, f (t.senders k) ≤ ∑ k, g (s.senders k)) ∧
      (f (t.senders i) < g (s.senders i) → ∑ k, f (t.senders k) < ∑ k, g (s.senders k)) := by
  have each (own : f (t.senders i) ≤ g (s.senders i)) (k : I) : f (t.senders k) ≤ g (s.senders k) := by
    by_cases mine : k = i
    · rw [mine]
      exact own
    · rw [others k mine]
      cases sends : s.senders k with
      | none => exact Nat.le_of_eq zero
      | some call => exact rests k call sends
  refine ⟨fun own => Finset.sum_le_sum fun k _ => each own k, fun own => ?_⟩
  exact Finset.sum_lt_sum (fun k _ => each (Nat.le_of_lt own) k) ⟨i, Finset.mem_univ i, own⟩

theorem SendingMoves.totals (moves : SendingMoves c s i call t) (inv : Inv c s) (sender : s.senders i = some call)
    (within : c.last ≤ top) : t.work top < s.work top ∧ t.links ≤ s.links ∧
      (call.stage.fresh ≠ none → t.owned (some i) = none → t.links < s.links) := by
  obtain ⟨less, fewer, linked⟩ := moves.works inv sender within
  obtain ⟨others, receiverLinks, receiverWork⟩ := moves.others inv sender
  have rests (k : I) (other : Sending T) (sends : s.senders k = some other) :=
    (inv.calls k other sends).rests top inv.chain.placed (moves.placed inv sender) (moves.later inv sender)
  rw [← sender] at less fewer linked
  have works := sum_step others (fun k other sends => (rests k other sends).2) rfl
  have totals := sum_step others (fun k other sends => (rests k other sends).1) rfl
  refine ⟨?_, ?_, fun fresh gone => ?_⟩
  · rw [work, work, receiverWork]
    exact Nat.add_lt_add_right (works.2 less) _
  · rw [SharedList.links, SharedList.links, receiverLinks]
    exact Nat.add_le_add_right (totals.1 fewer) _
  · rw [SharedList.links, SharedList.links, receiverLinks]
    exact Nat.add_lt_add_right (totals.2 (linked fresh gone)) _

omit [DecidableEq I] in
theorem ReceivingMoves.totals {r : Option (Answer T) × SharedList I T} (moves : ReceivingMoves c s r) (inv : Inv c s)
    (top : Nat) : r.2.work top < s.work top ∧ r.2.links ≤ s.links ∧
      (s.receiver.block ≠ none → r.2.receiver.block = none → r.2.links < s.links) := by
  obtain ⟨less, fewer, linked⟩ := moves.works inv
  obtain ⟨blockTail, senders⟩ := moves.apart
  have placed := moves.placed inv
  have at_tail := inv.chain.at_tail
  have later : place s.blocks s.blockTail ≤ place r.2.blocks r.2.blockTail := by
    rw [blockTail, placed _ _ at_tail, inv.chain.placed _ _ at_tail]
  have rests (k : I) : r.2.callLinks (s.senders k) ≤ s.callLinks (s.senders k) ∧
      r.2.callWork top (s.senders k) ≤ s.callWork top (s.senders k) := by
    cases sends : s.senders k with
    | none => exact ⟨Nat.le_refl _, Nat.le_refl _⟩
    | some call => exact (inv.calls k call sends).rests top inv.chain.placed placed later
  have totals : ∑ k, r.2.callLinks (s.senders k) ≤ ∑ k, s.callLinks (s.senders k) :=
    Finset.sum_le_sum fun k _ => (rests k).1
  have works : ∑ k, r.2.callWork top (s.senders k) ≤ ∑ k, s.callWork top (s.senders k) :=
    Finset.sum_le_sum fun k _ => (rests k).2
  refine ⟨?_, ?_, fun owner gone => ?_⟩
  · rw [work, work, senders]
    exact Nat.add_lt_add_of_le_of_lt works less
  · rw [SharedList.links, SharedList.links, senders]
    exact Nat.add_le_add totals fewer
  · rw [SharedList.links, SharedList.links, senders]
    exact Nat.add_lt_add_of_le_of_lt totals (linked owner gone)

end Totals

section Progress

variable [Fintype I] [DecidableEq I] {a : SharedListAction I T} {actions : List (SharedListAction I T)}

/-- A step that is taken leaves less to do, and what it links has been counted. -/
theorem Inv.progress (inv : Inv c s) (within : c.last + s.links ≤ top) (own : a.continues = true)
    (stepped : (machine I T).step s a = .next t) :
    ∃ d, Inv d t ∧ d.last + t.links ≤ top ∧ t.work top < s.work top := by
  obtain ⟨allowed, answer, performed⟩ := step_performs stepped
  have last : c.last ≤ top := Nat.le_trans (Nat.le_add_right _ _) within
  cases a with
  | push | close | pop | tryPop | freeBlocks => cases own
  | stepSender i address =>
    cases sender : s.senders i with
    | none => simp [SharedList.allowed, sender] at allowed
    | some call =>
      obtain ⟨u, stepped, moves⟩ := inv.sends sender allowed
      obtain rfl : u = t := by
        simp only [perform, sender, stepped, Except.ok.injEq, Prod.mk.injEq] at performed
        exact performed.2
      obtain ⟨less, fewer, linked⟩ := moves.totals inv sender last
      obtain ⟨d, inv', _, same | ⟨more, fresh, gone⟩⟩ := moves.inv inv sender
      · exact ⟨d, inv', by omega, less⟩
      · have linked := linked fresh gone
        exact ⟨d, inv', by omega, less⟩
  | stepReceiver =>
    obtain ⟨r, stepped, moves⟩ := stepReceiver_moves inv (receiver_busy allowed).1
    obtain rfl : r = (answer, t) := Except.ok.inj (stepped.symm.trans performed)
    obtain ⟨less, fewer, linked⟩ := moves.totals inv top
    have fewer : t.links ≤ s.links := fewer
    obtain ⟨d, inv', _, same | ⟨more, owner, gone⟩⟩ := moves.inv inv
    · exact ⟨d, inv', by omega, less⟩
    · have linked : t.links < s.links := linked owner gone
      exact ⟨d, inv', by omega, less⟩

theorem Inv.run_short (inv : Inv c s) (within : c.last + s.links ≤ top) (own : ∀ a ∈ actions, a.continues = true)
    (ran : (machine I T).run s actions = some t) : actions.length ≤ s.work top := by
  induction actions generalizing c s with
  | nil => exact Nat.zero_le _
  | cons a rest ih =>
    obtain ⟨u, _, stepped, ran⟩ := System.run_cons _ ran
    obtain ⟨d, inv', within', less⟩ := inv.progress within (own a List.mem_cons_self) stepped
    have short := ih inv' within' (fun b there => own b (List.mem_cons_of_mem a there)) ran
    simp only [List.length_cons]
    omega

theorem Fading.run_short (fading : Fading c s) (ran : (machine I T).run s actions = some t) :
    actions.length ≤ c.last + 1 - c.first := by
  induction actions generalizing c s with
  | nil => exact Nat.zero_le _
  | cons a rest ih =>
    obtain ⟨u, _, stepped, ran⟩ := System.run_cons _ ran
    obtain ⟨allowed, answer, performed⟩ := step_performs stepped
    obtain ⟨rfl, more⟩ := fading.only allowed
    obtain ⟨u', stepped', fading'⟩ := fading.step more
    obtain ⟨rfl, rfl⟩ : none = answer ∧ u' = u := Prod.mk.inj (Except.ok.inj (stepped'.symm.trans performed))
    have short := ih fading' ran
    have some' : c.first ≤ c.last := by
      have receiver := fading.receiver
      by_contra over'
      rw [if_neg over'] at receiver
      exact more receiver
    have short : rest.length ≤ c.last + 1 - (c.first + 1) := short
    simp only [List.length_cons]
    omega

theorem step_next (reached : (machine I T).Reachable s) (allowed : s.allowed a = true) :
    ∃ t, (machine I T).step s a = .next t := by
  have sound := (access_sound reached).1 a
  cases stepped : (machine I T).step s a with
  | next t => exact ⟨t, rfl⟩
  | failed fault => exact absurd stepped (sound fault)
  | disabled =>
    have stepped : s.step a = .disabled := stepped
    rw [SharedList.step, if_pos allowed] at stepped
    cases performed : s.perform a <;> simp [performed, Outcome.attempt] at stepped

/-- No call waits for another: each can take its next step whatever the others do, and when no new ones begin, all have
returned after boundedly many steps, in whatever order these are taken. -/
theorem calls_return (reached : (machine I T).Reachable s) :
    (∃ bound, ∀ actions t, (∀ a ∈ actions, a.continues = true) → (machine I T).run s actions = some t →
      actions.length ≤ bound) ∧
    (∀ i call address, s.senders i = some call → s.blocks address = none →
      ∃ t, (machine I T).step s (.stepSender i address) = .next t) ∧
    (s.receiver ≠ .idle → s.receiver ≠ .dropping none → ∃ t, (machine I T).step s .stepReceiver = .next t) := by
  refine ⟨?_, fun i call address sender free => ?_, fun busy more => ?_⟩
  · rcases settled reached with ⟨c, inv⟩ | ⟨c, fading⟩
    · exact ⟨_, fun actions t own ran => inv.run_short (Nat.le_refl _) own ran⟩
    · exact ⟨_, fun actions t _ ran => fading.run_short ran⟩
  · refine step_next reached ?_
    simp only [SharedList.allowed, sender]
    split
    next => simp [free]
    next => rfl
  · exact step_next reached (by simp [SharedList.allowed, busy, more])

theorem calls_return_run : ∃ s : SharedList Bool Nat, s.senders true = some ⟨0, some 7, .writing 0⟩ ∧
    ∃ bound, ∀ actions t, (∀ a ∈ actions, a.continues = true) → (machine Bool Nat).run s actions = some t →
      actions.length ≤ bound := by
  obtain ⟨s, ran, facts⟩ := Option.map_eq_some_iff.mp exampleRace_state
  have reached : (machine Bool Nat).Reachable s := System.reachable_run _ (.initial rfl) ran
  exact ⟨s, (Prod.mk.inj facts).1, (calls_return reached).1⟩

end Progress

end SharedList

end Osaka.Sync.Mpsc
