import Osaka.Sync.Mpsc.BlockListRuns
import Osaka.Sync.Mpsc.SharedListAlone

set_option autoImplicit false

namespace Osaka.Sync.Mpsc.SharedList

open Transitions

variable {I T : Type} [Fintype I] [DecidableEq I] {t : SharedList I T} {closed : Bool}

section Popping

variable {l l' : BlockList T} {tried : Option Nat} {receiver : Receiving} {address a : Nat}

theorem receiving_inv (reached : (machine I T).Reachable (l.shared (I := I) (fun _ => none) closed receiver))
    (there : ∀ cur, receiver ≠ .dropping cur) : ∃ c, Inv c (l.shared (I := I) (fun _ => none) closed receiver) := by
  rcases settled reached with inv | ⟨c, fading⟩
  · exact inv
  · exact absurd fading.receiver (there _)

theorem receives_step (answer : Option (Answer T)) (busy : receiver ≠ .idle) (more : receiver ≠ .dropping none)
    (stepped : (l.shared (I := I) (fun _ => none) closed receiver).stepReceiver = .ok (answer, t)) :
    Leads (l.shared (I := I) (fun _ => none) closed receiver) t :=
  leads_receiver answer busy more stepped

omit [Fintype I] [DecidableEq I] in
theorem shared_block {b : Block T} (found : l.blocks address = some b) :
    (l.shared (I := I) (fun _ => none) closed receiver).block address = .ok b := by
  simp [SharedList.block, BlockList.shared, found]

theorem advance_head (fuel : Nat) {there : Bool} (unused : l.Unused)
    (reached : (machine I T).Reachable (l.shared (fun _ => none) closed (.advancing tried)))
    (advanced : l.tryAdvancingHead fuel = .ok (there, l')) :
    l'.Unused ∧ Leads (l.shared (I := I) (fun _ => none) closed (.advancing tried))
      (l'.shared (fun _ => none) closed (if there then .reclaiming tried else .idle)) := by
  induction fuel generalizing l with
  | zero => cases advanced
  | succ fuel ih =>
    cases found : l.blocks l.head with
    | none => simp [BlockList.tryAdvancingHead, BlockList.block, found, Bind.bind, Except.bind] at advanced
    | some b =>
      have found' (receiver : Receiving) : (l.shared (I := I) (fun _ => none) closed receiver).block l.head = .ok b :=
        shared_block found
      simp only [BlockList.tryAdvancingHead, BlockList.block, found, Bind.bind, Except.bind] at advanced
      cases at_index : b.isAtIndex (startIndex l.index) with
      | true =>
        rw [if_pos at_index] at advanced
        obtain ⟨rfl, rfl⟩ : true = there ∧ l = l' := Prod.mk.inj (Except.ok.inj advanced)
        refine ⟨unused, receives_step none (by simp) (by simp) ?_⟩
        have stage : (l.shared (I := I) (fun _ => none) closed (.advancing tried)).receiver = .advancing tried := rfl
        have head : (l.shared (I := I) (fun _ => none) closed (.advancing tried)).head = l.head := rfl
        have index : (l.shared (I := I) (fun _ => none) closed (.advancing tried)).index = l.index := rfl
        simp only [stepReceiver, stage, head, index, found', at_index, Bind.bind, Except.bind, if_true, pure,
          Except.pure]
        rfl
      | false =>
        rw [if_neg (by simp [at_index])] at advanced
        have seeks : Leads (l.shared (I := I) (fun _ => none) closed (.advancing tried))
            (l.shared (fun _ => none) closed (.stepping tried)) := by
          refine receives_step none (by simp) (by simp) ?_
          have stage : (l.shared (I := I) (fun _ => none) closed (.advancing tried)).receiver = .advancing tried := rfl
          have head : (l.shared (I := I) (fun _ => none) closed (.advancing tried)).head = l.head := rfl
          have index : (l.shared (I := I) (fun _ => none) closed (.advancing tried)).index = l.index := rfl
          simp only [stepReceiver, stage, head, index, found', at_index, Bind.bind, Except.bind, pure, Except.pure]
          rfl
        obtain ⟨c, inv⟩ := receiving_inv (seeks.reachable reached) (by simp)
        have loaded := inv.chain.next inv.chain.at_head found
        have stage : (l.shared (I := I) (fun _ => none) closed (.stepping tried)).receiver = .stepping tried := rfl
        have head : (l.shared (I := I) (fun _ => none) closed (.stepping tried)).head = l.head := rfl
        cases next : b.next with
        | none =>
          rw [next] at advanced loaded
          obtain ⟨rfl, rfl⟩ : false = there ∧ l = l' := Prod.mk.inj (Except.ok.inj advanced)
          refine ⟨unused, seeks.trans (receives_step
            (some ((l.shared (I := I) (fun _ => none) closed (.stepping tried)).answer tried none)) (by simp)
            (by simp) ?_)⟩
          simp only [stepReceiver, stage, head, found', loaded, Bind.bind, Except.bind, pure, Except.pure]
          rfl
        | some further =>
          rw [next] at advanced loaded
          have steps : Leads (l.shared (I := I) (fun _ => none) closed (.stepping tried))
              (({ l with head := further } : BlockList T).shared (fun _ => none) closed (.advancing tried)) := by
            refine receives_step none (by simp) (by simp) ?_
            simp only [stepReceiver, stage, head, found', loaded, Bind.bind, Except.bind, pure, Except.pure]
            rfl
          have before := seeks.trans steps
          have unused' : ({ l with head := further } : BlockList T).Unused := unused
          obtain ⟨unused'', after⟩ := ih unused' (before.reachable reached) advanced
          exact ⟨unused'', before.trans after⟩

theorem receiver_apart {left : Nat} (reached : (machine I T).Reachable
    (l.shared (I := I) (fun _ => none) closed (.numbering tried a address left))) : address ≠ a := by
  obtain ⟨c, inv⟩ := receiving_inv reached (by simp)
  obtain ⟨_, n, here⟩ : Blank l.blocks a ∧ ∃ n, c.At n address := inv.receiver
  rintro rfl
  exact inv.owns.outside none address n rfl here

theorem relink_leads (tries : Nat) {reused : Bool} (some' : 0 < tries) (unused : l.Unused)
    (reached : (machine I T).Reachable (l.shared (fun _ => none) closed (.numbering tried a address tries)))
    (linked : l.relink a tries address = .ok (reused, l')) :
    l'.Unused ∧ Leads (l.shared (I := I) (fun _ => none) closed (.numbering tried a address tries))
      (l'.shared (fun _ => none) closed (if reused then .reclaiming tried else .freeing tried a)) := by
  induction tries generalizing l address with
  | zero => cases some'
  | succ hops ih =>
    have apart := receiver_apart reached
    cases found : l.blocks address with
    | none => simp [BlockList.relink, BlockList.tryPush, BlockList.block, found, Bind.bind, Except.bind] at linked
    | some b =>
      cases mine : l.blocks a with
      | none =>
        simp [BlockList.relink, BlockList.tryPush, BlockList.block, found, mine, Bind.bind, Except.bind] at linked
      | some fresh =>
        have unused' := unused.setBlock mine { fresh with startIndex := b.startIndex + BLOCK_CAP }
        have numbers : Leads (l.shared (I := I) (fun _ => none) closed (.numbering tried a address (hops + 1)))
            ((l.setBlock a { fresh with startIndex := b.startIndex + BLOCK_CAP }).shared (fun _ => none) closed
              (.appending tried a address (hops + 1))) := by
          refine receives_step none (by simp) (by simp) ?_
          have stage : (l.shared (I := I) (fun _ => none) closed (.numbering tried a address (hops + 1))).receiver =
            .numbering tried a address (hops + 1) := rfl
          simp only [stepReceiver, stage, shared_block found, shared_block mine, Bind.bind, Except.bind, pure,
            Except.pure]
          rfl
        have found' : (l.setBlock a { fresh with startIndex := b.startIndex + BLOCK_CAP }).blocks address = some b := by
          simp [BlockList.setBlock, apart, found]
        have stage : ((l.setBlock a { fresh with startIndex := b.startIndex + BLOCK_CAP }).shared (I := I)
            (fun _ => none) closed (.appending tried a address (hops + 1))).receiver =
          .appending tried a address (hops + 1) := rfl
        simp only [BlockList.relink, BlockList.tryPush, BlockList.block, found, mine, Bind.bind, Except.bind] at linked
        cases next : b.next with
        | none =>
          rw [next] at linked
          obtain ⟨rfl, rfl⟩ := Prod.mk.inj (Except.ok.inj linked)
          refine ⟨unused'.setBlock found' _, numbers.trans (receives_step none (by simp) (by simp) ?_)⟩
          simp only [stepReceiver, stage, shared_block found', next, Bind.bind, Except.bind, pure, Except.pure]
          rfl
        | some further =>
          rw [next] at linked
          cases hops with
          | zero =>
            obtain ⟨rfl, rfl⟩ := Prod.mk.inj (Except.ok.inj linked)
            refine ⟨unused', numbers.trans (receives_step none (by simp) (by simp) ?_)⟩
            simp only [stepReceiver, stage, shared_block found', next, Bind.bind, Except.bind, pure, Except.pure]
            rfl
          | succ hops =>
            have runsOn : Leads
                ((l.setBlock a { fresh with startIndex := b.startIndex + BLOCK_CAP }).shared (I := I)
                  (fun _ => none) closed (.appending tried a address (hops + 1 + 1)))
                ((l.setBlock a { fresh with startIndex := b.startIndex + BLOCK_CAP }).shared
                  (fun _ => none) closed (.numbering tried a further (hops + 1))) := by
              refine receives_step none (by simp) (by simp) ?_
              have several : ¬ hops + 1 + 1 ≤ 1 := by omega
              simp only [stepReceiver, stage, shared_block found', next, Bind.bind, Except.bind, if_neg several, pure,
                Except.pure]
              rfl
            have before := numbers.trans runsOn
            obtain ⟨unused'', after⟩ := ih (Nat.succ_pos _) unused' (before.reachable reached) linked
            exact ⟨unused'', before.trans after⟩

theorem reset_leads {b : Block T} (found : l.blocks a = some b) :
    Leads (l.shared (I := I) (fun _ => none) closed (.resetting tried a))
      ((l.setBlock a b.reclaim).shared (fun _ => none) closed (.numbering tried a l.blockTail 3)) := by
  have resets : Leads (l.shared (I := I) (fun _ => none) closed (.resetting tried a))
      ((l.setBlock a b.reclaim).shared (fun _ => none) closed (.tailing tried a)) := by
    refine receives_step none (by simp) (by simp) ?_
    have stage : (l.shared (I := I) (fun _ => none) closed (.resetting tried a)).receiver = .resetting tried a := rfl
    simp only [stepReceiver, stage, shared_block found, Bind.bind, Except.bind, pure, Except.pure]
    rfl
  exact resets.trans (receives_step none (by simp) (by simp) rfl)

theorem free_leads (unused : l.Unused)
    (reached : (machine I T).Reachable (l.shared (fun _ => none) closed (.freeing tried a))) :
    ({ l with blocks := Function.update l.blocks a none } : BlockList T).Unused ∧
      Leads (l.shared (I := I) (fun _ => none) closed (.freeing tried a))
        (({ l with blocks := Function.update l.blocks a none } : BlockList T).shared (fun _ => none) closed
          (.reclaiming tried)) := by
  obtain ⟨c, inv⟩ := receiving_inv reached (by simp)
  obtain ⟨b, found, _⟩ : Blank l.blocks a := inv.receiver
  refine ⟨fun x beyond => ?_, receives_step none (by simp) (by simp) ?_⟩
  · show Function.update l.blocks a none x = none
    by_cases own : x = a
    · simp [own]
    · rw [Function.update_of_ne own]
      exact unused x beyond
  · have stage : (l.shared (I := I) (fun _ => none) closed (.freeing tried a)).receiver = .freeing tried a := rfl
    simp only [stepReceiver, stage, shared_block found, Bind.bind, Except.bind, pure, Except.pure]
    rfl

theorem reclaim_leads (fuel : Nat) (unused : l.Unused)
    (reached : (machine I T).Reachable (l.shared (fun _ => none) closed (.reclaiming tried)))
    (reclaimed : l.reclaimBlocks fuel = .ok l') :
    l'.Unused ∧ Leads (l.shared (I := I) (fun _ => none) closed (.reclaiming tried))
      (l'.shared (fun _ => none) closed (.reading tried)) := by
  induction fuel generalizing l with
  | zero => cases reclaimed
  | succ fuel ih =>
    have stage (receiver : Receiving) : (l.shared (I := I) (fun _ => none) closed receiver).receiver = receiver := rfl
    have freeHead (receiver : Receiving) :
      (l.shared (I := I) (fun _ => none) closed receiver).freeHead = l.freeHead := rfl
    have head (receiver : Receiving) : (l.shared (I := I) (fun _ => none) closed receiver).head = l.head := rfl
    have index (receiver : Receiving) : (l.shared (I := I) (fun _ => none) closed receiver).index = l.index := rfl
    by_cases same : l.freeHead = l.head
    · simp only [BlockList.reclaimBlocks, if_pos same, pure, Except.pure, Except.ok.injEq] at reclaimed
      subst reclaimed
      refine ⟨unused, receives_step none (by simp) (by simp) ?_⟩
      simp only [stepReceiver, stage, freeHead, head, if_pos same]
      rfl
    · cases found : l.blocks l.freeHead with
      | none =>
        simp [BlockList.reclaimBlocks, same, BlockList.block, found, Bind.bind, Except.bind] at reclaimed
      | some b =>
        simp only [BlockList.reclaimBlocks, if_neg same, BlockList.block, found, Bind.bind, Except.bind,
          Block.observed] at reclaimed
        by_cases flag : 0 = RELEASED &&& b.readySlots
        · simp only [if_pos flag, pure, Except.pure, Except.ok.injEq] at reclaimed
          subst reclaimed
          refine ⟨unused, receives_step none (by simp) (by simp) ?_⟩
          simp only [stepReceiver, stage, freeHead, head, if_neg same, shared_block found, Bind.bind, Except.bind,
            if_pos flag, pure, Except.pure]
          rfl
        · simp only [if_neg flag] at reclaimed
          have looks : Leads (l.shared (I := I) (fun _ => none) closed (.reclaiming tried))
              (l.shared (fun _ => none) closed (.inspecting tried)) := by
            refine receives_step none (by simp) (by simp) ?_
            simp only [stepReceiver, stage, freeHead, head, if_neg same, shared_block found, Bind.bind, Except.bind,
              if_neg flag, pure, Except.pure]
            rfl
          by_cases above : b.observedTailPosition > l.index
          · simp only [if_pos above, pure, Except.pure, Except.ok.injEq] at reclaimed
            subst reclaimed
            refine ⟨unused, looks.trans (receives_step none (by simp) (by simp) ?_)⟩
            simp only [stepReceiver, stage, freeHead, index, shared_block found, Bind.bind, Except.bind, if_pos above,
              pure, Except.pure]
            rfl
          · simp only [if_neg above] at reclaimed
            have frees : Leads (l.shared (I := I) (fun _ => none) closed (.inspecting tried))
                (l.shared (fun _ => none) closed (.unlinking tried)) := by
              refine receives_step none (by simp) (by simp) ?_
              simp only [stepReceiver, stage, freeHead, index, shared_block found, Bind.bind, Except.bind, if_neg above,
                pure, Except.pure]
              rfl
            have before := looks.trans frees
            obtain ⟨c, inv⟩ := receiving_inv (before.reachable reached) (by simp)
            have loaded := inv.chain.next inv.chain.at_first found
            cases next : b.next with
            | none => simp [next] at reclaimed
            | some further =>
              rw [next] at reclaimed loaded
              have unlinks : Leads (l.shared (I := I) (fun _ => none) closed (.unlinking tried))
                  (({ l with freeHead := further } : BlockList T).shared (fun _ => none) closed
                    (.resetting tried l.freeHead)) := by
                refine receives_step none (by simp) (by simp) ?_
                simp only [stepReceiver, stage, freeHead, shared_block found, loaded, Bind.bind, Except.bind, pure,
                  Except.pure]
                rfl
              have found' : ({ l with freeHead := further } : BlockList T).blocks l.freeHead = some b := found
              have unused' : ({ l with freeHead := further } : BlockList T).Unused := unused
              have before := before.trans (unlinks.trans (reset_leads found'))
              simp only [BlockList.reclaimBlock, BlockList.block, found, Bind.bind, Except.bind] at reclaimed
              cases ran : (({ l with freeHead := further } : BlockList T).setBlock l.freeHead b.reclaim).relink
                  l.freeHead 3 l.blockTail with
              | error fault => simp [ran] at reclaimed
              | ok r =>
                obtain ⟨reused, l₂⟩ := r
                obtain ⟨unused₂, relinks⟩ := relink_leads 3 (by decide) (unused'.setBlock found' _)
                  (before.reachable reached) ran
                have before := before.trans relinks
                simp only [ran] at reclaimed
                cases reused with
                | true =>
                  obtain ⟨unused'', after⟩ := ih unused₂ (before.reachable reached) reclaimed
                  exact ⟨unused'', before.trans after⟩
                | false =>
                  obtain ⟨unused₃, deallocates⟩ := free_leads unused₂ (before.reachable reached)
                  have before := before.trans deallocates
                  obtain ⟨unused'', after⟩ := ih unused₃ (before.reachable reached) reclaimed
                  exact ⟨unused'', before.trans after⟩

theorem read_leads {b b' : Block T} {ret : Option (Read T)} (found : l.blocks l.head = some b)
    (read : b.read l.index = .ok (ret, b')) :
    Leads (l.shared (I := I) (fun _ => none) closed (.reading tried))
      ((match ret with
        | some (.value _) => { l.setBlock l.head b' with index := l.index + 1 }
        | _ => l.setBlock l.head b').shared (fun _ => none) closed .idle) := by
  have stage (receiver : Receiving) : (l.shared (I := I) (fun _ => none) closed receiver).receiver = receiver := rfl
  have head (receiver : Receiving) : (l.shared (I := I) (fun _ => none) closed receiver).head = l.head := rfl
  have index (receiver : Receiving) : (l.shared (I := I) (fun _ => none) closed receiver).index = l.index := rfl
  have same : l.setBlock l.head b = l := by simp [BlockList.setBlock, ← found]
  unfold Block.read at read
  cases ready : isReady b.readySlots (offset l.index) with
  | true =>
    rw [if_pos ready] at read
    have finds : Leads (l.shared (I := I) (fun _ => none) closed (.reading tried))
        (l.shared (fun _ => none) closed (.taking tried)) := by
      refine receives_step none (by simp) (by simp) ?_
      simp only [stepReceiver, stage, head, index, shared_block found, ready, Bind.bind, Except.bind, if_true, pure,
        Except.pure]
      rfl
    cases stored : b.values (offset l.index) with
    | none => simp [stored] at read
    | some value =>
      simp only [stored, Except.ok.injEq, Prod.mk.injEq] at read
      obtain ⟨rfl, rfl⟩ := read
      refine finds.trans (receives_step
        (some ((l.shared (I := I) (fun _ => none) closed (.taking tried)).answer tried (some (.value value))))
        (by simp) (by simp) ?_)
      simp only [stepReceiver, stage, head, index, shared_block found, stored, Bind.bind, Except.bind, pure, Except.pure]
      rfl
  | false =>
    rw [if_neg (by simp [ready])] at read
    cases sealed : isTxClosed b.readySlots with
    | true =>
      rw [if_pos sealed] at read
      obtain ⟨rfl, rfl⟩ := Prod.mk.inj (Except.ok.inj read)
      rw [same]
      refine receives_step (some ((l.shared (I := I) (fun _ => none) closed (.reading tried)).answer tried
        (some .closed))) (by simp) (by simp) ?_
      simp only [stepReceiver, stage, head, index, shared_block found, ready, sealed, Bind.bind, Except.bind, if_true,
        pure, Except.pure]
      rfl
    | false =>
      rw [if_neg (by simp [sealed])] at read
      obtain ⟨rfl, rfl⟩ := Prod.mk.inj (Except.ok.inj read)
      rw [same]
      refine receives_step (some ((l.shared (I := I) (fun _ => none) closed (.reading tried)).answer tried none))
        (by simp) (by simp) ?_
      simp only [stepReceiver, stage, head, index, shared_block found, ready, sealed, Bind.bind, Except.bind, pure,
        Except.pure]
      rfl

theorem pop_leads {ret : Option (Read T)} (unused : l.Unused)
    (reached : (machine I T).Reachable (l.shared (fun _ => none) closed (.advancing tried)))
    (popped : l.pop = .ok (ret, l')) :
    l'.Unused ∧ Leads (l.shared (I := I) (fun _ => none) closed (.advancing tried))
      (l'.shared (fun _ => none) closed .idle) := by
  simp only [BlockList.pop, Bind.bind, Except.bind] at popped
  cases advanced : l.tryAdvancingHead (l.allocated + 1) with
  | error fault => simp [advanced] at popped
  | ok r =>
    obtain ⟨there, l₁⟩ := r
    obtain ⟨unused₁, advances⟩ := advance_head _ unused reached advanced
    simp only [advanced] at popped
    cases there with
    | false =>
      obtain ⟨rfl, rfl⟩ := Prod.mk.inj (Except.ok.inj popped)
      exact ⟨unused₁, advances⟩
    | true =>
      simp only [Bool.true_eq_false, if_false] at popped
      cases reclaimed : l₁.reclaimBlocks (l₁.allocated + 1) with
      | error fault => simp [reclaimed] at popped
      | ok l₂ =>
        obtain ⟨unused₂, reclaims⟩ := reclaim_leads _ unused₁ (advances.reachable reached) reclaimed
        cases found : l₂.blocks l₂.head with
        | none => simp [reclaimed, BlockList.block, found] at popped
        | some b =>
          simp only [reclaimed, BlockList.block, found] at popped
          cases read : b.read l₂.index with
          | error fault => simp [read] at popped
          | ok r =>
            obtain ⟨ret', b'⟩ := r
            simp only [read] at popped
            have reads := (advances.trans reclaims).trans (read_leads found read)
            have unused' := unused₂.setBlock found b'
            rcases ret' with _ | (value | _)
            · obtain ⟨rfl, rfl⟩ := Prod.mk.inj (Except.ok.inj popped)
              exact ⟨unused', reads⟩
            · obtain ⟨rfl, rfl⟩ := Prod.mk.inj (Except.ok.inj popped)
              exact ⟨unused', reads⟩
            · obtain ⟨rfl, rfl⟩ := Prod.mk.inj (Except.ok.inj popped)
              exact ⟨unused', reads⟩

theorem pop_starts : Leads (l.shared (I := I) (fun _ => none) closed .idle)
    (l.shared (fun _ => none) closed (.advancing none)) := by
  refine .single (a := .pop) trivial ?_
  show (l.shared (I := I) (fun _ => none) closed .idle).step .pop = _
  simp [SharedList.step, SharedList.allowed, BlockList.shared, perform, receives]

theorem tryPop_starts : Leads (l.shared (I := I) (fun _ => none) closed .idle)
    (l.shared (fun _ => none) closed (.advancing (some l.tailPosition))) := by
  have called : Leads (l.shared (I := I) (fun _ => none) closed .idle) (l.shared (fun _ => none) closed .called) := by
    refine .single (a := .tryPop) trivial ?_
    show (l.shared (I := I) (fun _ => none) closed .idle).step .tryPop = _
    simp [SharedList.step, SharedList.allowed, BlockList.shared, perform, receives]
  exact called.trans (receives_step none (by simp) (by simp) rfl)

end Popping

section Traffic

theorem tryPop_leads {l l' : BlockList T} {result : TryPopResult T} (unused : l.Unused)
    (reached : (machine I T).Reachable (l.shared (fun _ => none) closed .idle)) (popped : l.tryPop = .ok (result, l')) :
    l'.Unused ∧ Leads (l.shared (I := I) (fun _ => none) closed .idle) (l'.shared (fun _ => none) closed .idle) := by
  simp only [BlockList.tryPop, Bind.bind, Except.bind] at popped
  cases ran : l.pop with
  | error fault => simp [ran] at popped
  | ok r =>
    obtain ⟨ret, l₁⟩ := r
    obtain ⟨unused', pops⟩ := pop_leads unused (tryPop_starts.reachable reached) ran
    have same : l₁ = l' := by
      rw [ran] at popped
      rcases ret with _ | (value | _)
      · by_cases empty : l.tailPosition = l₁.index
        · simp only [if_pos empty, pure, Except.pure, Except.ok.injEq, Prod.mk.injEq] at popped
          exact popped.2
        · simp only [if_neg empty, pure, Except.pure, Except.ok.injEq, Prod.mk.injEq] at popped
          exact popped.2
      · simp only [pure, Except.pure, Except.ok.injEq, Prod.mk.injEq] at popped
        exact popped.2
      · simp only [pure, Except.pure, Except.ok.injEq, Prod.mk.injEq] at popped
        exact popped.2
    rw [← same]
    exact ⟨unused', tryPop_starts.trans pops⟩

theorem step_shared [Nonempty I] {r u : Traffic T} {a : ListAction T} (unused : r.list.Unused)
    (reached : (machine I T).Reachable (r.list.shared (fun _ => none) r.closed .idle)) (stepped : r.step a = .next u) :
    u.list.Unused ∧ (machine I T).Reachable (u.list.shared (fun _ => none) u.closed .idle) := by
  obtain ⟨i⟩ := ‹Nonempty I›
  cases a with
  | push value =>
    simp only [Traffic.step] at stepped
    split at stepped
    next => cases stepped
    next opened =>
      rw [Bool.not_eq_true] at opened
      cases pushed : r.list.push value with
      | error fault => simp [pushed, Outcome.attempt] at stepped
      | ok l =>
        simp only [pushed, Outcome.attempt_ok, Outcome.next.injEq] at stepped
        subst stepped
        rw [opened] at reached
        obtain ⟨unused', leads⟩ := push_leads i unused reached pushed
        refine ⟨unused', ?_⟩
        rw [opened]
        exact leads.reachable reached
  | close =>
    simp only [Traffic.step] at stepped
    split at stepped
    next => cases stepped
    next opened =>
      rw [Bool.not_eq_true] at opened
      cases sealed : r.list.close with
      | error fault => simp [sealed, Outcome.attempt] at stepped
      | ok l =>
        simp only [sealed, Outcome.attempt_ok, Outcome.next.injEq] at stepped
        subst stepped
        rw [opened] at reached
        obtain ⟨unused', leads⟩ := close_leads i unused reached sealed
        exact ⟨unused', leads.reachable reached⟩
  | pop =>
    simp only [Traffic.step] at stepped
    cases popped : r.list.pop with
    | error fault => simp [popped, Outcome.attempt] at stepped
    | ok x =>
      obtain ⟨ret, l⟩ := x
      obtain ⟨unused', leads⟩ := pop_leads unused (pop_starts.reachable reached) popped
      have reached' := (pop_starts.trans leads).reachable reached
      rw [popped, Outcome.attempt_ok] at stepped
      rcases ret with _ | (value | _) <;> cases stepped <;> exact ⟨unused', reached'⟩
  | tryPop =>
    simp only [Traffic.step] at stepped
    cases popped : r.list.tryPop with
    | error fault => simp [popped, Outcome.attempt] at stepped
    | ok x =>
      obtain ⟨result, l⟩ := x
      obtain ⟨unused', leads⟩ := tryPop_leads unused reached popped
      have reached' := leads.reachable reached
      rw [popped, Outcome.attempt_ok] at stepped
      cases result <;> cases stepped <;> exact ⟨unused', reached'⟩

/-- Whatever the list does when its calls run one after the other, the list that is shared does too. -/
theorem traffic_shared [Nonempty I] {r : Traffic T} (reached : (traffic T).Reachable r) :
    r.list.Unused ∧ (machine I T).Reachable (r.list.shared (fun _ => none) r.closed .idle) := by
  refine reached.preserved (P := fun r => r.list.Unused ∧
    (machine I T).Reachable (r.list.shared (fun _ => none) r.closed .idle)) ?_ ?_
  · intro r first
    obtain rfl : r = ⟨.channel, [], [], false⟩ := first
    refine ⟨fun a beyond => ?_, .initial rfl⟩
    have other : a ≠ 0 := Nat.ne_of_gt beyond
    simp [BlockList.channel, other]
  · intro r a u carries _ stepped
    exact step_shared carries.1 carries.2 stepped

theorem traffic_shared_run : ∃ r : Traffic Nat, r.closed = true ∧
    (machine Bool Nat).Reachable (r.list.shared (fun _ => none) r.closed .idle) := by
  obtain ⟨r, ran, facts⟩ := Option.map_eq_some_iff.mp exampleTraffic_moves
  simp only [Prod.mk.injEq] at facts
  exact ⟨r, facts.2.2, (traffic_shared (System.reachable_run _ (.initial rfl) ran)).2⟩

end Traffic

end Osaka.Sync.Mpsc.SharedList
