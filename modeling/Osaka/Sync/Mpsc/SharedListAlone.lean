import Osaka.Sync.Mpsc.SharedListRuns

set_option autoImplicit false

namespace Osaka.Sync.Mpsc

open Transitions

variable {I T : Type}

def BlockList.shared (l : BlockList T) (senders : I → Option (SharedList.Sending T)) (closed : Bool)
    (receiver : SharedList.Receiving) : SharedList I T where
  blocks := l.blocks
  blockTail := l.blockTail
  tailPosition := l.tailPosition
  senders := senders
  closed := closed
  head := l.head
  index := l.index
  freeHead := l.freeHead
  receiver := receiver

def BlockList.Unused (l : BlockList T) : Prop := ∀ a, l.allocated ≤ a → l.blocks a = none

theorem BlockList.Unused.setBlock {l : BlockList T} (unused : l.Unused) {address : Nat} {b : Block T}
    (found : l.blocks address = some b) (b' : Block T) : (l.setBlock address b').Unused := by
  intro a beyond
  have other : a ≠ address := by
    rintro rfl
    rw [unused a beyond] at found
    cases found
  show Function.update l.blocks address (some b') a = none
  rw [Function.update_of_ne other]
  exact unused a beyond

theorem BlockList.block_ok {l : BlockList T} {address : Nat} {b : Block T} (found : l.block address = .ok b) :
    l.blocks address = some b := by
  unfold BlockList.block at found
  split at found
  next there =>
    cases found
    exact there
  next => cases found

def BlockList.allocate (l : BlockList T) (b : Block T) : BlockList T :=
  { l.setBlock l.allocated (.new (b.startIndex + BLOCK_CAP)) with allocated := l.allocated + 1 }

namespace SharedList

variable [Fintype I] [DecidableEq I] {s t u : SharedList I T} {i : I} {call : Sending T} {closed : Bool}

abbrev Leads (s t : SharedList I T) : Prop := (machine I T).Leads s t

theorem leads_sending (address : Nat) (sender : s.senders i = some call)
    (free : ∀ ptr tries, call.stage = .growing ptr tries → s.blocks address = none)
    (stepped : s.stepSending i call address = .ok t) : Leads s t := by
  refine .single (a := .stepSender i address) trivial ?_
  have allowed : s.allowed (.stepSender i address) = true := by
    simp only [SharedList.allowed, sender]
    split
    next stage => simp [free _ _ stage]
    next => rfl
  show s.step _ = _
  simp [SharedList.step, allowed, perform, sender, stepped]

theorem leads_receiver (answer : Option (Answer T)) (busy : s.receiver ≠ .idle) (more : s.receiver ≠ .dropping none)
    (stepped : s.stepReceiver = .ok (answer, t)) : Leads s t := by
  refine .single (a := .stepReceiver) trivial ?_
  show s.step _ = _
  simp [SharedList.step, SharedList.allowed, busy, more, perform, stepped]

/-- Only the call `i` is in progress. -/
def calling (i : I) (slot : Nat) (value : Option T) (stage : Stage) : I → Option (Sending T) :=
  Function.update (fun _ => none) i (some ⟨slot, value, stage⟩)

section Pushing

variable {l l' : BlockList T} {slot found address : Nat} {value : Option T} {stage stage' : Stage} {tries : Bool}

omit [Fintype I] in
theorem calling_self : (l.shared (calling i slot value stage) closed .idle).senders i = some ⟨slot, value, stage⟩ := by
  simp [BlockList.shared, calling]

omit [Fintype I] in
theorem shared_goes : (l.shared (calling i slot value stage) closed .idle).goes i ⟨slot, value, stage⟩ stage' =
    l.shared (calling i slot value stage') closed .idle := by
  simp [goes, setSender, BlockList.shared, calling]

omit [Fintype I] [DecidableEq I] in
theorem Chain.next {c : Chart I T} {n : Nat} {b : Block T} (chain : Chain c s) (here : c.At n address)
    (found : s.blocks address = some b) : s.loadNext b = .ok b.next := by
  obtain ⟨b', found', shows⟩ := chain.shows _ _ here
  obtain rfl := Option.some.inj (found'.symm.trans found)
  rcases chain.loadNext here shows with ⟨more, loaded⟩ | ⟨last, loaded⟩
  · rw [loaded, shows.next, if_pos more]
  · rw [loaded, shows.next, if_neg (by omega)]

theorem loads_next {b : Block T} (reached : (machine I T).Reachable s) (sender : s.senders i = some call)
    (stage : call.stage = .following address tries) (found : s.blocks address = some b) :
    s.loadNext b = .ok b.next := by
  rcases settled reached with ⟨c, inv⟩ | ⟨c, fading⟩
  · obtain ⟨n, stands, _⟩ := (inv.calls i call sender).stands
    rw [stage] at stands
    exact inv.chain.next stands.1 found
  · rw [fading.quiet i] at sender
    cases sender

theorem leads_next {b : Block T} (unused : l.Unused) (found : l.blocks address = some b)
    (reached : (machine I T).Reachable (l.shared (calling i slot value (.following address tries)) closed .idle)) :
    (l.nextOrGrow address b).2.Unused ∧
      Leads (l.shared (calling i slot value (.following address tries)) closed .idle)
        ((l.nextOrGrow address b).2.shared
          (calling i slot value (.judging address (l.nextOrGrow address b).1 tries)) closed .idle) := by
  have loaded := loads_next reached calling_self rfl found
  have there : (l.shared (calling i slot value (.following address tries)) closed .idle).block address = .ok b := by
    simp [SharedList.block, BlockList.shared, found]
  cases next : b.next with
  | some further =>
    rw [next] at loaded
    simp only [BlockList.nextOrGrow, next]
    refine ⟨unused, leads_sending 0 calling_self (by simp) ?_⟩
    simp only [stepSending, there, loaded, Bind.bind, Except.bind, pure, Except.pure, shared_goes]
  | none =>
    rw [next] at loaded
    have apart : address ≠ l.allocated := by
      rintro rfl
      rw [unused _ (Nat.le_refl _)] at found
      cases found
    simp only [BlockList.nextOrGrow, next, BlockList.grow]
    have grown : (l.allocate b).blocks address = some b := by
      simp [BlockList.allocate, BlockList.setBlock, apart, found]
    have unused' : (l.allocate b).Unused := by
      intro a beyond
      have beyond : l.allocated + 1 ≤ a := beyond
      have other : a ≠ l.allocated := by omega
      simp [BlockList.allocate, BlockList.setBlock, other, unused a (by omega)]
    refine ⟨unused'.setBlock grown _, ?_⟩
    have ends : Leads (l.shared (calling i slot value (.following address tries)) closed .idle)
        (l.shared (calling i slot value (.growing address tries)) closed .idle) := by
      refine leads_sending 0 calling_self (by simp) ?_
      simp only [stepSending, there, loaded, Bind.bind, Except.bind, pure, Except.pure, shared_goes]
    have allocates : Leads (l.shared (calling i slot value (.growing address tries)) closed .idle)
        ((l.allocate b).shared
            (calling i slot value (.linking address l.allocated tries)) closed .idle) := by
      refine leads_sending l.allocated calling_self (fun _ _ _ => unused _ (Nat.le_refl _)) ?_
      have there : (l.shared (calling i slot value (.growing address tries)) closed .idle).block address = .ok b := by
        simp [SharedList.block, BlockList.shared, found]
      simp only [stepSending, there, Bind.bind, Except.bind, pure, Except.pure]
      exact congrArg Except.ok (shared_goes (l := l.allocate b))
    refine ends.trans (allocates.trans (leads_sending 0 calling_self (by simp) ?_))
    have there : ((l.allocate b).shared (I := I)
          (calling i slot value (.linking address l.allocated tries)) closed .idle).block address = .ok b := by
      simp only [SharedList.block, BlockList.shared, grown]
    simp only [stepSending, there, next, Bind.bind, Except.bind, pure, Except.pure]
    exact congrArg Except.ok (shared_goes (l := (l.allocate b).setBlock address { b with next := some l.allocated }))

theorem next_final {b : Block T} (there : l.blocks address = some b) :
    (l.nextOrGrow address b).2.blockTail = l.blockTail ∧ (l.nextOrGrow address b).2.tailPosition = l.tailPosition ∧
      ∃ b', (l.nextOrGrow address b).2.blocks address = some b' ∧ b'.isFinal = b.isFinal := by
  cases next : b.next with
  | some further =>
    refine ⟨?_, ?_, b, ?_, rfl⟩
    · simp [BlockList.nextOrGrow, next]
    · simp [BlockList.nextOrGrow, next]
    · simp [BlockList.nextOrGrow, next, there]
  | none =>
    refine ⟨?_, ?_, { b with next := some l.allocated }, ?_, rfl⟩
    · simp [BlockList.nextOrGrow, next, BlockList.grow, BlockList.setBlock]
    · simp [BlockList.nextOrGrow, next, BlockList.grow, BlockList.setBlock]
    · simp [BlockList.nextOrGrow, next, BlockList.grow, BlockList.setBlock]

theorem advance_leads {b : Block T} {next : Nat} (there : l.blocks address = some b) (tail : l.blockTail = address) :
    Leads (l.shared (calling i slot value (.advancing address next)) closed .idle)
      ((({ l with blockTail := next } : BlockList T).setBlock address (b.txRelease l.tailPosition)).shared
        (calling i slot value (.walking next true)) closed .idle) := by
  have passed (stage : Stage) : (({ l with blockTail := next } : BlockList T).shared
      (calling i slot value stage) closed .idle).block address = .ok b := by
    simp [SharedList.block, BlockList.shared, there]
  have advances : Leads (l.shared (calling i slot value (.advancing address next)) closed .idle)
      (({ l with blockTail := next } : BlockList T).shared
        (calling i slot value (.observing address next)) closed .idle) := by
    refine leads_sending 0 calling_self (by simp) ?_
    have tail : (l.shared (I := I) (calling i slot value (.advancing address next)) closed .idle).blockTail = address :=
      tail
    simp only [stepSending, if_pos tail]
    exact congrArg Except.ok (shared_goes (l := { l with blockTail := next }))
  have observes : Leads
      (({ l with blockTail := next } : BlockList T).shared
        (calling i slot value (.observing address next)) closed .idle)
      (({ l with blockTail := next } : BlockList T).shared
        (calling i slot value (.recording address next l.tailPosition)) closed .idle) := by
    refine leads_sending 0 calling_self (by simp) ?_
    simp only [stepSending, shared_goes]
    rfl
  have records : Leads
      (({ l with blockTail := next } : BlockList T).shared
        (calling i slot value (.recording address next l.tailPosition)) closed .idle)
      ((({ l with blockTail := next } : BlockList T).setBlock address
        { b with observedTailPosition := l.tailPosition }).shared
          (calling i slot value (.releasing address next)) closed .idle) := by
    refine leads_sending 0 calling_self (by simp) ?_
    simp only [stepSending, passed, Bind.bind, Except.bind, pure, Except.pure]
    exact congrArg Except.ok (shared_goes (l := ({ l with blockTail := next } : BlockList T).setBlock address
      { b with observedTailPosition := l.tailPosition }))
  refine advances.trans (observes.trans (records.trans (leads_sending 0 calling_self (by simp) ?_)))
  have recorded : ((({ l with blockTail := next } : BlockList T).setBlock address
      { b with observedTailPosition := l.tailPosition }).shared
        (calling i slot value (.releasing address next)) closed .idle).block address =
      .ok { b with observedTailPosition := l.tailPosition } := by
    simp [SharedList.block, BlockList.shared, BlockList.setBlock]
  have twice : (({ l with blockTail := next } : BlockList T).setBlock address
      { b with observedTailPosition := l.tailPosition }).setBlock address (b.txRelease l.tailPosition) =
      ({ l with blockTail := next } : BlockList T).setBlock address (b.txRelease l.tailPosition) := by
    simp [BlockList.setBlock]
  simp only [stepSending, recorded, Bind.bind, Except.bind, pure, Except.pure]
  rw [← twice]
  exact congrArg Except.ok (shared_goes (l := (({ l with blockTail := next } : BlockList T).setBlock address
      { b with observedTailPosition := l.tailPosition }).setBlock address (b.txRelease l.tailPosition)))

theorem walk_leads (fuel : Nat) (unused : l.Unused)
    (reached : (machine I T).Reachable (l.shared (calling i slot value (.walking address tries)) closed .idle))
    (walked : l.walk (startIndex slot) fuel address tries = .ok (found, l')) :
    l'.Unused ∧ Leads (l.shared (calling i slot value (.walking address tries)) closed .idle)
      (l'.shared (calling i slot value (.writing found)) closed .idle) := by
  induction fuel generalizing l address tries with
  | zero => cases walked
  | succ fuel ih =>
    cases there : l.blocks address with
    | none => simp [BlockList.walk, BlockList.block, there, Bind.bind, Except.bind] at walked
    | some b =>
      have found' (stage : Stage) : (l.shared (calling i slot value stage) closed .idle).block address = .ok b := by
        simp [SharedList.block, BlockList.shared, there]
      cases at_index : b.isAtIndex (startIndex slot) with
      | true =>
        simp [BlockList.walk, BlockList.block, there, at_index, Bind.bind, Except.bind, pure, Except.pure] at walked
        obtain ⟨rfl, rfl⟩ := walked
        refine ⟨unused, leads_sending 0 calling_self (by simp) ?_⟩
        simp only [stepSending, found', at_index, if_true, Bind.bind, Except.bind, pure, Except.pure, shared_goes]
      | false =>
        have passes : Leads (l.shared (calling i slot value (.walking address tries)) closed .idle)
            (l.shared (calling i slot value (.following address tries)) closed .idle) := by
          refine leads_sending 0 calling_self (by simp) ?_
          simp only [stepSending, found', at_index, Bind.bind, Except.bind, pure, Except.pure, shared_goes]
          rfl
        obtain ⟨unused', follows⟩ := leads_next unused there (passes.reachable reached)
        obtain ⟨blockTail, tailPosition, b', there', final⟩ := next_final there
        cases grew : l.nextOrGrow address b with
        | mk next l₁ =>
        rw [grew] at unused' follows there'
        have there' : l₁.blocks address = some b' := there'
        have found'' (stage : Stage) :
            (l₁.shared (calling i slot value stage) closed .idle).block address = .ok b' := by
          simp [SharedList.block, BlockList.shared, there']
        have before := passes.trans follows
        simp only [BlockList.walk, BlockList.block, there, at_index, grew, Bind.bind, Except.bind, there',
          Bool.false_eq_true, if_false] at walked
        cases judged : tries && b.isFinal with
        | false =>
          rw [judged] at walked
          have leaves : Leads (l₁.shared (calling i slot value (.judging address next tries)) closed .idle)
              (l₁.shared (calling i slot value (.walking next false)) closed .idle) := by
            refine leads_sending 0 calling_self (by simp) ?_
            simp only [stepSending, found'', final, judged, Bind.bind, Except.bind, pure, Except.pure, shared_goes]
            rfl
          have before := before.trans leaves
          obtain ⟨unused'', after⟩ := ih unused' (before.reachable reached) walked
          exact ⟨unused'', before.trans after⟩
        | true =>
          rw [judged] at walked
          have finds : Leads (l₁.shared (calling i slot value (.judging address next tries)) closed .idle)
              (l₁.shared (calling i slot value (.advancing address next)) closed .idle) := by
            refine leads_sending 0 calling_self (by simp) ?_
            simp only [stepSending, found'', final, judged, if_true, Bind.bind, Except.bind, pure, Except.pure,
              shared_goes]
          have before := before.trans finds
          by_cases tail : l₁.blockTail = address
          · rw [if_pos rfl, if_pos tail] at walked
            have advances : Leads (l₁.shared (calling i slot value (.advancing address next)) closed .idle)
                ((({ l₁ with blockTail := next } : BlockList T).setBlock address (b'.txRelease l₁.tailPosition)).shared
                  (calling i slot value (.walking next true)) closed .idle) := advance_leads there' tail
            have before := before.trans advances
            have there'' : ({ l₁ with blockTail := next } : BlockList T).blocks address = some b' := there'
            have unused'' : ({ l₁ with blockTail := next } : BlockList T).Unused := unused'
            obtain ⟨unused'', after⟩ := ih (unused''.setBlock there'' _) (before.reachable reached) walked
            exact ⟨unused'', before.trans after⟩
          · rw [if_pos rfl, if_neg tail] at walked
            have trails : Leads (l₁.shared (calling i slot value (.advancing address next)) closed .idle)
                (l₁.shared (calling i slot value (.walking next false)) closed .idle) := by
              refine leads_sending 0 calling_self (by simp) ?_
              have tail : (l₁.shared (I := I) (calling i slot value (.advancing address next)) closed .idle).blockTail ≠
                  address := tail
              simp only [stepSending, if_neg tail, shared_goes]
            have before := before.trans trails
            obtain ⟨unused'', after⟩ := ih unused' (before.reachable reached) walked
            exact ⟨unused'', before.trans after⟩

omit [Fintype I] in
theorem calling_ends : (l.shared (calling i slot value stage) closed .idle).setSender i none =
    l.shared (fun _ => none) closed .idle := by
  have none' : Function.update (calling i slot value stage) i none = fun _ => none := by
    funext k
    by_cases own : k = i <;> simp [calling, own]
  simp only [setSender, BlockList.shared, none']

theorem find_leads (unused : l.Unused)
    (reached : (machine I T).Reachable (l.shared (calling i slot value .claimed) closed .idle))
    (found' : l.findBlock slot = .ok (found, l')) :
    l'.Unused ∧ Leads (l.shared (calling i slot value .claimed) closed .idle)
      (l'.shared (calling i slot value (.writing found)) closed .idle) := by
  cases there : l.blocks l.blockTail with
  | none => simp [BlockList.findBlock, BlockList.block, there, Bind.bind, Except.bind] at found'
  | some b =>
    have loads : Leads (l.shared (calling i slot value .claimed) closed .idle)
        (l.shared (calling i slot value (.loaded l.blockTail)) closed .idle) := by
      refine leads_sending 0 calling_self (by simp) ?_
      simp only [stepSending, shared_goes]
      rfl
    have measures : Leads (l.shared (calling i slot value (.loaded l.blockTail)) closed .idle)
        (l.shared (calling i slot value (.walking l.blockTail
          (decide (b.distance (startIndex slot) > offset slot)))) closed .idle) := by
      refine leads_sending 0 calling_self (by simp) ?_
      have there : (l.shared (calling i slot value (.loaded l.blockTail)) closed .idle).block l.blockTail = .ok b := by
        simp [SharedList.block, BlockList.shared, there]
      simp only [stepSending, there, Bind.bind, Except.bind, pure, Except.pure, shared_goes]
    have before := loads.trans measures
    simp only [BlockList.findBlock, BlockList.block, there, Bind.bind, Except.bind] at found'
    obtain ⟨unused', after⟩ := walk_leads _ unused (before.reachable reached) found'
    exact ⟨unused', before.trans after⟩

theorem push_leads {v : T} (i : I) (unused : l.Unused)
    (reached : (machine I T).Reachable (l.shared (fun _ => none) false .idle)) (pushed : l.push v = .ok l') :
    l'.Unused ∧ Leads (l.shared (I := I) (fun _ => none) false .idle) (l'.shared (fun _ => none) false .idle) := by
  have claims : Leads (l.shared (I := I) (fun _ => none) false .idle)
      (({ l with tailPosition := l.tailPosition + 1 } : BlockList T).shared
        (calling i l.tailPosition (some v) .claimed) false .idle) := by
    refine .single (a := .push i v) trivial ?_
    show (l.shared (I := I) (fun _ => none) false .idle).step (.push i v) = _
    simp [SharedList.step, SharedList.allowed, SharedList.dropped, perform, BlockList.shared, claim, setSender, calling]
  simp only [BlockList.push, Bind.bind, Except.bind] at pushed
  cases found' : ({ l with tailPosition := l.tailPosition + 1 } : BlockList T).findBlock l.tailPosition with
  | error fault => simp [found'] at pushed
  | ok r =>
    obtain ⟨address, l₁⟩ := r
    have unused₁ : ({ l with tailPosition := l.tailPosition + 1 } : BlockList T).Unused := unused
    obtain ⟨unused', finds⟩ := find_leads unused₁ (claims.reachable reached) found'
    cases there : l₁.blocks address with
    | none => simp [found', BlockList.block, there] at pushed
    | some b =>
      cases empty : b.values (offset l.tailPosition) with
      | some w => simp [found', BlockList.block, there, Block.write, empty] at pushed
      | none =>
        simp only [found', BlockList.block, there, Block.write, empty, pure, Except.pure, Except.ok.injEq] at pushed
        subst pushed
        refine ⟨unused'.setBlock there _, (claims.trans finds).trans ?_⟩
        have writes : Leads (l₁.shared (calling i l.tailPosition (some v) (.writing address)) false .idle)
            ((l₁.setBlock address
              { b with values := Function.update b.values (offset l.tailPosition) (some v) }).shared
                (calling i l.tailPosition (some v) (.publishing address)) false .idle) := by
          refine leads_sending 0 calling_self (by simp) ?_
          have there : (l₁.shared (calling i l.tailPosition (some v) (.writing address)) false .idle).block address =
              .ok b := by
            simp [SharedList.block, BlockList.shared, there]
          simp only [stepSending, there, empty, Bind.bind, Except.bind, pure, Except.pure]
          exact congrArg Except.ok (shared_goes (l := l₁.setBlock address
            { b with values := Function.update b.values (offset l.tailPosition) (some v) }))
        refine writes.trans (leads_sending 0 calling_self (by simp) ?_)
        have there : ((l₁.setBlock address
            { b with values := Function.update b.values (offset l.tailPosition) (some v) }).shared
              (calling i l.tailPosition (some v) (.publishing address)) false .idle).block address =
            .ok { b with values := Function.update b.values (offset l.tailPosition) (some v) } := by
          simp [SharedList.block, BlockList.shared, BlockList.setBlock]
        simp only [stepSending, there, Bind.bind, Except.bind, pure, Except.pure]
        refine congrArg Except.ok ((calling_ends (l := (l₁.setBlock address
          { b with values := Function.update b.values (offset l.tailPosition) (some v) }).setBlock address
            { b with
              values := Function.update b.values (offset l.tailPosition) (some v)
              readySlots := PackedWord.set b.readySlots (offset l.tailPosition) })).trans ?_)
        simp [BlockList.setBlock, BlockList.shared]

theorem close_leads (i : I) (unused : l.Unused)
    (reached : (machine I T).Reachable (l.shared (fun _ => none) false .idle)) (sealed : l.close = .ok l') :
    l'.Unused ∧ Leads (l.shared (I := I) (fun _ => none) false .idle) (l'.shared (fun _ => none) true .idle) := by
  have claims : Leads (l.shared (I := I) (fun _ => none) false .idle)
      (({ l with tailPosition := l.tailPosition + 1 } : BlockList T).shared
        (calling i l.tailPosition none .claimed) true .idle) := by
    refine .single (a := .close i) trivial ?_
    show (l.shared (I := I) (fun _ => none) false .idle).step (.close i) = _
    simp [SharedList.step, SharedList.allowed, SharedList.dropped, perform, BlockList.shared, claim, setSender, calling]
  simp only [BlockList.close, Bind.bind, Except.bind] at sealed
  cases found' : ({ l with tailPosition := l.tailPosition + 1 } : BlockList T).findBlock l.tailPosition with
  | error fault => simp [found'] at sealed
  | ok r =>
    obtain ⟨address, l₁⟩ := r
    have unused₁ : ({ l with tailPosition := l.tailPosition + 1 } : BlockList T).Unused := unused
    obtain ⟨unused', finds⟩ := find_leads unused₁ (claims.reachable reached) found'
    cases there : l₁.blocks address with
    | none => simp [found', BlockList.block, there] at sealed
    | some b =>
      simp only [found', BlockList.block, there, pure, Except.pure, Except.ok.injEq] at sealed
      subst sealed
      refine ⟨unused'.setBlock there _, (claims.trans finds).trans
        (leads_sending 0 calling_self (by simp) ?_)⟩
      have there : (l₁.shared (calling i l.tailPosition none (.writing address)) true .idle).block address = .ok b := by
        simp [SharedList.block, BlockList.shared, there]
      simp only [stepSending, there, Bind.bind, Except.bind, pure, Except.pure]
      exact congrArg Except.ok (calling_ends (l := l₁.setBlock address b.txClose))

end Pushing

end SharedList

end Osaka.Sync.Mpsc
