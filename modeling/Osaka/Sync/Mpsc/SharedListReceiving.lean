import Osaka.Sync.Mpsc.SharedListSending

set_option autoImplicit false

namespace Osaka.Sync.Mpsc.SharedList

open Transitions

variable {I T : Type} {c d : Chart I T} {s t : SharedList I T} {b : Block T} {n m ptr a : Nat} {tried : Option Nat}

section Owning

variable {blocks : Nat → Option (Block T)} {owned : Option I → Option Nat} [DecidableEq I]

theorem Owns.unlinks (owns : Owns c blocks owned) (apart : ∀ m n ptr, c.At m ptr → c.At n ptr → m = n)
    (here : c.At c.first a) (there : blocks a ≠ none) (none' : owned none = none) :
    Owns { c with first := c.first + 1 } blocks (Function.update owned none (some a)) := by
  have still (q : Option I) (x : Nat) (owner : Function.update owned none (some a) q = some x) :
      q = none ∧ x = a ∨ q ≠ none ∧ owned q = some x := by
    by_cases own : q = none
    · subst own
      rw [Function.update_self, Option.some.injEq] at owner
      exact .inl ⟨rfl, owner.symm⟩
    · rw [Function.update_of_ne own] at owner
      exact .inr ⟨own, owner⟩
  have before (n x : Nat) (at_x : ({ c with first := c.first + 1 } : Chart I T).At n x) : c.At n x ∧ n ≠ c.first := by
    obtain ⟨from', within⟩ := at_x
    have from' : c.first + 1 ≤ n := from'
    exact ⟨⟨Nat.le_of_succ_le from', within⟩, Nat.ne_of_gt from'⟩
  refine ⟨fun q r x first second => ?_, fun q x n owner at_x => ?_, fun i x owner => ?_, fun q x owner => ?_,
    fun x found => ?_⟩
  · rcases still q x first with ⟨rfl, rfl⟩ | ⟨_, first⟩ <;> rcases still r x second with ⟨rfl, same⟩ | ⟨_, second⟩
    · rfl
    · exact absurd here (owns.outside r x _ second)
    · exact absurd (same ▸ here) (owns.outside q x _ first)
    · exact owns.apart q r x first second
  · obtain ⟨at_x, other⟩ := before n x at_x
    rcases still q x owner with ⟨_, rfl⟩ | ⟨_, owner⟩
    · exact other (apart _ _ _ at_x here)
    · exact owns.outside q x n owner at_x
  · rcases still _ x owner with ⟨own, _⟩ | ⟨_, owner⟩
    · cases own
    · exact owns.blank i x owner
  · rcases still q x owner with ⟨_, rfl⟩ | ⟨_, owner⟩
    · exact there
    · exact owns.there q x owner
  · rcases owns.found x found with ⟨n, at_x⟩ | ⟨q, owner⟩
    · by_cases first : n = c.first
      · subst first
        exact .inr ⟨none, by rw [Function.update_self, at_x.unique here]⟩
      · have from' := at_x.1
        exact .inl ⟨n, by show c.first + 1 ≤ n; omega, at_x.2⟩
    · have other : q ≠ none := by
        rintro rfl
        rw [none'] at owner
        cases owner
      exact .inr ⟨q, by rw [Function.update_of_ne other, owner]⟩

theorem Owns.frees (owns : Owns c blocks owned) (mine : owned none = some a) :
    Owns c (Function.update blocks a none) (Function.update owned none none) := by
  have still (q : Option I) (x : Nat) (owner : Function.update owned none none q = some x) :
      owned q = some x ∧ x ≠ a := by
    by_cases own : q = none
    · simp [own] at owner
    · rw [Function.update_of_ne own] at owner
      refine ⟨owner, ?_⟩
      rintro rfl
      exact own (owns.apart q none x owner mine)
  refine ⟨fun q r x first second => ?_, fun q x n owner => ?_, fun i x owner => ?_, fun q x owner => ?_,
    fun x found => ?_⟩
  · exact owns.apart q r x (still q x first).1 (still r x second).1
  · exact owns.outside q x n (still q x owner).1
  · obtain ⟨owner, other⟩ := still _ x owner
    rw [Blank, Function.update_of_ne other]
    exact owns.blank i x owner
  · obtain ⟨owner, other⟩ := still q x owner
    rw [Function.update_of_ne other]
    exact owns.there q x owner
  · have other : x ≠ a := by
      rintro rfl
      simp at found
    rw [Function.update_of_ne other] at found
    rcases owns.found x found with here | ⟨q, owner⟩
    · exact .inl here
    · have own : q ≠ none := by
        rintro rfl
        exact other (Option.some.inj (owner.symm.trans mine))
      exact .inr ⟨q, by rw [Function.update_of_ne own, owner]⟩

end Owning

section Serving

variable [DecidableEq I] {receiver : Receiving}

theorem owned_receiver (senders : t.senders = s.senders) :
    t.owned = Function.update s.owned none t.receiver.block := by
  funext p
  cases p with
  | none => simp [owned]
  | some k => simp [owned, senders]

theorem Inv.rests (inv : Inv c s) (receiver : Receiving) {blocks : Nat → Option (Block T)} {head freeHead : Nat}
    (slots : d.slots = c.slots) (phase : d.phase = c.phase) (tail : d.tail = c.tail) (last : c.last ≤ d.last)
    (chain : Chain d { s with blocks := blocks, head := head, freeHead := freeHead })
    (owns : Owns d blocks (Function.update s.owned none receiver.block))
    (linked : ∀ n slot, s.index ≤ slot → c.Guarded n slot → ∀ m ptr, n ≤ m → c.At m ptr → d.At m ptr)
    (apart : ∀ i a, s.owned (some i) = some a → blocks a = s.blocks a) (near : 32 * d.head ≤ s.index)
    (arrived : receiver.arrived = true → s.index / 32 = d.head) (fits : receiver.Fits d blocks s.index) :
    Inv d { s with blocks := blocks, head := head, freeHead := freeHead, receiver := receiver } := by
  obtain ⟨free, taken, touched, passed, held, distinct, opened, closed⟩ := inv.ledger
  refine ⟨⟨chain.head, chain.tail, chain.apart, chain.shows, chain.blockTail, chain.headAt, chain.freeHead,
    chain.phases⟩, ?_, ⟨?_, ?_, ?_, ?_, ?_, distinct, ?_, ?_⟩, fun i call sends => ?_, near, arrived, fits⟩
  · have owned : SharedList.owned { s with blocks := blocks, head := head, freeHead := freeHead, receiver := receiver } =
        Function.update s.owned none receiver.block := owned_receiver rfl
    rw [owned]
    exact owns
  · rw [slots]
    exact free
  · rw [slots]
    exact taken
  · rw [slots]
    exact fun k there => Nat.le_trans (touched k there) last
  · rw [tail]
    exact passed
  · rw [slots]
    exact held
  · rw [slots]
    exact opened
  · rw [slots]
    exact closed
  · have sends : s.senders i = some call := sends
    have before := inv.calls i call sends
    refine before.mono (fun n => linked n _ (inv.slot_lt sends).2) (fun m _ => by rw [phase]) ?_ ?_ (by rw [slots])
      (by rw [tail]; exact before.ahead) fun a mine => apart i a (by simp [SharedList.owned, sends, mine])
    · intro m tailPosition stamped
      rw [phase] at stamped
      exact .inl stamped
    · rw [slots]
      exact fun _ there => there

theorem Inv.receives (inv : Inv c s) (block : receiver.block = s.receiver.block)
    (arrived : receiver.arrived = true → s.index / 32 = c.head) (fits : receiver.Fits c s.blocks s.index) :
    Inv c { s with receiver := receiver } := by
  have owned : Function.update s.owned none receiver.block = s.owned := by
    rw [Function.update_eq_self_iff, block]
    rfl
  refine inv.rests receiver rfl rfl rfl (Nat.le_refl _) inv.chain ?_ (fun _ _ _ _ _ _ _ here => here) (fun _ _ _ => rfl)
    inv.near arrived fits
  rw [owned]
  exact inv.owns

theorem Inv.keeps (inv : Inv c s) (mine : s.receiver.block = some a) (still : receiver.block = some a)
    (arrived : receiver.arrived = true → s.index / 32 = c.head)
    (fits : receiver.Fits c (Function.update s.blocks a (some b)) s.index) :
    Inv c { s.setBlock a b with receiver := receiver } := by
  have owner : s.owned none = some a := mine
  have owned : Function.update s.owned none receiver.block = s.owned := by
    rw [Function.update_eq_self_iff, still, owner]
  refine inv.rests receiver rfl rfl rfl (Nat.le_refl _) (inv.chain.outside (fun n => inv.owns.outside _ _ n owner) _) ?_
    (fun _ _ _ _ _ _ _ here => here) (fun i x theirs => ?_) inv.near arrived fits
  · rw [owned]
    refine inv.owns.rewrites (inv.owns.there _ _ owner) fun i theirs => ?_
    cases inv.owns.apart _ _ _ theirs owner
  · refine Function.update_of_ne ?_ _ _
    rintro rfl
    cases inv.owns.apart _ _ _ theirs owner

end Serving

section Moves

inductive ReceivingMoves (c : Chart I T) (s : SharedList I T) : Option (Answer T) × SharedList I T → Prop where
  | loads : s.receiver = .called → ReceivingMoves c s (s.receives (.advancing (some s.tailPosition)))
  | arrives (tried : Option Nat) : s.receiver = .advancing tried → s.index / 32 = c.head →
      ReceivingMoves c s (s.receives (.reclaiming tried))
  | seeks (tried : Option Nat) : s.receiver = .advancing tried → s.index / 32 ≠ c.head →
      ReceivingMoves c s (s.receives (.stepping tried))
  | steps (tried : Option Nat) : s.receiver = .stepping tried → c.head < c.last →
      ReceivingMoves c s ({ s with head := c.address (c.head + 1) }.receives (.advancing tried))
  | misses (tried : Option Nat) : s.receiver = .stepping tried → c.head = c.last →
      ReceivingMoves c s (s.returns tried none)
  | skips (tried : Option Nat) : s.receiver = .reclaiming tried → ReceivingMoves c s (s.receives (.reading tried))
  | looks (tried : Option Nat) : s.receiver = .reclaiming tried → c.first < c.head →
      (c.phase c.first).isReleased = true → ReceivingMoves c s (s.receives (.inspecting tried))
  | spares (tried : Option Nat) : s.receiver = .inspecting tried → ReceivingMoves c s (s.receives (.reading tried))
  | frees (tried : Option Nat) (tailPosition : Nat) : s.receiver = .inspecting tried →
      c.phase c.first = .released tailPosition → tailPosition ≤ s.index →
      ReceivingMoves c s (s.receives (.unlinking tried))
  | unlinks (tried : Option Nat) : s.receiver = .unlinking tried →
      ReceivingMoves c s ({ s with freeHead := c.address (c.first + 1) }.receives (.resetting tried s.freeHead))
  | resets (tried : Option Nat) (a : Nat) (b : Block T) : s.receiver = .resetting tried a → s.blocks a = some b →
      ReceivingMoves c s ((s.setBlock a b.reclaim).receives (.tailing tried a))
  | tails (tried : Option Nat) (a : Nat) : s.receiver = .tailing tried a →
      ReceivingMoves c s (s.receives (.numbering tried a s.blockTail 3))
  | numbers (tried : Option Nat) (a curr left m : Nat) (b : Block T) : s.receiver = .numbering tried a curr left →
      c.At m curr → s.blocks a = some b →
      ReceivingMoves c s
        ((s.setBlock a { b with startIndex := 32 * (m + 1) }).receives (.appending tried a curr left))
  | links (tried : Option Nat) (a curr left : Nat) (b : Block T) : s.receiver = .appending tried a curr left →
      c.At c.last curr → s.blocks curr = some b →
      ReceivingMoves c s ((s.setBlock curr { b with next := some a }).receives (.reclaiming tried))
  | runsOn (tried : Option Nat) (a curr left m : Nat) : s.receiver = .appending tried a curr left → c.At m curr →
      m < c.last → 1 < left → ReceivingMoves c s (s.receives (.numbering tried a (c.address (m + 1)) (left - 1)))
  | gives (tried : Option Nat) (a curr left : Nat) : s.receiver = .appending tried a curr left →
      ReceivingMoves c s (s.receives (.freeing tried a))
  | deallocates (tried : Option Nat) (a : Nat) : s.receiver = .freeing tried a →
      ReceivingMoves c s ({ s with blocks := Function.update s.blocks a none }.receives (.reclaiming tried))
  | finds (tried : Option Nat) : s.receiver = .reading tried → (c.slots s.index).isReady = true →
      ReceivingMoves c s (s.receives (.taking tried))
  | closes (tried : Option Nat) : s.receiver = .reading tried → (c.slots s.index).isReady = false →
      (∃ k, c.slots k = .sealed) → ReceivingMoves c s (s.returns tried (some .closed))
  | waits (tried : Option Nat) : s.receiver = .reading tried → (c.slots s.index).isReady = false →
      c.slots s.index ≠ .sealed → ReceivingMoves c s (s.returns tried none)
  | takes (tried : Option Nat) (value : T) (b : Block T) : s.receiver = .taking tried →
      c.slots s.index = .ready value → s.blocks s.head = some b →
      ReceivingMoves c s
        (some (s.answer tried (some (.value value))),
          { s.setBlock s.head { b with values := Function.update b.values (offset s.index) none } with
            index := s.index + 1
            receiver := .idle })

theorem Phase.of_released {phase : Phase I} (released : phase.isReleased = true) :
    ∃ tailPosition, phase = .released tailPosition := by
  cases phase with
  | released tailPosition => exact ⟨tailPosition, rfl⟩
  | ahead | passed | stamped | recorded => cases released

theorem Slot.of_ready {slot : Slot T} (ready : slot.isReady = true) (untaken : slot.isTaken = false) :
    ∃ value, slot = .ready value := by
  cases slot with
  | ready value => exact ⟨value, rfl⟩
  | taken => cases untaken
  | free | claimed | written | sealed => cases ready

theorem Inv.reading (inv : Inv c s) (arrived : s.receiver.arrived = true) :
    ∃ b, s.blocks s.head = some b ∧ s.block s.head = .ok b ∧ Shows c (s.index / 32) b ∧
      32 * (s.index / 32) + s.index % 32 = s.index ∧ (c.slots s.index).isTaken = false := by
  have here := inv.chain.at_head
  rw [← inv.arrived arrived] at here
  obtain ⟨b, there, found, shows⟩ := inv.chain.block here
  refine ⟨b, there, found, shows, Nat.div_add_mod _ _, ?_⟩
  cases taken : (c.slots s.index).isTaken with
  | false => rfl
  | true => exact absurd ((inv.ledger.taken _).mp taken) (Nat.lt_irrefl _)

/-- Nothing that the receiver accesses has been freed, and no value is taken that is not there. -/
theorem stepReceiver_moves (inv : Inv c s) (busy : s.receiver ≠ .idle) :
    ∃ r, s.stepReceiver = .ok r ∧ ReceivingMoves c s r := by
  have fits := inv.receiver
  have near := inv.near
  cases stage : s.receiver with
  | idle => exact absurd stage busy
  | called => exact ⟨_, by simp [stepReceiver, stage], .loads stage⟩
  | advancing tried =>
    obtain ⟨b, _, found, shows⟩ := inv.chain.block inv.chain.at_head
    cases there : b.isAtIndex (startIndex s.index) with
    | true =>
      refine ⟨_, ?_, .arrives tried stage ((shows.isAtIndex _).mp there).symm⟩
      simp [stepReceiver, stage, found, there, Bind.bind, Except.bind, pure, Except.pure]
    | false =>
      refine ⟨_, ?_, .seeks tried stage fun here => ?_⟩
      · simp [stepReceiver, stage, found, there, Bind.bind, Except.bind, pure, Except.pure]
      · rw [(shows.isAtIndex _).mpr here.symm] at there
        cases there
  | stepping tried =>
    obtain ⟨b, _, found, shows⟩ := inv.chain.block inv.chain.at_head
    rcases inv.chain.loadNext inv.chain.at_head shows with ⟨more, loaded⟩ | ⟨last, loaded⟩
    · refine ⟨_, ?_, .steps tried stage more⟩
      simp [stepReceiver, stage, found, loaded, Bind.bind, Except.bind, pure, Except.pure]
    · refine ⟨_, ?_, .misses tried stage last⟩
      simp [stepReceiver, stage, found, loaded, Bind.bind, Except.bind, pure, Except.pure]
  | reclaiming tried =>
    by_cases same : s.freeHead = s.head
    · exact ⟨_, by simp [stepReceiver, stage, same], .skips tried stage⟩
    · obtain ⟨b, _, found, shows⟩ := inv.chain.block inv.chain.at_first
      cases released : (c.phase c.first).isReleased with
      | false =>
        refine ⟨_, ?_, .skips tried stage⟩
        simp [stepReceiver, stage, same, found, shows.isReleased.mpr released, Bind.bind, Except.bind, pure, Except.pure]
      | true =>
        have flag : ¬ 0 = RELEASED &&& b.readySlots := by
          rw [shows.isReleased, released]
          simp
        have before : c.first < c.head := by
          refine Nat.lt_of_le_of_ne inv.chain.head.1 fun equal => same ?_
          rw [inv.chain.freeHead, inv.chain.headAt, equal]
        refine ⟨_, ?_, .looks tried stage before released⟩
        simp only [stepReceiver, stage, if_neg same, found, Bind.bind, Except.bind, if_neg flag, pure, Except.pure]
  | inspecting tried =>
    rw [stage] at fits
    obtain ⟨_, tailPosition, released⟩ := fits
    obtain ⟨b, _, found, shows⟩ := inv.chain.block inv.chain.at_first
    have observed := shows.observed tailPosition (by rw [released]; rfl)
    by_cases above : tailPosition > s.index
    · refine ⟨_, ?_, .spares tried stage⟩
      simp [stepReceiver, stage, found, observed, above, Bind.bind, Except.bind, pure, Except.pure]
    · refine ⟨_, ?_, .frees tried tailPosition stage released (Nat.le_of_not_lt above)⟩
      simp [stepReceiver, stage, found, observed, above, Bind.bind, Except.bind, pure, Except.pure]
  | unlinking tried =>
    rw [stage] at fits
    obtain ⟨b, _, found, shows⟩ := inv.chain.block inv.chain.at_first
    rcases inv.chain.loadNext inv.chain.at_first shows with ⟨_, loaded⟩ | ⟨last, _⟩
    · refine ⟨_, ?_, .unlinks tried stage⟩
      simp [stepReceiver, stage, found, loaded, Bind.bind, Except.bind, pure, Except.pure]
    · have before := fits.1
      have within := inv.chain.head.2
      omega
  | resetting tried a =>
    rw [stage] at fits
    obtain ⟨b, found, _⟩ := fits
    refine ⟨_, ?_, .resets tried a b stage found⟩
    simp [stepReceiver, stage, SharedList.block, found, Bind.bind, Except.bind, pure, Except.pure]
  | tailing tried a => exact ⟨_, by simp [stepReceiver, stage], .tails tried a stage⟩
  | numbering tried a curr left =>
    rw [stage] at fits
    obtain ⟨⟨new, there, _⟩, m, here⟩ := fits
    obtain ⟨b, _, found, shows⟩ := inv.chain.block here
    have start : b.startIndex + BLOCK_CAP = 32 * (m + 1) := by rw [shows.start, BLOCK_CAP]; omega
    have new' : s.block a = .ok new := by simp [SharedList.block, there]
    refine ⟨_, ?_, .numbers tried a curr left m new stage here there⟩
    simp [stepReceiver, stage, found, new', start, Bind.bind, Except.bind, pure, Except.pure]
  | appending tried a curr left =>
    rw [stage] at fits
    obtain ⟨_, m, here, _⟩ := fits
    obtain ⟨b, there, found, shows⟩ := inv.chain.block here
    by_cases more : m < c.last
    · by_cases over' : left ≤ 1
      · refine ⟨_, ?_, .gives tried a curr left stage⟩
        simp [stepReceiver, stage, found, shows.next, more, over', Bind.bind, Except.bind, pure, Except.pure]
      · refine ⟨_, ?_, .runsOn tried a curr left m stage here more (Nat.lt_of_not_le over')⟩
        simp [stepReceiver, stage, found, shows.next, more, over', Bind.bind, Except.bind, pure, Except.pure]
    · obtain rfl : m = c.last := Nat.le_antisymm here.2.1 (Nat.le_of_not_lt more)
      refine ⟨_, ?_, .links tried a curr left b stage here there⟩
      simp [stepReceiver, stage, found, shows.next, Bind.bind, Except.bind, pure, Except.pure]
  | freeing tried a =>
    rw [stage] at fits
    obtain ⟨b, found, _⟩ := fits
    refine ⟨_, ?_, .deallocates tried a stage⟩
    simp [stepReceiver, stage, SharedList.block, found, Bind.bind, Except.bind, pure, Except.pure]
  | reading tried =>
    obtain ⟨b, _, found, shows, at_index, _⟩ := inv.reading (by rw [stage]; rfl)
    have within : s.index % 32 < 32 := Nat.mod_lt _ (by decide)
    have flag : isReady b.readySlots (offset s.index) = (c.slots s.index).isReady := by
      rw [isReady_eq (by rw [offset, BLOCK_CAP]; omega), offset, BLOCK_CAP, shows.ready _ within, at_index]
    cases ready : (c.slots s.index).isReady with
    | true =>
      refine ⟨_, ?_, .finds tried stage ready⟩
      simp [stepReceiver, stage, found, flag, ready, Bind.bind, Except.bind, pure, Except.pure]
    | false =>
      cases closed : isTxClosed b.readySlots with
      | true =>
        rw [isTxClosed_eq] at closed
        obtain ⟨o, _, sealed⟩ := shows.closed.mp closed
        refine ⟨_, ?_, .closes tried stage ready ⟨_, sealed⟩⟩
        rw [← isTxClosed_eq] at closed
        simp [stepReceiver, stage, found, flag, ready, closed, Bind.bind, Except.bind, pure, Except.pure]
      | false =>
        refine ⟨_, ?_, .waits tried stage ready fun sealed => ?_⟩
        · simp [stepReceiver, stage, found, flag, ready, closed, Bind.bind, Except.bind, pure, Except.pure]
        · rw [isTxClosed_eq] at closed
          rw [shows.closed.mpr ⟨_, within, by rw [at_index]; exact sealed⟩] at closed
          cases closed
  | taking tried =>
    rw [stage] at fits
    obtain ⟨b, there, found, shows, at_index, untaken⟩ := inv.reading (by rw [stage]; rfl)
    obtain ⟨value, slot⟩ := Slot.of_ready fits untaken
    have stored := shows.values (s.index % 32) (Nat.mod_lt _ (by decide))
    rw [at_index, slot] at stored
    have stored : b.values (offset s.index) = some value := stored
    refine ⟨_, ?_, .takes tried value b stage slot there⟩
    simp [stepReceiver, stage, found, stored, returns, setBlock, Bind.bind, Except.bind, pure, Except.pure]
  | dropping cur =>
    rw [stage] at fits
    exact fits.elim

end Moves

section Serving

variable [DecidableEq I] {r : Option (Answer T) × SharedList I T}

theorem Inv.steps (inv : Inv c s) (stage : s.receiver = .stepping tried) (more : c.head < c.last) :
    Inv { c with head := c.head + 1 } { s with head := c.address (c.head + 1), receiver := .advancing tried } := by
  have fits := inv.receiver
  rw [stage] at fits
  have before : c.head < s.index / 32 := fits
  have owned : Function.update s.owned none (Receiving.advancing tried).block = s.owned := by
    rw [Function.update_eq_self_iff]
    simp [SharedList.owned, stage, Receiving.block]
  refine inv.rests (.advancing tried) rfl rfl rfl (Nat.le_refl _) ?_ ?_
    (fun _ _ _ _ _ _ _ here => here) (fun _ _ _ => rfl) ?_ (by simp [Receiving.arrived]) trivial
  · have chain := inv.chain
    refine ⟨⟨Nat.le_succ_of_le chain.head.1, more⟩, chain.tail, chain.apart, fun n ptr here => ?_, chain.blockTail,
      rfl, chain.freeHead, chain.phases⟩
    obtain ⟨b, found, shows⟩ := chain.shows n ptr here
    exact ⟨b, found, shows.congr rfl rfl rfl fun _ _ => rfl⟩
  · rw [owned]
    exact inv.owns.chart fun _ _ => Iff.rfl
  · show 32 * (c.head + 1) ≤ s.index
    omega

/-- No call stands at the first block, or will get there: it has been released, and the position that was observed
then has been read. -/
theorem Inv.unlinks (inv : Inv c s) (stage : s.receiver = .unlinking tried) :
    Inv { c with first := c.first + 1 }
      { s with freeHead := c.address (c.first + 1), receiver := .resetting tried s.freeHead } := by
  have fits := inv.receiver
  rw [stage] at fits
  obtain ⟨before, tailPosition, below, released⟩ := fits
  have chain := inv.chain
  have near := inv.near
  have here := chain.at_first
  have tail : c.first < c.tail := by
    refine Nat.lt_of_not_le fun ahead => ?_
    rw [(chain.phases _).mpr ahead] at released
    cases released
  have further {n ptr : Nat} (at_n : ({ c with first := c.first + 1 } : Chart I T).At n ptr) : c.At n ptr :=
    ⟨Nat.le_of_succ_le at_n.1, at_n.2⟩
  refine inv.rests (.resetting tried s.freeHead) rfl rfl rfl (Nat.le_refl _) ?_ ?_ ?_ (fun _ _ _ => rfl)
    near ?_ ?_
  · refine ⟨⟨before, chain.head.2⟩, ⟨tail, chain.tail.2⟩, fun m n ptr first second => ?_, fun n ptr at_n => ?_,
      chain.blockTail, chain.headAt, rfl, chain.phases⟩
    · exact chain.apart m n ptr (further first) (further second)
    · obtain ⟨b, found, shows⟩ := chain.shows n ptr (further at_n)
      exact ⟨b, found, shows.congr rfl rfl rfl fun _ _ => rfl⟩
  · refine inv.owns.unlinks chain.apart here (chain.found here) ?_
    simp [owned, stage, Receiving.block]
  · intro n slot left guarded m ptr from' at_m
    refine ⟨?_, at_m.2⟩
    refine Nat.lt_of_le_of_ne at_m.1 fun first => ?_
    have later := guarded m from' tailPosition (by rw [← first, released]; rfl)
    omega
  · exact fun _ => inv.arrived (by rw [stage]; rfl)
  · obtain ⟨b, found, shows⟩ := chain.shows _ _ here
    refine ⟨b, found, fun o inside => ?_⟩
    have taken := (inv.ledger.taken (32 * c.first + o)).mpr (by omega)
    rw [shows.values o inside]
    cases slot : c.slots (32 * c.first + o) <;> simp [slot, Slot.isTaken, Slot.stored] at taken ⊢

theorem Inv.relinks {curr left : Nat} (inv : Inv c s) (stage : s.receiver = .appending tried a curr left)
    (here : c.At c.last curr) (found : s.blocks curr = some b) :
    Inv (c.grow a) { s.setBlock curr { b with next := some a } with receiver := .reclaiming tried } := by
  have fits := inv.receiver
  rw [stage] at fits
  obtain ⟨blank, m, at_curr, numbered⟩ := fits
  obtain rfl := inv.chain.apart _ _ _ at_curr here
  have mine : s.owned none = some a := by simp [owned, stage, Receiving.block]
  refine inv.rests (.reclaiming tried) rfl rfl rfl (Nat.le_succ _)
    (inv.chain.grow here found blank numbered (fun n => inv.owns.outside _ _ n mine) inv.ledger.touched) ?_
    (fun _ _ _ _ _ _ _ at_m => at_m.grow a) (fun i x theirs => inv.owns.apart_linked theirs here) inv.near ?_ trivial
  · refine (inv.owns.rewrites (by simp [found]) fun k there => ?_).links mine (Nat.le_succ_of_le here.1)
    exact absurd here (inv.owns.outside _ _ _ there)
  · exact fun _ => inv.arrived (by rw [stage]; rfl)

theorem Inv.frees (inv : Inv c s) (stage : s.receiver = .freeing tried a) :
    Inv c { s with blocks := Function.update s.blocks a none, receiver := .reclaiming tried } := by
  have mine : s.owned none = some a := by simp [owned, stage, Receiving.block]
  refine inv.rests (.reclaiming tried) rfl rfl rfl (Nat.le_refl _)
    (inv.chain.outside (fun n => inv.owns.outside _ _ n mine) _) (inv.owns.frees mine)
    (fun _ _ _ _ _ _ _ here => here) (fun i x theirs => ?_) inv.near ?_ trivial
  · refine Function.update_of_ne ?_ _ _
    rintro rfl
    cases inv.owns.apart _ _ _ theirs mine
  · exact fun _ => inv.arrived (by rw [stage]; rfl)

omit [DecidableEq I] in
theorem Inv.takes {value : T} (inv : Inv c s) (stage : s.receiver = .taking tried)
    (slot : c.slots s.index = .ready value) (found : s.blocks s.head = some b) :
    Inv (c.setSlot s.index (.taken value))
      { s.setBlock s.head { b with values := Function.update b.values (offset s.index) none } with
        index := s.index + 1
        receiver := .idle } := by
  obtain ⟨b', found', _, shows, _, _⟩ := inv.reading (by rw [stage]; rfl)
  obtain rfl := Option.some.inj (found'.symm.trans found)
  have here : c.At (s.index / 32) s.head := by
    rw [inv.arrived (by rw [stage]; rfl)]
    exact inv.chain.at_head
  have own : (c.setSlot s.index (.taken value)).slots s.index = .taken value := by rw [c.setSlot_slots, if_pos rfl]
  have other {k : Nat} (away : k ≠ s.index) : (c.setSlot s.index (.taken value)).slots k = c.slots k := by
    rw [c.setSlot_slots, if_neg away]
  have claim : (Slot.taken value).claim = (c.slots s.index).claim := by rw [slot]; rfl
  have ready (k : Nat) (there : (c.slots k).isReady = true) :
      ((c.setSlot s.index (.taken value)).slots k).isReady = true := by
    by_cases same : k = s.index
    · rw [same, own]
      rfl
    · rwa [other same]
  have chain := inv.chain.rewrites here (shows.takes slot) (fun _ _ => rfl) Iff.rfl fun k away => other (by
    rintro rfl
    exact away rfl)
  have near := inv.near
  have owned : SharedList.owned { s with receiver := .idle } = s.owned := by
    funext p
    cases p <;> simp [SharedList.owned, stage, Receiving.block]
  obtain ⟨free, taken, touched, passed, held, distinct, opened, closed⟩ := inv.ledger
  refine ⟨⟨chain.head, chain.tail, chain.apart, chain.shows, chain.blockTail, chain.headAt, chain.freeHead,
    chain.phases⟩, ?_, ⟨fun k => ?_, fun k => ?_, fun k there => ?_, passed, fun k there => ?_, distinct,
    fun open' k => ?_, fun close => ?_⟩, fun i call sends => ?_, ?_, ?_, trivial⟩
  · show Owns _ _ (SharedList.owned { s with receiver := .idle })
    rw [owned]
    refine (inv.owns.rewrites (inv.chain.found here) fun k mine => ?_).chart fun _ _ => Iff.rfl
    exact absurd here (inv.owns.outside _ _ _ mine)
  · show _ ↔ s.tailPosition ≤ k
    rw [← free k]
    by_cases same : k = s.index
    · rw [same, own, slot]
      simp
    · rw [other same]
  · show _ ↔ k < s.index + 1
    by_cases same : k = s.index
    · rw [same, own]
      simp [Slot.isTaken]
    · rw [other same, taken k]
      omega
  · by_cases same : k = s.index
    · rw [same]
      exact here.2.1
    · rw [other same] at there
      exact touched k there
  · by_cases same : k = s.index
    · rw [same, own] at there
      cases there
    · rw [other same] at there
      exact held k there
  · rw [Chart.setSlot_claim claim]
    exact opened open' k
  · obtain ⟨last, position, claimed, before⟩ := closed close
    refine ⟨last, position, ?_, fun k below => ready k (before k below)⟩
    rw [Chart.setSlot_claim claim]
    exact claimed
  · have sends : s.senders i = some call := sends
    have before := inv.calls i call sends
    have away : call.slot ≠ s.index := by
      intro same
      have pending := before.pending
      rw [same, slot] at pending
      cases pending
    refine before.mono (fun _ _ _ _ _ at_m => at_m) (fun _ _ => rfl) (fun _ _ stamped => .inl stamped) ready
      (other away) before.ahead fun x mine => ?_
    exact inv.owns.apart_linked (p := some i) (by simp [SharedList.owned, sends, mine]) here
  · show 32 * c.head ≤ s.index + 1
    omega
  · simp [Receiving.arrived]

theorem ReceivingMoves.inv (moves : ReceivingMoves c s r) (inv : Inv c s) :
    ∃ d, Inv d r.2 ∧ (∀ k, (d.slots k).claim = (c.slots k).claim) ∧
      (d.last = c.last ∨ d.last = c.last + 1 ∧ s.receiver.block ≠ none ∧ r.2.receiver.block = none) := by
  have fits := inv.receiver
  have same (d : Chart I T) (slots : d.slots = c.slots) (k : Nat) : (d.slots k).claim = (c.slots k).claim := by
    rw [slots]
  cases moves with
  | loads stage => exact ⟨c, inv.receives (by rw [stage]; rfl) (by simp [Receiving.arrived]) trivial,
      same c rfl, .inl rfl⟩
  | arrives tried stage there =>
    exact ⟨c, inv.receives (by rw [stage]; rfl) (fun _ => there) trivial, same c rfl, .inl rfl⟩
  | seeks tried stage away =>
    have near := inv.near
    have before : c.head < s.index / 32 := by omega
    exact ⟨c, inv.receives (by rw [stage]; rfl) (by simp [Receiving.arrived]) before, same c rfl, .inl rfl⟩
  | steps tried stage more => exact ⟨_, inv.steps stage more, same _ rfl, .inl rfl⟩
  | misses tried stage last =>
    exact ⟨c, inv.receives (by rw [stage]; rfl) (by simp [Receiving.arrived]) trivial, same c rfl, .inl rfl⟩
  | skips tried stage =>
    exact ⟨c, inv.receives (by rw [stage]; rfl) (fun _ => inv.arrived (by rw [stage]; rfl)) trivial,
      same c rfl, .inl rfl⟩
  | looks tried stage before released =>
    refine ⟨c, inv.receives (by rw [stage]; rfl) (fun _ => inv.arrived (by rw [stage]; rfl)) ⟨before, ?_⟩,
      same c rfl, .inl rfl⟩
    exact Phase.of_released released
  | spares tried stage =>
    exact ⟨c, inv.receives (by rw [stage]; rfl) (fun _ => inv.arrived (by rw [stage]; rfl)) trivial,
      same c rfl, .inl rfl⟩
  | frees tried tailPosition stage released below =>
    rw [stage] at fits
    have fits : (Receiving.unlinking tried).Fits c s.blocks s.index := ⟨fits.1, tailPosition, below, released⟩
    exact ⟨c, inv.receives (by rw [stage]; rfl) (fun _ => inv.arrived (by rw [stage]; rfl)) fits, same c rfl, .inl rfl⟩
  | unlinks tried stage => exact ⟨_, inv.unlinks stage, same _ rfl, .inl rfl⟩
  | resets tried a b stage found =>
    rw [stage] at fits
    obtain ⟨b', found', emptied⟩ := fits
    obtain rfl := Option.some.inj (found'.symm.trans found)
    have fits : (Receiving.tailing tried a).Fits c (Function.update s.blocks a (some b'.reclaim)) s.index :=
      ⟨_, Function.update_self _ _ _, rfl, rfl, emptied⟩
    exact ⟨c, inv.keeps (by rw [stage]; rfl) rfl (fun _ => inv.arrived (by rw [stage]; rfl)) fits, same c rfl, .inl rfl⟩
  | tails tried a stage =>
    rw [stage] at fits
    have fits : (Receiving.numbering tried a s.blockTail 3).Fits c s.blocks s.index :=
      ⟨fits, c.tail, inv.chain.at_tail⟩
    exact ⟨c, inv.receives (by rw [stage]; rfl) (fun _ => inv.arrived (by rw [stage]; rfl)) fits, same c rfl, .inl rfl⟩
  | numbers tried a curr left m b stage here found =>
    rw [stage] at fits
    obtain ⟨⟨b', found', next, readySlots, values⟩, _⟩ := fits
    obtain rfl := Option.some.inj (found'.symm.trans found)
    have fits : (Receiving.appending tried a curr left).Fits c
        (Function.update s.blocks a (some { b' with startIndex := 32 * (m + 1) })) s.index :=
      ⟨⟨_, Function.update_self _ _ _, next, readySlots, values⟩, m, here, _, Function.update_self _ _ _, rfl⟩
    exact ⟨c, inv.keeps (by rw [stage]; rfl) rfl (fun _ => inv.arrived (by rw [stage]; rfl)) fits, same c rfl, .inl rfl⟩
  | links tried a curr left b stage here found =>
    exact ⟨_, inv.relinks stage here found, same _ rfl, .inr ⟨rfl, by rw [stage]; simp [Receiving.block], rfl⟩⟩
  | runsOn tried a curr left m stage here more =>
    rw [stage] at fits
    have fits : (Receiving.numbering tried a (c.address (m + 1)) (left - 1)).Fits c s.blocks s.index :=
      ⟨fits.1, m + 1, here.next more⟩
    exact ⟨c, inv.receives (by rw [stage]; rfl) (fun _ => inv.arrived (by rw [stage]; rfl)) fits, same c rfl, .inl rfl⟩
  | gives tried a curr left stage =>
    rw [stage] at fits
    exact ⟨c, inv.receives (by rw [stage]; rfl) (fun _ => inv.arrived (by rw [stage]; rfl)) fits.1,
      same c rfl, .inl rfl⟩
  | deallocates tried a stage => exact ⟨c, inv.frees stage, same c rfl, .inl rfl⟩
  | finds tried stage ready =>
    exact ⟨c, inv.receives (by rw [stage]; rfl) (fun _ => inv.arrived (by rw [stage]; rfl)) ready, same c rfl, .inl rfl⟩
  | closes tried stage =>
    exact ⟨c, inv.receives (by rw [stage]; rfl) (by simp [Receiving.arrived]) trivial, same c rfl, .inl rfl⟩
  | waits tried stage =>
    exact ⟨c, inv.receives (by rw [stage]; rfl) (by simp [Receiving.arrived]) trivial, same c rfl, .inl rfl⟩
  | takes tried value b stage slot found =>
    have claim : (Slot.taken value).claim = (c.slots s.index).claim := by rw [slot]; rfl
    exact ⟨_, inv.takes stage slot found, Chart.setSlot_claim claim, .inl rfl⟩

end Serving


end Osaka.Sync.Mpsc.SharedList
