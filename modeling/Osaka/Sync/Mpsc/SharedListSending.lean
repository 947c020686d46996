import Osaka.Sync.Mpsc.SharedListFrames

set_option autoImplicit false

namespace Osaka.Sync.Mpsc.SharedList

open Transitions

variable {I T : Type} {c d : Chart I T} {s t : SharedList I T} {b : Block T} {n m ptr a : Nat}

section Owning

variable {blocks : Nat → Option (Block T)} {owned : Option I → Option Nat} {p : Option I}

theorem Owns.rewrites (owns : Owns c blocks owned) (there : blocks a ≠ none)
    (blank : ∀ i, owned (some i) = some a → Blank (Function.update blocks a (some b)) a) :
    Owns c (Function.update blocks a (some b)) owned := by
  refine ⟨owns.apart, owns.outside, fun i x mine => ?_, fun p x mine => ?_, fun x found => owns.found x ?_⟩
  · by_cases same : x = a
    · subst same
      exact blank i mine
    · rw [Blank, Function.update_of_ne same]
      exact owns.blank i x mine
  · by_cases same : x = a
    · simp [same]
    · rw [Function.update_of_ne same]
      exact owns.there p x mine
  · by_cases same : x = a
    · rw [same]
      exact there
    · rwa [Function.update_of_ne same] at found

theorem Owns.chart (owns : Owns c blocks owned) (same : ∀ n p, d.At n p ↔ c.At n p) : Owns d blocks owned := by
  refine ⟨owns.apart, fun p a n mine here => owns.outside p a n mine ((same n a).mp here), owns.blank, owns.there, ?_⟩
  intro a found
  rcases owns.found a found with ⟨n, here⟩ | owner
  · exact .inl ⟨n, (same n a).mpr here⟩
  · exact .inr owner

variable [DecidableEq I]

theorem Owns.allocates (owns : Owns c blocks owned) (free : blocks a = none) (none' : owned p = none)
    (away : ∀ n, ¬ c.At n a) (blank : p ≠ none → Blank (Function.update blocks a (some b)) a) :
    Owns c (Function.update blocks a (some b)) (Function.update owned p (some a)) := by
  have other (q : Option I) (x : Nat) (mine : owned q = some x) : x ≠ a := by
    rintro rfl
    exact owns.there q x mine free
  refine ⟨fun q r x first second => ?_, fun q x n mine => ?_, fun i x mine => ?_, fun q x mine => ?_, fun x found => ?_⟩
  · by_cases q_own : q = p <;> by_cases r_own : r = p
    · rw [q_own, r_own]
    · subst q_own
      simp only [Function.update_self, Function.update_of_ne r_own, Option.some.injEq] at first second
      exact absurd first.symm (other r x second)
    · subst r_own
      simp only [Function.update_self, Function.update_of_ne q_own, Option.some.injEq] at first second
      exact absurd second.symm (other q x first)
    · rw [Function.update_of_ne q_own] at first
      rw [Function.update_of_ne r_own] at second
      exact owns.apart q r x first second
  · by_cases own : q = p
    · subst own
      simp only [Function.update_self, Option.some.injEq] at mine
      exact mine ▸ away n
    · rw [Function.update_of_ne own] at mine
      exact owns.outside q x n mine
  · by_cases own : some i = p
    · subst own
      simp only [Function.update_self, Option.some.injEq] at mine
      exact mine ▸ blank (by simp)
    · rw [Function.update_of_ne own] at mine
      rw [Blank, Function.update_of_ne (other _ x mine)]
      exact owns.blank i x mine
  · by_cases own : q = p
    · subst own
      simp only [Function.update_self, Option.some.injEq] at mine
      simp [mine]
    · rw [Function.update_of_ne own] at mine
      rw [Function.update_of_ne (other q x mine)]
      exact owns.there q x mine
  · by_cases same : x = a
    · exact .inr ⟨p, by simp [same]⟩
    · rw [Function.update_of_ne same] at found
      rcases owns.found x found with here | ⟨q, mine⟩
      · exact .inl here
      · have own : q ≠ p := by
          rintro rfl
          rw [none'] at mine
          cases mine
        exact .inr ⟨q, by rw [Function.update_of_ne own, mine]⟩

theorem Owns.links (owns : Owns c blocks owned) (mine : owned p = some a) (some' : c.first ≤ c.last + 1) :
    Owns (c.grow a) blocks (Function.update owned p none) := by
  have still (q : Option I) (x : Nat) (owner : Function.update owned p none q = some x) :
      owned q = some x ∧ q ≠ p := by
    by_cases own : q = p
    · simp [own] at owner
    · rw [Function.update_of_ne own] at owner
      exact ⟨owner, own⟩
  refine ⟨fun q r x first second => ?_, fun q x n owner here => ?_, fun i x owner => ?_, fun q x owner => ?_,
    fun x found => ?_⟩
  · exact owns.apart q r x (still q x first).1 (still r x second).1
  · obtain ⟨owner, other⟩ := still q x owner
    rcases here.of_grow with here | ⟨_, rfl⟩
    · exact owns.outside q x n owner here
    · exact other (owns.apart q p x owner mine)
  · exact owns.blank i x (still _ x owner).1
  · exact owns.there q x (still q x owner).1
  · rcases owns.found x found with ⟨n, here⟩ | ⟨q, owner⟩
    · exact .inl ⟨n, here.grow a⟩
    · by_cases own : q = p
      · subst own
        obtain rfl : x = a := Option.some.inj (owner.symm.trans mine)
        exact .inl ⟨_, c.grow_at x some'⟩
      · exact .inr ⟨q, by rw [Function.update_of_ne own, owner]⟩

end Owning

section Turning

variable [DecidableEq I] {i k : I} {call : Sending T} {stage : Stage}

theorem owned_setSender (s : SharedList I T) (i : I) (after : Option (Sending T)) :
    (s.setSender i after).owned = Function.update s.owned (some i) (after.bind fun call => call.stage.fresh) := by
  funext p
  cases p with
  | none => simp [owned, setSender]
  | some k =>
    by_cases own : k = i
    · simp [owned, setSender, own]
    · simp [owned, setSender, own]

/-- What a step of the call `i` on `slot` leaves to the others. -/
structure Frame (c d : Chart I T) (s : SharedList I T) (blocks : Nat → Option (Block T)) (i : I) (slot : Nat) :
    Prop where
  first : d.first = c.first
  head : d.head = c.head
  last : c.last ≤ d.last
  linked : ∀ m ptr, c.At m ptr → d.At m ptr
  phase : ∀ m k, k ≠ i → (c.phase m).winner = some k → d.phase m = c.phase m
  released : ∀ m tailPosition, c.phase m = .released tailPosition → d.phase m = .released tailPosition
  stamp : ∀ m tailPosition, (d.phase m).stamp = some tailPosition →
    (c.phase m).stamp = some tailPosition ∨ tailPosition = s.tailPosition
  slots : ∀ k, k ≠ slot → d.slots k = c.slots k
  ready : (c.slots slot).isReady = true → (d.slots slot).isReady = true
  tail : ∀ k other, k ≠ i → s.senders k = some other → d.tail ≤ other.slot / 32
  passed : 32 * d.tail ≤ s.tailPosition
  apart : ∀ p a, p ≠ some i → s.owned p = some a → blocks a = s.blocks a

omit [DecidableEq I] in
theorem Frame.refl (inv : Inv c s) (i : I) (slot : Nat) : Frame c c s s.blocks i slot where
  first := rfl
  head := rfl
  last := Nat.le_refl _
  linked _ _ here := here
  phase _ _ _ _ := rfl
  released _ _ there := there
  stamp _ _ there := .inl there
  slots _ _ := rfl
  ready there := there
  tail k other _ sender := (inv.calls k other sender).ahead
  passed := inv.ledger.passed
  apart _ _ _ _ := rfl

omit [DecidableEq I] in
theorem CallFits.pending {blocks : Nat → Option (Block T)} (fits : CallFits c blocks i call) :
    (c.slots call.slot).pending = true := by
  have slotted := fits.slotted
  unfold Sending.Slotted at slotted
  split at slotted
  · obtain ⟨value, _, written⟩ := slotted
    rw [written]
    rfl
  · rw [slotted]
    rfl

theorem Slot.pending_unready {slot : Slot T} (pending : slot.pending = true) :
    slot.isReady = false ∧ slot.isTaken = false ∧ slot ≠ .free := by
  cases slot <;> simp [Slot.pending, Slot.isReady, Slot.isTaken] at pending ⊢

omit [DecidableEq I] in
theorem Inv.slot_lt (inv : Inv c s) (sender : s.senders i = some call) :
    call.slot < s.tailPosition ∧ s.index ≤ call.slot := by
  obtain ⟨_, untaken, used⟩ := Slot.pending_unready (inv.calls i call sender).pending
  constructor
  · exact Nat.lt_of_not_le fun free => used ((inv.ledger.free _).mpr free)
  · refine Nat.le_of_not_lt fun below => ?_
    rw [(inv.ledger.taken _).mpr below] at untaken
    cases untaken

omit [DecidableEq I] in
theorem Frame.ready_all {blocks : Nat → Option (Block T)} {slot : Nat} (frame : Frame c d s blocks i slot) (k : Nat)
    (there : (c.slots k).isReady = true) : (d.slots k).isReady = true := by
  by_cases own : k = slot
  · subst own
    exact frame.ready there
  · rw [frame.slots k own]
    exact there

/-- The others see nothing of a step, but for blocks that are linked and positions that are passed. -/
theorem Inv.turns (inv : Inv c s) (sender : s.senders i = some call) (after : Option (Sending T))
    {blocks : Nat → Option (Block T)} {blockTail : Nat} (frame : Frame c d s blocks i call.slot)
    (chain : Chain d { s with blocks := blocks, blockTail := blockTail })
    (owns : Owns d blocks (Function.update s.owned (some i) (after.bind fun call => call.stage.fresh)))
    (own : (d.slots call.slot).pending = after.isSome) (used : d.slots call.slot ≠ .free)
    (untaken : (d.slots call.slot).isTaken = false) (claim : (d.slots call.slot).claim = (c.slots call.slot).claim)
    (touched : (d.slots call.slot).touched = true → call.slot / 32 ≤ d.last)
    (fits : ∀ call', after = some call' → call'.slot = call.slot ∧ CallFits d blocks i call') :
    Inv d ({ s with blocks := blocks, blockTail := blockTail }.setSender i after) := by
  obtain ⟨unready, untaken', used'⟩ := Slot.pending_unready (inv.calls i call sender).pending
  have senders (k : I) : ({ s with blocks := blocks, blockTail := blockTail }.setSender i after).senders k =
      if k = i then after else s.senders k := Function.update_apply s.senders i after k
  have slot_of (k : I) (x : Sending T) (there : (if k = i then after else s.senders k) = some x) :
      ∃ y, s.senders k = some y ∧ y.slot = x.slot := by
    split at there
    next own =>
      subst own
      exact ⟨call, sender, (fits x there).1.symm⟩
    next => exact ⟨x, there, rfl⟩
  refine ⟨⟨chain.head, chain.tail, chain.apart, chain.shows, chain.blockTail, chain.headAt, chain.freeHead,
    chain.phases⟩, ?_, ⟨fun k => ?_, fun k => ?_, fun k there => ?_, frame.passed, fun k there => ?_,
    fun k l x y first second same => ?_,
    fun opened k => ?_, fun closed => ?_⟩, fun k x there => ?_, ?_, ?_, ?_⟩
  · rw [owned_setSender]
    exact owns
  · show d.slots k = .free ↔ s.tailPosition ≤ k
    rw [← inv.ledger.free k]
    by_cases own : k = call.slot
    · rw [own]
      exact iff_of_false used used'
    · rw [frame.slots k own]
  · show (d.slots k).isTaken = true ↔ k < s.index
    rw [← inv.ledger.taken k]
    by_cases own : k = call.slot
    · rw [own, untaken, untaken']
    · rw [frame.slots k own]
  · by_cases own : k = call.slot
    · subst own
      exact touched there
    · rw [frame.slots k own] at there
      exact Nat.le_trans (inv.ledger.touched k there) frame.last
  · simp only [senders]
    by_cases mine : k = call.slot
    · subst mine
      rw [own] at there
      obtain ⟨call', still⟩ := Option.isSome_iff_exists.mp there
      exact ⟨i, call', by simp [still], (fits call' still).1⟩
    · rw [frame.slots k mine] at there
      obtain ⟨l, x, sends, at_k⟩ := inv.ledger.held k there
      have other : l ≠ i := by
        rintro rfl
        rw [sender, Option.some.injEq] at sends
        exact mine (sends ▸ at_k.symm)
      exact ⟨l, x, by simp [other, sends], at_k⟩
  · rw [senders] at first second
    obtain ⟨x', first, x_slot⟩ := slot_of k x first
    obtain ⟨y', second, y_slot⟩ := slot_of l y second
    exact inv.ledger.apart k l x' y' first second (by omega)
  · have before := inv.ledger.opened opened k
    by_cases own : k = call.slot
    · subst own
      rw [claim]
      exact before
    · rw [frame.slots k own]
      exact before
  · obtain ⟨last, position, claimed, ready⟩ := inv.ledger.closed closed
    refine ⟨last, position, ?_, fun k before => frame.ready_all k (ready k before)⟩
    by_cases own : last = call.slot
    · subst own
      rw [claim]
      exact claimed
    · rw [frame.slots last own]
      exact claimed
  · rw [senders] at there
    split at there
    next own =>
      subst own
      exact (fits x there).2
    next other =>
      have before := inv.calls k x there
      have apart : x.slot ≠ call.slot := fun same => other (inv.ledger.apart k i x call there sender same)
      refine before.mono (fun _ _ m ptr _ => frame.linked m ptr) (fun m => frame.phase m k other) ?_ frame.ready_all
        (frame.slots _ apart) (frame.tail k x other there) fun a mine => ?_
      · intro m tailPosition stamped
        refine (frame.stamp m tailPosition stamped).imp_right fun latest => ?_
        rw [latest]
        exact (inv.slot_lt there).1
      · exact frame.apart (some k) a (by simpa using other) (by simp [owned, there, mine])
  · show 32 * d.head ≤ s.index
    rw [frame.head]
    exact inv.near
  · intro there
    show s.index / 32 = d.head
    rw [frame.head]
    exact inv.arrived there
  · refine inv.receiver.mono frame.head frame.first frame.linked (frame.released _) (frame.ready_all _) fun a mine => ?_
    exact frame.apart none a (by simp) (by simp [owned, mine])

theorem Inv.goes (inv : Inv c s) (sender : s.senders i = some call) (fresh : stage.fresh = call.stage.fresh)
    (publishes : stage.publishes = call.stage.publishes) (stands : stage.Stands c s.blocks i call.slot n)
    (guarded : c.Guarded n call.slot) : Inv c (s.goes i call stage) := by
  have fits := inv.calls i call sender
  have pending := fits.pending
  obtain ⟨_, untaken, used⟩ := Slot.pending_unready pending
  have owned : Function.update s.owned (some i) stage.fresh = s.owned := by
    rw [Function.update_eq_self_iff]
    simp [SharedList.owned, sender, fresh]
  refine inv.turns sender (some { call with stage := stage }) (Frame.refl inv i call.slot) inv.chain ?_
    pending used untaken rfl (inv.ledger.touched _) ?_
  · rw [Option.bind_some, owned]
    exact inv.owns
  · intro call' still
    obtain rfl := Option.some.inj still
    refine ⟨rfl, ?_, fits.ahead, n, stands, guarded⟩
    unfold Sending.Slotted
    rw [publishes]
    exact fits.slotted

omit [DecidableEq I] in
theorem Chart.Guarded.mono (guarded : c.Guarded n a) (further : n ≤ m) : c.Guarded m a :=
  fun k from' => guarded k (Nat.le_trans further from')

omit [DecidableEq I] in
/-- Who loads `block_tail` finds a block from which none has been passed. -/
theorem Chain.guarded (chain : Chain c s) (slot : Nat) : c.Guarded c.tail slot := by
  intro m from' tailPosition stamped
  rw [(chain.phases m).mpr from'] at stamped
  cases stamped

omit [DecidableEq I] in
theorem Owns.apart_linked {blocks : Nat → Option (Block T)} {owned : Option I → Option Nat} {p : Option I}
    {x : Option (Block T)} (owns : Owns c blocks owned) (mine : owned p = some a) (here : c.At n ptr) :
    Function.update blocks ptr x a = blocks a := by
  have other : a ≠ ptr := by
    rintro rfl
    exact owns.outside p a n mine here
  rw [Function.update_of_ne other]

omit [DecidableEq I] in
theorem Inv.fresh_blank (inv : Inv c s) (sender : s.senders i = some call) (fresh : call.stage.fresh = some a) :
    s.owned (some i) = some a ∧ Blank s.blocks a ∧ ∀ n, ¬ c.At n a := by
  have mine : s.owned (some i) = some a := by simp [owned, sender, fresh]
  exact ⟨mine, inv.owns.blank i a mine, fun n => inv.owns.outside _ a n mine⟩

theorem Inv.alone (inv : Inv c s) (sender : s.senders i = some call) {blocks : Nat → Option (Block T)}
    (publishes : stage.publishes = call.stage.publishes) (chain : Chain c { s with blocks := blocks })
    (owns : Owns c blocks (Function.update s.owned (some i) stage.fresh))
    (apart : ∀ p a, p ≠ some i → s.owned p = some a → blocks a = s.blocks a)
    (stands : stage.Stands c blocks i call.slot n) (guarded : c.Guarded n call.slot) :
    Inv c ({ s with blocks := blocks }.goes i call stage) := by
  have fits := inv.calls i call sender
  have pending := fits.pending
  obtain ⟨_, untaken, used⟩ := Slot.pending_unready pending
  have frame : Frame c c s blocks i call.slot := { Frame.refl inv i call.slot with apart := apart }
  refine inv.turns sender (some { call with stage := stage }) frame chain owns pending used
    untaken rfl (inv.ledger.touched _) ?_
  intro call' still
  obtain rfl := Option.some.inj still
  refine ⟨rfl, ?_, fits.ahead, n, stands, guarded⟩
  unfold Sending.Slotted
  rw [publishes]
  exact fits.slotted

theorem Inv.links {fresh curr : Nat} (inv : Inv c s) (sender : s.senders i = some call)
    (own : call.stage.fresh = some fresh) (publishes : stage.publishes = call.stage.publishes)
    (none' : stage.fresh = none) (here : c.At c.last curr) (found : s.blocks curr = some b)
    (numbered : Numbered s.blocks fresh (c.last + 1))
    (stands : ∀ blocks, stage.Stands (c.grow fresh) blocks i call.slot n) (guarded : c.Guarded n call.slot) :
    Inv (c.grow fresh) ((s.setBlock curr { b with next := some fresh }).goes i call stage) := by
  have fits := inv.calls i call sender
  have pending := fits.pending
  obtain ⟨_, untaken, used⟩ := Slot.pending_unready pending
  obtain ⟨mine, blank, away⟩ := inv.fresh_blank sender own
  have some' : c.first ≤ c.last + 1 := Nat.le_succ_of_le here.1
  have frame : Frame c (c.grow fresh) s (Function.update s.blocks curr (some { b with next := some fresh })) i
      call.slot :=
    { Frame.refl inv i call.slot with
      last := Nat.le_succ _
      linked := fun _ _ there => there.grow fresh
      apart := fun p a _ mine => inv.owns.apart_linked mine here }
  refine inv.turns sender (some { call with stage := stage }) frame
    (inv.chain.grow here found blank numbered away inv.ledger.touched) ?_ pending used
    untaken rfl (fun there => Nat.le_succ_of_le (inv.ledger.touched _ there)) ?_
  · rw [Option.bind_some, none']
    refine (inv.owns.rewrites (by simp [found]) fun k there => ?_).links mine some'
    exact absurd here (inv.owns.outside _ _ _ there)
  · intro call' still
    obtain rfl := Option.some.inj still
    refine ⟨rfl, ?_, fits.ahead, n, stands _, guarded⟩
    unfold Sending.Slotted
    rw [publishes]
    exact fits.slotted

theorem Inv.rephases {phase : Phase I} (inv : Inv c s) (sender : s.senders i = some call)
    (fresh : call.stage.fresh = none) (none' : stage.fresh = none) (publishes : stage.publishes = call.stage.publishes)
    (here : c.At n ptr) (won : (c.phase n).winner = some i) (shows : Shows (c.setPhase n phase) n b)
    (live : phase ≠ .ahead) (stamp : ∀ tailPosition, phase.stamp = some tailPosition →
      (c.phase n).stamp = some tailPosition ∨ tailPosition = s.tailPosition)
    (stands : ∀ blocks, stage.Stands (c.setPhase n phase) blocks i call.slot m) (guarded : c.Guarded m call.slot) :
    Inv (c.setPhase n phase) ((s.setBlock ptr b).goes i call stage) := by
  have fits := inv.calls i call sender
  have pending := fits.pending
  obtain ⟨_, untaken, used⟩ := Slot.pending_unready pending
  have before : c.phase n ≠ .ahead := by
    intro ahead
    rw [ahead] at won
    cases won
  have other {m : Nat} (away : m ≠ n) : (c.setPhase n phase).phase m = c.phase m := by
    rw [c.setPhase_phase, if_neg away]
  have stamps (m tailPosition : Nat) (stamped : ((c.setPhase n phase).phase m).stamp = some tailPosition) :
      (c.phase m).stamp = some tailPosition ∨ tailPosition = s.tailPosition := by
    by_cases own : m = n
    · subst own
      rw [c.setPhase_phase, if_pos rfl] at stamped
      exact stamp _ stamped
    · rw [other own] at stamped
      exact .inl stamped
  have frame : Frame c (c.setPhase n phase) s (Function.update s.blocks ptr (some b)) i call.slot :=
    { Frame.refl inv i call.slot with
      phase := fun m k away winner => other fun own => away (by
        rw [own, won] at winner
        exact (Option.some.inj winner).symm)
      released := fun m tailPosition released => by
        rw [other fun own => ?_]
        · exact released
        · rw [← own, released] at won
          cases won
      stamp := stamps
      apart := fun p a _ mine => inv.owns.apart_linked mine here }
  have chain : Chain (c.setPhase n phase) (s.setBlock ptr b) := by
    refine inv.chain.rewrites here shows (fun m away => other away) ?_ (fun _ _ => rfl)
    rw [Function.update_self]
    exact iff_of_false live before
  have owned : Function.update s.owned (some i) stage.fresh = s.owned := by
    rw [Function.update_eq_self_iff]
    simp [SharedList.owned, sender, fresh, none']
  refine inv.turns sender (some { call with stage := stage }) frame chain ?_ pending used untaken rfl
    (inv.ledger.touched _) ?_
  · rw [Option.bind_some, owned]
    refine (inv.owns.rewrites (inv.chain.found here) fun k mine => ?_).chart fun _ _ => Iff.rfl
    exact absurd here (inv.owns.outside _ _ _ mine)
  · intro call' still
    obtain rfl := Option.some.inj still
    refine ⟨rfl, ?_, fits.ahead, m, stands _, fun k from' tailPosition stamped => ?_⟩
    · unfold Sending.Slotted
      rw [publishes]
      exact fits.slotted
    · rcases stamps k tailPosition stamped with before | rfl
      · exact guarded k from' tailPosition before
      · exact (inv.slot_lt sender).1

theorem Inv.settles {slot : Slot T} (inv : Inv c s) (sender : s.senders i = some call)
    (fresh : call.stage.fresh = none) (here : c.At (call.slot / 32) ptr)
    (shows : Shows (c.setSlot call.slot slot) (call.slot / 32) b) (after : Option (Sending T))
    (own : slot.pending = after.isSome) (used : slot ≠ .free) (untaken : slot.isTaken = false)
    (claim : slot.claim = (c.slots call.slot).claim)
    (fits : ∀ call', after = some call' → call'.slot = call.slot ∧ call'.stage.fresh = none ∧
      ∀ blocks, CallFits (c.setSlot call.slot slot) blocks i call') :
    Inv (c.setSlot call.slot slot) ((s.setBlock ptr b).setSender i after) := by
  have mine := (inv.calls i call sender).pending
  have own_slot : (c.setSlot call.slot slot).slots call.slot = slot := by rw [c.setSlot_slots, if_pos rfl]
  have frame : Frame c (c.setSlot call.slot slot) s (Function.update s.blocks ptr (some b)) i call.slot :=
    { Frame.refl inv i call.slot with
      slots := fun k other => by rw [c.setSlot_slots, if_neg other]
      ready := fun there => by
        rw [(Slot.pending_unready mine).1] at there
        cases there
      apart := fun p a _ mine => inv.owns.apart_linked mine here }
  have chain : Chain (c.setSlot call.slot slot) (s.setBlock ptr b) := by
    refine inv.chain.rewrites here shows (fun _ _ => rfl) Iff.rfl fun k away => ?_
    refine Function.update_of_ne (fun own => away ?_) _ _
    rw [own]
  have owned : Function.update s.owned (some i) (after.bind fun call => call.stage.fresh) = s.owned := by
    rw [Function.update_eq_self_iff]
    cases after with
    | none => simp [SharedList.owned, sender, fresh]
    | some call' => simp [SharedList.owned, sender, fresh, (fits call' rfl).2.1]
  refine inv.turns sender after frame chain ?_ (by rw [own_slot, own]) (by rw [own_slot]; exact used)
    (by rw [own_slot, untaken]) (by rw [own_slot, claim]) (fun _ => here.2.1)
    fun call' still => ⟨(fits call' still).1, (fits call' still).2.2 _⟩
  rw [owned]
  refine (inv.owns.rewrites (inv.chain.found here) fun k mine => ?_).chart fun _ _ => Iff.rfl
  exact absurd here (inv.owns.outside _ _ _ mine)

end Turning

section Moving

variable [DecidableEq I] {i : I} {call : Sending T}

theorem Inv.advances {ptr next : Nat} (inv : Inv c s) (sender : s.senders i = some call)
    (stage : call.stage = .advancing ptr next) (tail : s.blockTail = ptr) :
    Inv { c.setPhase c.tail (.passed i) with tail := c.tail + 1 }
      ({ s with blockTail := next }.goes i call (.observing ptr next)) := by
  have fits := inv.calls i call sender
  have pending := fits.pending
  obtain ⟨_, untaken, used⟩ := Slot.pending_unready pending
  obtain ⟨n, stands, guarded⟩ := fits.stands
  rw [stage] at stands
  obtain ⟨here, before, there, final⟩ := stands
  obtain rfl : n = c.tail := by
    refine inv.chain.apart _ _ _ here ?_
    rw [← tail]
    exact inv.chain.at_tail
  have other {m : Nat} (away : m ≠ c.tail) : (c.setPhase c.tail (.passed i)).phase m = c.phase m := by
    rw [c.setPhase_phase, if_neg away]
  have own : (c.setPhase c.tail (.passed i)).phase c.tail = .passed i := by rw [c.setPhase_phase, if_pos rfl]
  have ahead : c.phase c.tail = .ahead := (inv.chain.phases _).mpr (Nat.le_refl _)
  have stamps (m tailPosition : Nat)
      (stamped : ((c.setPhase c.tail (.passed i)).phase m).stamp = some tailPosition) :
      (c.phase m).stamp = some tailPosition := by
    by_cases away : m = c.tail
    · subst away
      rw [own] at stamped
      cases stamped
    · rwa [other away] at stamped
  have frame : Frame c { c.setPhase c.tail (.passed i) with tail := c.tail + 1 } s s.blocks i call.slot :=
    { Frame.refl inv i call.slot with
      phase := fun m k _ winner => other fun away => by
        rw [away, ahead] at winner
        cases winner
      released := fun m tailPosition released => by
        have away : m ≠ c.tail := by
          rintro rfl
          rw [ahead] at released
          cases released
        show (c.setPhase c.tail (.passed i)).phase m = _
        rw [other away, released]
      stamp := fun m tailPosition stamped => .inl (stamps m tailPosition stamped)
      tail := fun k further _ sends => by
        have fits' := inv.calls k further sends
        have ready := final (further.slot % 32) (Nat.mod_lt _ (by decide))
        have unready := (Slot.pending_unready fits'.pending).1
        have ahead := fits'.ahead
        refine Nat.lt_of_le_of_ne ahead fun same => ?_
        rw [same, Nat.div_add_mod, unready] at ready
        cases ready
      passed := by
        have ready := final 31 (by decide)
        have used : 32 * c.tail + 31 < s.tailPosition := by
          refine Nat.lt_of_not_le fun free => ?_
          rw [(inv.ledger.free _).mpr free] at ready
          cases ready
        show 32 * (c.tail + 1) ≤ s.tailPosition
        omega }
  refine inv.turns sender (some { call with stage := .observing ptr next }) frame ?_ ?_ pending used untaken rfl
    (inv.ledger.touched _) ?_
  · refine ⟨inv.chain.head, ⟨Nat.le_succ_of_le inv.chain.tail.1, there.2.1⟩, inv.chain.apart, fun m p at_p => ?_,
      there.2.2.symm, inv.chain.headAt, inv.chain.freeHead, fun m => ?_⟩
    · obtain ⟨b, found, shows⟩ := inv.chain.shows m p at_p
      refine ⟨b, found, ?_⟩
      by_cases away : m = c.tail
      · subst away
        have shows := shows.rephases (.passed i) (by rw [ahead]; rfl) (by rw [ahead]; rfl)
        exact shows.congr rfl rfl rfl fun _ _ => rfl
      · exact shows.congr rfl rfl (other away) fun _ _ => rfl
    · show (c.setPhase c.tail (.passed i)).phase m = .ahead ↔ c.tail + 1 ≤ m
      by_cases away : m = c.tail
      · subst away
        rw [own]
        simp
      · rw [other away, inv.chain.phases m]
        omega
  · have owned : Function.update s.owned (some i) none = s.owned := by
      rw [Function.update_eq_self_iff]
      simp [SharedList.owned, sender, stage, Stage.fresh]
    show Owns _ _ (Function.update s.owned (some i) none)
    rw [owned]
    exact inv.owns.chart fun _ _ => Iff.rfl
  · intro call' still
    obtain rfl := Option.some.inj still
    refine ⟨rfl, ?_, before, c.tail, ⟨here, before, there, own⟩, fun m from' tailPosition stamped => ?_⟩
    · have slotted := fits.slotted
      rw [Sending.Slotted, stage] at slotted
      exact slotted
    · exact guarded m from' tailPosition (stamps m tailPosition stamped)

omit [DecidableEq I] in
theorem Chart.setSlot_claim {k : Nat} {slot : Slot T} (claim : slot.claim = (c.slots k).claim) (l : Nat) :
    ((c.setSlot k slot).slots l).claim = (c.slots l).claim := by
  rw [c.setSlot_slots]
  split
  next own => rw [own, claim]
  next => rfl

theorem SendingMoves.inv (moves : SendingMoves c s i call t) (inv : Inv c s) (sender : s.senders i = some call) :
    ∃ d, Inv d t ∧ (∀ k, (d.slots k).claim = (c.slots k).claim) ∧
      (d.last = c.last ∨ d.last = c.last + 1 ∧ call.stage.fresh ≠ none ∧ t.owned (some i) = none) := by
  have fits := inv.calls i call sender
  have slotted := fits.slotted
  obtain ⟨n, stands, guarded⟩ := fits.stands
  unfold Sending.Slotted at slotted
  cases moves with
  | loads stage =>
    refine ⟨c, inv.goes sender (by rw [stage]; rfl) (by rw [stage]; rfl) ?_ (inv.chain.guarded _),
      fun _ => rfl, .inl rfl⟩
    exact ⟨inv.chain.at_tail, fits.ahead⟩
  | measures ptr tries stage =>
    rw [stage] at stands
    exact ⟨c, inv.goes sender (by rw [stage]; rfl) (by rw [stage]; rfl) stands guarded, fun _ => rfl, .inl rfl⟩
  | arrives ptr tries stage here =>
    rw [stage] at stands
    have same := inv.chain.apart _ _ _ stands.1 here
    refine ⟨c, inv.goes sender (by rw [stage]; rfl) (by rw [stage]; rfl) ⟨stands.1, same⟩ guarded,
      fun _ => rfl, .inl rfl⟩
  | passes ptr tries stage away =>
    rw [stage] at stands
    have before : n < call.slot / 32 := by
      refine Nat.lt_of_le_of_ne stands.2 fun same => away ?_
      exact same ▸ stands.1
    exact ⟨c, inv.goes sender (by rw [stage]; rfl) (by rw [stage]; rfl) ⟨stands.1, before⟩ guarded,
      fun _ => rfl, .inl rfl⟩
  | follows ptr m tries stage here more =>
    rw [stage] at stands
    obtain rfl := inv.chain.apart _ _ _ stands.1 here
    have stands : (Stage.judging ptr (c.address (n + 1)) tries).Stands c s.blocks i call.slot n :=
      ⟨here, stands.2, here.next more⟩
    exact ⟨c, inv.goes sender (by rw [stage]; rfl) (by rw [stage]; rfl) stands guarded, fun _ => rfl, .inl rfl⟩
  | ends ptr tries stage here =>
    rw [stage] at stands
    exact ⟨c, inv.goes sender (by rw [stage]; rfl) (by rw [stage]; rfl) stands guarded, fun _ => rfl, .inl rfl⟩
  | allocates ptr m address tries stage here free =>
    rw [stage] at stands
    obtain rfl := inv.chain.apart _ _ _ stands.1 here
    have away (k : Nat) : ¬ c.At k address := fun there => inv.chain.found there free
    have none' : s.owned (some i) = none := by simp [owned, sender, stage, Stage.fresh]
    have stands : (Stage.linking ptr address tries).Stands c
        (Function.update s.blocks address (some (.new (32 * (n + 1))))) i call.slot n :=
      ⟨here, stands.2, .new (32 * (n + 1)), Function.update_self _ _ _, rfl⟩
    refine ⟨c, inv.alone sender (by rw [stage]; rfl) (inv.chain.outside away _) ?_ ?_ stands guarded,
      fun _ => rfl, .inl rfl⟩
    · refine inv.owns.allocates free none' away fun _ => ?_
      exact ⟨.new (32 * (n + 1)), Function.update_self _ _ _, rfl, rfl, fun _ _ => rfl⟩
    · intro p a _ mine
      refine Function.update_of_ne (fun same => ?_) _ _
      exact inv.owns.there p a mine (same ▸ free)
  | links ptr fresh tries b stage here found =>
    rw [stage] at stands
    obtain ⟨at_ptr, before, numbered⟩ := stands
    obtain rfl := inv.chain.apart _ _ _ at_ptr here
    have some' : c.first ≤ c.last + 1 := Nat.le_succ_of_le here.1
    refine ⟨c.grow fresh, inv.links sender (by rw [stage]; rfl) (by rw [stage]; rfl) rfl here found numbered
      (fun _ => ?_) guarded, fun _ => rfl, .inr ⟨rfl, ?_, ?_⟩⟩
    · exact ⟨here.grow fresh, before, c.grow_at fresh some'⟩
    · rw [stage]
      simp [Stage.fresh]
    · simp [owned, SharedList.goes, setSender, Stage.fresh]
  | meets ptr fresh m tries stage here more =>
    rw [stage] at stands
    obtain rfl := inv.chain.apart _ _ _ stands.1 here
    have stands : (Stage.numbering ptr (c.address (n + 1)) (c.address (n + 1)) fresh tries).Stands c s.blocks i
        call.slot n := ⟨here, stands.2.1, here.next more, n + 1, Nat.le_succ n, here.next more⟩
    exact ⟨c, inv.goes sender (by rw [stage]; rfl) (by rw [stage]; rfl) stands guarded, fun _ => rfl, .inl rfl⟩
  | numbers ptr next curr fresh m tries b stage here found =>
    rw [stage] at stands
    obtain ⟨at_ptr, before, at_next, l, from', at_curr⟩ := stands
    obtain rfl := inv.chain.apart _ _ _ at_curr here
    obtain ⟨mine, ⟨b', found', next', readySlots, values⟩, away⟩ :=
      inv.fresh_blank sender (a := fresh) (by rw [stage]; rfl)
    obtain rfl := Option.some.inj (found'.symm.trans found)
    have stands : (Stage.appending ptr next curr fresh tries).Stands c
        (Function.update s.blocks fresh (some { b' with startIndex := 32 * (l + 1) })) i call.slot n :=
      ⟨at_ptr, before, at_next, l, from', at_curr, _, Function.update_self _ _ _, rfl⟩
    have owned : Function.update s.owned (some i) (some fresh) = s.owned := by
      rw [Function.update_eq_self_iff, mine]
    refine ⟨c, inv.alone sender (by rw [stage]; rfl) (inv.chain.outside away _) ?_ ?_ stands guarded,
      fun _ => rfl, .inl rfl⟩
    · show Owns _ _ (Function.update s.owned (some i) (some fresh))
      rw [owned]
      refine inv.owns.rewrites (by simp [found]) fun k _ => ?_
      exact ⟨_, Function.update_self _ _ _, next', readySlots, values⟩
    · intro p a other there
      refine Function.update_of_ne (fun same => other ?_) _ _
      exact inv.owns.apart p (some i) a there (same ▸ mine)
  | appends ptr next curr fresh tries b stage here found =>
    rw [stage] at stands
    obtain ⟨at_ptr, before, at_next, l, _, at_curr, numbered⟩ := stands
    obtain rfl := inv.chain.apart _ _ _ at_curr here
    refine ⟨c.grow fresh, inv.links sender (by rw [stage]; rfl) (by rw [stage]; rfl) rfl here found numbered
      (fun _ => ?_) guarded, fun _ => rfl, .inr ⟨rfl, ?_, ?_⟩⟩
    · exact ⟨at_ptr.grow fresh, before, at_next.grow fresh⟩
    · rw [stage]
      simp [Stage.fresh]
    · simp [owned, SharedList.goes, setSender, Stage.fresh]
  | runsOn ptr next curr fresh m tries stage here more =>
    rw [stage] at stands
    obtain ⟨at_ptr, before, at_next, l, from', at_curr, _⟩ := stands
    obtain rfl := inv.chain.apart _ _ _ at_curr here
    have stands : (Stage.numbering ptr next (c.address (l + 1)) fresh tries).Stands c s.blocks i call.slot n :=
      ⟨at_ptr, before, at_next, l + 1, Nat.le_succ_of_le from', here.next more⟩
    exact ⟨c, inv.goes sender (by rw [stage]; rfl) (by rw [stage]; rfl) stands guarded, fun _ => rfl, .inl rfl⟩
  | finds ptr next m stage here final =>
    rw [stage] at stands
    obtain rfl := inv.chain.apart _ _ _ stands.1 here
    have stands : (Stage.advancing ptr next).Stands c s.blocks i call.slot n :=
      ⟨stands.1, stands.2.1, stands.2.2, final⟩
    exact ⟨c, inv.goes sender (by rw [stage]; rfl) (by rw [stage]; rfl) stands guarded, fun _ => rfl, .inl rfl⟩
  | leaves ptr next tries stage =>
    rw [stage] at stands
    have stands : (Stage.walking next false).Stands c s.blocks i call.slot (n + 1) := ⟨stands.2.2, stands.2.1⟩
    exact ⟨c, inv.goes sender (by rw [stage]; rfl) (by rw [stage]; rfl) stands (guarded.mono (Nat.le_succ n)),
      fun _ => rfl, .inl rfl⟩
  | advances ptr next stage tail => exact ⟨_, inv.advances sender stage tail, fun _ => rfl, .inl rfl⟩
  | trails ptr next stage =>
    rw [stage] at stands
    have stands : (Stage.walking next false).Stands c s.blocks i call.slot (n + 1) := ⟨stands.2.2.1, stands.2.1⟩
    exact ⟨c, inv.goes sender (by rw [stage]; rfl) (by rw [stage]; rfl) stands (guarded.mono (Nat.le_succ n)),
      fun _ => rfl, .inl rfl⟩
  | observes ptr next stage =>
    rw [stage] at stands
    obtain ⟨here, before, there, won⟩ := stands
    obtain ⟨b, found, shows⟩ := inv.chain.shows n ptr here
    have same : s.setBlock ptr b = s := by simp [setBlock, ← found]
    have shows := shows.rephases (.stamped i s.tailPosition) (by rw [won]; rfl) (by rw [won]; rfl)
    have goes : Inv _ ((s.setBlock ptr b).goes i call (.recording ptr next s.tailPosition)) :=
      inv.rephases sender (by rw [stage]; rfl) rfl (by rw [stage]; rfl) here (by rw [won]; rfl) shows (by simp)
        (fun _ latest => .inr (Option.some.inj latest).symm)
        (fun _ => ⟨here, before, there, by rw [c.setPhase_phase, if_pos rfl]⟩) guarded
    rw [same] at goes
    exact ⟨_, goes, fun _ => rfl, .inl rfl⟩
  | records ptr next tailPosition b stage found =>
    rw [stage] at stands
    obtain ⟨here, before, there, won⟩ := stands
    obtain ⟨b', found', shows⟩ := inv.chain.shows n ptr here
    obtain rfl := Option.some.inj (found'.symm.trans found)
    refine ⟨_, inv.rephases sender (by rw [stage]; rfl) rfl (by rw [stage]; rfl) here
      (by rw [won]; rfl) (shows.records won) (by simp) (fun _ latest => .inl (by rw [won]; exact latest))
      (fun _ => ⟨here, before, there, tailPosition, ?_⟩) guarded, fun _ => rfl, .inl rfl⟩
    rw [c.setPhase_phase, if_pos rfl]
  | releases ptr next b stage found =>
    rw [stage] at stands
    obtain ⟨here, before, there, tailPosition, won⟩ := stands
    obtain ⟨b', found', shows⟩ := inv.chain.shows n ptr here
    obtain rfl := Option.some.inj (found'.symm.trans found)
    exact ⟨_, inv.rephases sender (by rw [stage]; rfl) rfl (by rw [stage]; rfl) here
      (by rw [won]; rfl) (shows.releases won) (by simp) (fun _ latest => .inl (by rw [won]; exact latest))
      (fun _ => ⟨there, before⟩) (guarded.mono (Nat.le_succ n)), fun _ => rfl, .inl rfl⟩
  | seals ptr b stage value found =>
    rw [stage] at stands slotted
    obtain ⟨here, rfl⟩ := stands
    obtain ⟨b', found', shows⟩ := inv.chain.shows _ ptr here
    obtain rfl := Option.some.inj (found'.symm.trans found)
    have claimed : c.slots call.slot = .claimed none := by simpa [Stage.publishes, value] using slotted
    have claim : (Slot.sealed : Slot T).claim = (c.slots call.slot).claim := by rw [claimed]; rfl
    exact ⟨_, inv.settles sender (by rw [stage]; rfl) here (shows.seals claimed) none rfl (by simp) rfl claim (by simp),
      Chart.setSlot_claim claim, .inl rfl⟩
  | writes ptr value b stage pushed found =>
    rw [stage] at stands slotted
    obtain ⟨here, rfl⟩ := stands
    obtain ⟨b', found', shows⟩ := inv.chain.shows _ ptr here
    obtain rfl := Option.some.inj (found'.symm.trans found)
    have claimed : c.slots call.slot = .claimed (some value) := by simpa [Stage.publishes, pushed] using slotted
    have claim : (Slot.written value).claim = (c.slots call.slot).claim := by rw [claimed]; rfl
    refine ⟨_, inv.settles sender (by rw [stage]; rfl) here (shows.writes claimed)
      (some { call with stage := .publishing ptr }) rfl (by simp) rfl claim ?_, Chart.setSlot_claim claim, .inl rfl⟩
    intro call' still
    obtain rfl := Option.some.inj still
    refine ⟨rfl, rfl, fun _ => ⟨?_, fits.ahead, _, ⟨here, rfl⟩, guarded⟩⟩
    exact ⟨value, pushed, by rw [c.setSlot_slots, if_pos rfl]⟩
  | publishes ptr b stage found =>
    rw [stage] at stands slotted
    obtain ⟨here, rfl⟩ := stands
    obtain ⟨b', found', shows⟩ := inv.chain.shows _ ptr here
    obtain rfl := Option.some.inj (found'.symm.trans found)
    obtain ⟨value, _, written⟩ : ∃ value, call.value = some value ∧ c.slots call.slot = .written value := slotted
    have claim : (Slot.ready value).claim = (c.slots call.slot).claim := by rw [written]; rfl
    exact ⟨_, inv.settles sender (by rw [stage]; rfl) here (shows.publishes written) none rfl (by simp) rfl claim
      (by simp), Chart.setSlot_claim claim, .inl rfl⟩

end Moving

end Osaka.Sync.Mpsc.SharedList
