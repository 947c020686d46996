import Osaka.Sync.Mpsc.SharedListPlaces

set_option autoImplicit false

namespace Osaka.Sync.Mpsc.SharedList

open Transitions

variable {I T : Type} {c : Chart I T} {s t : SharedList I T} {b : Block T} {n m ptr : Nat}

section Blocks

theorem Chart.At.next (here : c.At n ptr) (more : n < c.last) : c.At (n + 1) (c.address (n + 1)) :=
  ⟨Nat.le_succ_of_le here.1, more, rfl⟩

theorem Chain.at_head (chain : Chain c s) : c.At c.head s.head := ⟨chain.head.1, chain.head.2, chain.headAt.symm⟩

theorem Chain.at_tail (chain : Chain c s) : c.At c.tail s.blockTail :=
  ⟨chain.tail.1, chain.tail.2, chain.blockTail.symm⟩

theorem Chain.at_first (chain : Chain c s) : c.At c.first s.freeHead :=
  ⟨Nat.le_refl _, Nat.le_trans chain.head.1 chain.head.2, chain.freeHead.symm⟩

theorem Chain.block (chain : Chain c s) (here : c.At n ptr) :
    ∃ b, s.blocks ptr = some b ∧ s.block ptr = .ok b ∧ Shows c n b := by
  obtain ⟨b, found, shows⟩ := chain.shows n ptr here
  exact ⟨b, found, by simp [SharedList.block, found], shows⟩

theorem Chain.found (chain : Chain c s) (here : c.At n ptr) : s.blocks ptr ≠ none := by
  obtain ⟨b, found, _⟩ := chain.shows n ptr here
  simp [found]

theorem Chart.At.unique (here : c.At n ptr) {other : Nat} (there : c.At n other) : ptr = other :=
  here.2.2.symm.trans there.2.2

theorem loadNext_linked (linked : ∀ n ptr, c.At n ptr → ∃ b, s.blocks ptr = some b ∧ Shows c n b) (here : c.At n ptr)
    (shows : Shows c n b) :
    (n < c.last ∧ s.loadNext b = .ok (some (c.address (n + 1)))) ∨ (n = c.last ∧ s.loadNext b = .ok none) := by
  by_cases more : n < c.last
  · obtain ⟨further, there, shows'⟩ := linked _ _ (here.next more)
    refine .inl ⟨more, ?_⟩
    have found : s.block (c.address (n + 1)) = .ok further := by simp [SharedList.block, there]
    have placed : further.startIndex = b.startIndex + BLOCK_CAP := by
      rw [shows'.start, shows.start, BLOCK_CAP]
      omega
    simp [SharedList.loadNext, shows.next, more, found, placed, Bind.bind, Except.bind, pure, Except.pure]
  · have last : n = c.last := Nat.le_antisymm here.2.1 (Nat.le_of_not_lt more)
    exact .inr ⟨last, by simp [SharedList.loadNext, shows.next, more]⟩

theorem Chain.loadNext (chain : Chain c s) (here : c.At n ptr) (shows : Shows c n b) :
    (n < c.last ∧ s.loadNext b = .ok (some (c.address (n + 1)))) ∨ (n = c.last ∧ s.loadNext b = .ok none) :=
  loadNext_linked chain.shows here shows

theorem Shows.isAtIndex (shows : Shows c n b) (slot : Nat) : b.isAtIndex (startIndex slot) = true ↔ n = slot / 32 := by
  rw [Block.isAtIndex, shows.start, startIndex, BLOCK_CAP, beq_iff_eq]
  omega

theorem Shows.isFinal (shows : Shows c n b) : b.isFinal = true ↔ c.Final n := by
  rw [isFinal_iff]
  constructor
  · intro final o inside
    rw [← shows.ready o inside]
    exact final o inside
  · intro final o inside
    rw [shows.ready o inside]
    exact final o inside

theorem Shows.isReleased (shows : Shows c n b) : 0 = RELEASED &&& b.readySlots ↔ (c.phase n).isReleased = false := by
  rw [released_iff, shows.released]

end Blocks

section Sending

variable [DecidableEq I] {i : I} {call : Sending T}

inductive SendingMoves (c : Chart I T) (s : SharedList I T) (i : I) (call : Sending T) : SharedList I T → Prop where
  | loads : call.stage = .claimed → SendingMoves c s i call (s.goes i call (.loaded s.blockTail))
  | measures (ptr : Nat) (tries : Bool) : call.stage = .loaded ptr →
      SendingMoves c s i call (s.goes i call (.walking ptr tries))
  | arrives (ptr : Nat) (tries : Bool) : call.stage = .walking ptr tries → c.At (call.slot / 32) ptr →
      SendingMoves c s i call (s.goes i call (.writing ptr))
  | passes (ptr : Nat) (tries : Bool) : call.stage = .walking ptr tries → ¬ c.At (call.slot / 32) ptr →
      SendingMoves c s i call (s.goes i call (.following ptr tries))
  | follows (ptr n : Nat) (tries : Bool) : call.stage = .following ptr tries → c.At n ptr → n < c.last →
      SendingMoves c s i call (s.goes i call (.judging ptr (c.address (n + 1)) tries))
  | ends (ptr : Nat) (tries : Bool) : call.stage = .following ptr tries → c.At c.last ptr →
      SendingMoves c s i call (s.goes i call (.growing ptr tries))
  | allocates (ptr n address : Nat) (tries : Bool) : call.stage = .growing ptr tries → c.At n ptr →
      s.blocks address = none →
      SendingMoves c s i call ((s.setBlock address (.new (32 * (n + 1)))).goes i call (.linking ptr address tries))
  | links (ptr fresh : Nat) (tries : Bool) (b : Block T) : call.stage = .linking ptr fresh tries → c.At c.last ptr →
      s.blocks ptr = some b →
      SendingMoves c s i call
        ((s.setBlock ptr { b with next := some fresh }).goes i call (.judging ptr fresh tries))
  | meets (ptr fresh n : Nat) (tries : Bool) : call.stage = .linking ptr fresh tries → c.At n ptr → n < c.last →
      SendingMoves c s i call
        (s.goes i call (.numbering ptr (c.address (n + 1)) (c.address (n + 1)) fresh tries))
  | numbers (ptr next curr fresh n : Nat) (tries : Bool) (b : Block T) :
      call.stage = .numbering ptr next curr fresh tries → c.At n curr → s.blocks fresh = some b →
      SendingMoves c s i call
        ((s.setBlock fresh { b with startIndex := 32 * (n + 1) }).goes i call (.appending ptr next curr fresh tries))
  | appends (ptr next curr fresh : Nat) (tries : Bool) (b : Block T) :
      call.stage = .appending ptr next curr fresh tries → c.At c.last curr → s.blocks curr = some b →
      SendingMoves c s i call
        ((s.setBlock curr { b with next := some fresh }).goes i call (.judging ptr next tries))
  | runsOn (ptr next curr fresh n : Nat) (tries : Bool) : call.stage = .appending ptr next curr fresh tries →
      c.At n curr → n < c.last →
      SendingMoves c s i call (s.goes i call (.numbering ptr next (c.address (n + 1)) fresh tries))
  | finds (ptr next n : Nat) : call.stage = .judging ptr next true → c.At n ptr → c.Final n →
      SendingMoves c s i call (s.goes i call (.advancing ptr next))
  | leaves (ptr next : Nat) (tries : Bool) : call.stage = .judging ptr next tries →
      SendingMoves c s i call (s.goes i call (.walking next false))
  | advances (ptr next : Nat) : call.stage = .advancing ptr next → s.blockTail = ptr →
      SendingMoves c s i call ({ s with blockTail := next }.goes i call (.observing ptr next))
  | trails (ptr next : Nat) : call.stage = .advancing ptr next →
      SendingMoves c s i call (s.goes i call (.walking next false))
  | observes (ptr next : Nat) : call.stage = .observing ptr next →
      SendingMoves c s i call (s.goes i call (.recording ptr next s.tailPosition))
  | records (ptr next tailPosition : Nat) (b : Block T) : call.stage = .recording ptr next tailPosition →
      s.blocks ptr = some b →
      SendingMoves c s i call
        ((s.setBlock ptr { b with observedTailPosition := tailPosition }).goes i call (.releasing ptr next))
  | releases (ptr next : Nat) (b : Block T) : call.stage = .releasing ptr next → s.blocks ptr = some b →
      SendingMoves c s i call
        ((s.setBlock ptr { b with readySlots := b.readySlots ||| RELEASED }).goes i call (.walking next true))
  | seals (ptr : Nat) (b : Block T) : call.stage = .writing ptr → call.value = none → s.blocks ptr = some b →
      SendingMoves c s i call ((s.setBlock ptr b.txClose).setSender i none)
  | writes (ptr : Nat) (value : T) (b : Block T) : call.stage = .writing ptr → call.value = some value →
      s.blocks ptr = some b →
      SendingMoves c s i call
        ((s.setBlock ptr { b with values := Function.update b.values (offset call.slot) (some value) }).goes i call
          (.publishing ptr))
  | publishes (ptr : Nat) (b : Block T) : call.stage = .publishing ptr → s.blocks ptr = some b →
      SendingMoves c s i call
        ((s.setBlock ptr { b with readySlots := PackedWord.set b.readySlots (offset call.slot) }).setSender i none)

/-- Nothing that a call accesses has been freed, and no value is overwritten. -/
theorem stepSending_moves (chain : Chain c s) (owns : Owns c s.blocks s.owned) (sender : s.senders i = some call)
    (fits : CallFits c s.blocks i call) {address : Nat}
    (free : ∀ ptr tries, call.stage = .growing ptr tries → s.blocks address = none) :
    ∃ t, s.stepSending i call address = .ok t ∧ SendingMoves c s i call t := by
  obtain ⟨n, stands, _⟩ := fits.stands
  have blank (fresh : Nat) (own : call.stage.fresh = some fresh) : Blank s.blocks fresh :=
    owns.blank i fresh (by simp [owned, sender, own])
  cases stage : call.stage with
  | claimed => exact ⟨_, by simp [stepSending, stage], .loads stage⟩
  | loaded ptr =>
    rw [stage] at stands
    obtain ⟨b, _, found, _⟩ := chain.block stands.1
    exact ⟨_, by simp [stepSending, stage, found, Bind.bind, Except.bind, pure, Except.pure]; rfl, .measures ptr _ stage⟩
  | walking ptr tries =>
    rw [stage] at stands
    obtain ⟨b, _, found, shows⟩ := chain.block stands.1
    cases there : b.isAtIndex (startIndex call.slot) with
    | true =>
      have here := (shows.isAtIndex call.slot).mp there
      refine ⟨_, ?_, .arrives ptr tries stage (here ▸ stands.1)⟩
      simp [stepSending, stage, found, there, Bind.bind, Except.bind, pure, Except.pure]
    | false =>
      refine ⟨_, ?_, .passes ptr tries stage fun here => ?_⟩
      · simp [stepSending, stage, found, there, Bind.bind, Except.bind, pure, Except.pure]
      · have same := (shows.isAtIndex call.slot).mpr (chain.apart _ _ _ stands.1 here)
        rw [there] at same
        cases same
  | following ptr tries =>
    rw [stage] at stands
    obtain ⟨b, _, found, shows⟩ := chain.block stands.1
    rcases chain.loadNext stands.1 shows with ⟨more, loaded⟩ | ⟨rfl, loaded⟩
    · refine ⟨_, ?_, .follows ptr n tries stage stands.1 more⟩
      simp [stepSending, stage, found, loaded, Bind.bind, Except.bind, pure, Except.pure]
    · refine ⟨_, ?_, .ends ptr tries stage stands.1⟩
      simp [stepSending, stage, found, loaded, Bind.bind, Except.bind, pure, Except.pure]
  | growing ptr tries =>
    rw [stage] at stands
    obtain ⟨b, _, found, shows⟩ := chain.block stands.1
    refine ⟨_, ?_, .allocates ptr n address tries stage stands.1 (free ptr tries stage)⟩
    have start : b.startIndex + BLOCK_CAP = 32 * (n + 1) := by rw [shows.start, BLOCK_CAP]; omega
    simp [stepSending, stage, found, start, Bind.bind, Except.bind, pure, Except.pure]
  | linking ptr fresh tries =>
    rw [stage] at stands
    obtain ⟨b, there, found, shows⟩ := chain.block stands.1
    by_cases more : n < c.last
    · refine ⟨_, ?_, .meets ptr fresh n tries stage stands.1 more⟩
      simp [stepSending, stage, found, shows.next, more, Bind.bind, Except.bind, pure, Except.pure]
    · obtain rfl : n = c.last := Nat.le_antisymm stands.1.2.1 (Nat.le_of_not_lt more)
      refine ⟨_, ?_, .links ptr fresh tries b stage stands.1 there⟩
      simp [stepSending, stage, found, shows.next, Bind.bind, Except.bind, pure, Except.pure]
  | numbering ptr next curr fresh tries =>
    rw [stage] at stands
    obtain ⟨m, _, here⟩ := stands.2.2.2
    obtain ⟨b, _, found, shows⟩ := chain.block here
    obtain ⟨new, there, _⟩ := blank fresh (by rw [stage]; rfl)
    refine ⟨_, ?_, .numbers ptr next curr fresh m tries new stage here there⟩
    have start : b.startIndex + BLOCK_CAP = 32 * (m + 1) := by rw [shows.start, BLOCK_CAP]; omega
    have new' : s.block fresh = .ok new := by simp [SharedList.block, there]
    simp [stepSending, stage, found, new', start, Bind.bind, Except.bind, pure, Except.pure]
  | appending ptr next curr fresh tries =>
    rw [stage] at stands
    obtain ⟨m, _, here, _⟩ := stands.2.2.2
    obtain ⟨b, there, found, shows⟩ := chain.block here
    by_cases more : m < c.last
    · refine ⟨_, ?_, .runsOn ptr next curr fresh m tries stage here more⟩
      simp [stepSending, stage, found, shows.next, more, Bind.bind, Except.bind, pure, Except.pure]
    · obtain rfl : m = c.last := Nat.le_antisymm here.2.1 (Nat.le_of_not_lt more)
      refine ⟨_, ?_, .appends ptr next curr fresh tries b stage here there⟩
      simp [stepSending, stage, found, shows.next, Bind.bind, Except.bind, pure, Except.pure]
  | judging ptr next tries =>
    rw [stage] at stands
    obtain ⟨b, _, found, shows⟩ := chain.block stands.1
    cases goes : tries && b.isFinal with
    | true =>
      obtain ⟨rfl, final⟩ := Bool.and_eq_true_iff.mp goes
      refine ⟨_, ?_, .finds ptr next n stage stands.1 (shows.isFinal.mp final)⟩
      simp [stepSending, stage, found, final, Bind.bind, Except.bind, pure, Except.pure]
    | false =>
      refine ⟨_, ?_, .leaves ptr next tries stage⟩
      simp [stepSending, stage, found, goes, Bind.bind, Except.bind, pure, Except.pure]
  | advancing ptr next =>
    by_cases same : s.blockTail = ptr
    · exact ⟨_, by simp [stepSending, stage, same], .advances ptr next stage same⟩
    · exact ⟨_, by simp [stepSending, stage, same], .trails ptr next stage⟩
  | observing ptr next => exact ⟨_, by simp [stepSending, stage], .observes ptr next stage⟩
  | recording ptr next tailPosition =>
    rw [stage] at stands
    obtain ⟨b, there, found, _⟩ := chain.block stands.1
    refine ⟨_, ?_, .records ptr next tailPosition b stage there⟩
    simp [stepSending, stage, found, Bind.bind, Except.bind, pure, Except.pure]
  | releasing ptr next =>
    rw [stage] at stands
    obtain ⟨b, there, found, _⟩ := chain.block stands.1
    refine ⟨_, ?_, .releases ptr next b stage there⟩
    simp [stepSending, stage, found, Bind.bind, Except.bind, pure, Except.pure]
  | writing ptr =>
    rw [stage] at stands
    obtain ⟨b, there, found, shows⟩ := chain.block stands.1
    cases value : call.value with
    | none =>
      refine ⟨_, ?_, .seals ptr b stage value there⟩
      simp [stepSending, stage, found, value, Bind.bind, Except.bind, pure, Except.pure]
    | some v =>
      have slotted : c.slots call.slot = .claimed (some v) := by
        simpa [Sending.Slotted, stage, Stage.publishes, value] using fits.slotted
      have empty : b.values (offset call.slot) = none := by
        have within : call.slot % 32 < 32 := Nat.mod_lt _ (by decide)
        have at_slot : 32 * n + call.slot % 32 = call.slot := by rw [stands.2]; exact Nat.div_add_mod call.slot 32
        have stored := shows.values (call.slot % 32) within
        rw [at_slot, slotted] at stored
        exact stored
      refine ⟨_, ?_, .writes ptr v b stage value there⟩
      simp [stepSending, stage, found, value, empty, Bind.bind, Except.bind, pure, Except.pure]
  | publishing ptr =>
    rw [stage] at stands
    obtain ⟨b, there, found, _⟩ := chain.block stands.1
    refine ⟨_, ?_, .publishes ptr b stage there⟩
    simp [stepSending, stage, found, Bind.bind, Except.bind, pure, Except.pure]

end Sending

end Osaka.Sync.Mpsc.SharedList
