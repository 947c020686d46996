import Osaka.Sync.Mpsc.SharedListSteps

set_option autoImplicit false

namespace Osaka.Sync.Mpsc.SharedList

open Transitions

variable {I T : Type} {c d : Chart I T} {s t : SharedList I T} {b : Block T} {n m ptr a : Nat}

section Charts

def Chart.grow (c : Chart I T) (fresh : Nat) : Chart I T :=
  { c with last := c.last + 1, address := Function.update c.address (c.last + 1) fresh }

def Chart.setPhase (c : Chart I T) (n : Nat) (phase : Phase I) : Chart I T :=
  { c with phase := Function.update c.phase n phase }

def Chart.setSlot (c : Chart I T) (k : Nat) (slot : Slot T) : Chart I T :=
  { c with slots := Function.update c.slots k slot }

theorem Chart.grow_address (c : Chart I T) (fresh : Nat) :
    (c.grow fresh).address n = if n = c.last + 1 then fresh else c.address n :=
  Function.update_apply c.address (c.last + 1) fresh n

theorem Chart.setPhase_phase (c : Chart I T) (phase : Phase I) :
    (c.setPhase n phase).phase m = if m = n then phase else c.phase m :=
  Function.update_apply c.phase n phase m

theorem Chart.setSlot_slots (c : Chart I T) (k : Nat) (slot : Slot T) :
    (c.setSlot k slot).slots n = if n = k then slot else c.slots n :=
  Function.update_apply c.slots k slot n

theorem Chart.At.grow (here : c.At n ptr) (fresh : Nat) : (c.grow fresh).At n ptr := by
  obtain ⟨from', within, address⟩ := here
  refine ⟨from', Nat.le_succ_of_le within, ?_⟩
  rw [c.grow_address, if_neg (by omega), address]

theorem Chart.grow_at (c : Chart I T) (fresh : Nat) (some' : c.first ≤ c.last + 1) :
    (c.grow fresh).At (c.last + 1) fresh :=
  ⟨some', Nat.le_refl _, by rw [c.grow_address, if_pos rfl]⟩

theorem Chart.At.of_grow {fresh : Nat} (here : (c.grow fresh).At n ptr) :
    c.At n ptr ∨ n = c.last + 1 ∧ ptr = fresh := by
  obtain ⟨from', within, address⟩ := here
  rw [c.grow_address] at address
  split at address
  next last => exact .inr ⟨last, address.symm⟩
  next other =>
    have within : n ≤ c.last + 1 := within
    exact .inl ⟨from', by omega, address⟩

end Charts

section Calls

variable {i k : I} {call : Sending T} {stage : Stage} {slot : Nat} {blocks blocks' : Nat → Option (Block T)}

theorem Stage.Stands.mono (stands : stage.Stands c blocks i slot n)
    (linked : ∀ m ptr, n ≤ m → c.At m ptr → d.At m ptr)
    (phase : ∀ m, (c.phase m).winner = some i → d.phase m = c.phase m)
    (ready : ∀ k, (c.slots k).isReady = true → (d.slots k).isReady = true)
    (fresh : ∀ a, stage.fresh = some a → blocks' a = blocks a) : stage.Stands d blocks' i slot n := by
  have here := linked n
  have further := linked (n + 1)
  cases stage with
  | claimed => trivial
  | loaded | walking => exact ⟨here _ (Nat.le_refl n) stands.1, stands.2⟩
  | following | growing | writing | publishing => exact ⟨here _ (Nat.le_refl n) stands.1, stands.2⟩
  | linking ptr new tries =>
    refine ⟨here _ (Nat.le_refl n) stands.1, stands.2.1, ?_⟩
    rw [Numbered, fresh new rfl]
    exact stands.2.2
  | numbering ptr next curr new tries =>
    obtain ⟨at_ptr, before, at_next, m, from', at_curr⟩ := stands
    exact ⟨here _ (Nat.le_refl n) at_ptr, before, further _ (Nat.le_succ n) at_next, m, from', linked m _ from' at_curr⟩
  | appending ptr next curr new tries =>
    obtain ⟨at_ptr, before, at_next, m, from', at_curr, numbered⟩ := stands
    refine ⟨here _ (Nat.le_refl n) at_ptr, before, further _ (Nat.le_succ n) at_next, m, from',
      linked m _ from' at_curr, ?_⟩
    rw [Numbered, fresh new rfl]
    exact numbered
  | judging =>
    exact ⟨here _ (Nat.le_refl n) stands.1, stands.2.1, further _ (Nat.le_succ n) stands.2.2⟩
  | advancing ptr next =>
    obtain ⟨at_ptr, before, at_next, final⟩ := stands
    exact ⟨here _ (Nat.le_refl n) at_ptr, before, further _ (Nat.le_succ n) at_next,
      fun o inside => ready _ (final o inside)⟩
  | observing ptr next =>
    obtain ⟨at_ptr, before, at_next, won⟩ := stands
    refine ⟨here _ (Nat.le_refl n) at_ptr, before, further _ (Nat.le_succ n) at_next, ?_⟩
    rw [phase n (by rw [won]; rfl), won]
  | recording ptr next tailPosition =>
    obtain ⟨at_ptr, before, at_next, won⟩ := stands
    refine ⟨here _ (Nat.le_refl n) at_ptr, before, further _ (Nat.le_succ n) at_next, ?_⟩
    rw [phase n (by rw [won]; rfl), won]
  | releasing ptr next =>
    obtain ⟨at_ptr, before, at_next, tailPosition, won⟩ := stands
    refine ⟨here _ (Nat.le_refl n) at_ptr, before, further _ (Nat.le_succ n) at_next, tailPosition, ?_⟩
    rw [phase n (by rw [won]; rfl), won]

theorem CallFits.mono (fits : CallFits c blocks i call)
    (linked : ∀ n, c.Guarded n call.slot → ∀ m ptr, n ≤ m → c.At m ptr → d.At m ptr)
    (phase : ∀ m, (c.phase m).winner = some i → d.phase m = c.phase m)
    (stamp : ∀ m tailPosition, (d.phase m).stamp = some tailPosition →
      (c.phase m).stamp = some tailPosition ∨ call.slot < tailPosition)
    (ready : ∀ k, (c.slots k).isReady = true → (d.slots k).isReady = true)
    (own : d.slots call.slot = c.slots call.slot) (tail : d.tail ≤ call.slot / 32)
    (fresh : ∀ a, call.stage.fresh = some a → blocks' a = blocks a) : CallFits d blocks' i call := by
  obtain ⟨n, stands, guarded⟩ := fits.stands
  refine ⟨by rw [own]; exact fits.slotted, tail, n, stands.mono (linked n guarded) phase ready fresh, ?_⟩
  intro m from' tailPosition stamped
  rcases stamp m tailPosition stamped with before | later
  · exact guarded m from' tailPosition before
  · exact later

theorem Receiving.Fits.mono {receiver : Receiving} {index : Nat} (fits : receiver.Fits c blocks index)
    (head : d.head = c.head) (first : d.first = c.first) (linked : ∀ m ptr, c.At m ptr → d.At m ptr)
    (released : ∀ tailPosition, c.phase c.first = .released tailPosition → d.phase c.first = .released tailPosition)
    (ready : (c.slots index).isReady = true → (d.slots index).isReady = true)
    (block : ∀ a, receiver.block = some a → blocks' a = blocks a) : receiver.Fits d blocks' index := by
  cases receiver with
  | idle | called | advancing | reclaiming | reading => trivial
  | stepping =>
    rw [Receiving.Fits, head]
    exact fits
  | inspecting =>
    obtain ⟨ahead, tailPosition, passed⟩ := fits
    rw [Receiving.Fits, head, first]
    exact ⟨ahead, tailPosition, released _ passed⟩
  | unlinking =>
    obtain ⟨ahead, tailPosition, below, passed⟩ := fits
    rw [Receiving.Fits, head, first]
    exact ⟨ahead, tailPosition, below, released _ passed⟩
  | resetting tried a =>
    rw [Receiving.Fits, Emptied, block a rfl]
    exact fits
  | tailing tried a | freeing tried a =>
    rw [Receiving.Fits, Blank, block a rfl]
    exact fits
  | numbering tried a curr left =>
    obtain ⟨blank, m, here⟩ := fits
    refine ⟨?_, m, linked m _ here⟩
    rw [Blank, block a rfl]
    exact blank
  | appending tried a curr left =>
    obtain ⟨blank, m, here, numbered⟩ := fits
    refine ⟨?_, m, linked m _ here, ?_⟩
    · rw [Blank, block a rfl]
      exact blank
    · rw [Numbered, block a rfl]
      exact numbered
  | taking => exact ready fits
  | dropping => exact fits.elim

end Calls

section Chains

theorem Chain.outside (chain : Chain c s) (away : ∀ n, ¬ c.At n a) (x : Option (Block T)) :
    Chain c { s with blocks := Function.update s.blocks a x } := by
  refine ⟨chain.head, chain.tail, chain.apart, fun n ptr here => ?_, chain.blockTail, chain.headAt, chain.freeHead,
    chain.phases⟩
  have other : ptr ≠ a := by
    rintro rfl
    exact away n here
  obtain ⟨b, found, shows⟩ := chain.shows n ptr here
  exact ⟨b, by simp [other, found], shows⟩

theorem Shows.congr (shows : Shows c n b) (last : d.last = c.last) (address : d.address = c.address)
    (phase : d.phase n = c.phase n) (slots : ∀ o < 32, d.slots (32 * n + o) = c.slots (32 * n + o)) : Shows d n b := by
  refine ⟨shows.start, ?_, fun o inside => ?_, fun o inside => ?_, ?_, ?_, ?_⟩
  · rw [last, address]
    exact shows.next
  · rw [slots o inside]
    exact shows.ready o inside
  · rw [slots o inside]
    exact shows.values o inside
  · rw [phase]
    exact shows.released
  · rw [shows.closed]
    constructor
    · rintro ⟨o, inside, sealed⟩
      exact ⟨o, inside, (slots o inside).trans sealed⟩
    · rintro ⟨o, inside, sealed⟩
      exact ⟨o, inside, (slots o inside).symm.trans sealed⟩
  · rw [phase]
    exact shows.observed

theorem Chain.rewrites (chain : Chain c s) (here : c.At n ptr) {phase : Nat → Phase I} {slots : Nat → Slot T}
    (shows : Shows { c with phase := phase, slots := slots } n b)
    (phases : ∀ m, m ≠ n → phase m = c.phase m) (own : phase n = .ahead ↔ c.phase n = .ahead)
    (others : ∀ k, k / 32 ≠ n → slots k = c.slots k) :
    Chain { c with phase := phase, slots := slots } (s.setBlock ptr b) := by
  refine ⟨chain.head, chain.tail, chain.apart, fun m other there => ?_, chain.blockTail, chain.headAt, chain.freeHead,
    fun m => ?_⟩
  · have there : c.At m other := there
    by_cases same : m = n
    · subst same
      obtain rfl := there.unique here
      exact ⟨b, by simp [setBlock], shows⟩
    · have apart : other ≠ ptr := by
        rintro rfl
        exact same (chain.apart _ _ _ there here)
      obtain ⟨further, found, shows'⟩ := chain.shows m other there
      refine ⟨further, by simp [setBlock, apart, found], shows'.congr rfl rfl (phases m same) fun o inside => ?_⟩
      exact others _ (by omega)
  · by_cases same : m = n
    · rw [same, ← chain.phases n]
      exact own
    · rw [← chain.phases m]
      exact iff_of_eq (congrArg (· = Phase.ahead) (phases m same))

section Growing

variable {fresh : Nat}

theorem Chart.grow_near (within : n ≤ c.last) : (c.grow fresh).address n = c.address n := by
  rw [c.grow_address, if_neg (by omega)]

theorem Shows.grow (shows : Shows c n b) (more : n < c.last) : Shows (c.grow fresh) n b := by
  refine ⟨shows.start, ?_, shows.ready, shows.values, shows.released, shows.closed, shows.observed⟩
  have within : n < (c.grow fresh).last := Nat.lt_succ_of_lt more
  rw [Chart.grow_near more, shows.next, if_pos more, if_pos within]

theorem Shows.grow_last (shows : Shows c c.last b) : Shows (c.grow fresh) c.last { b with next := some fresh } := by
  refine ⟨shows.start, ?_, shows.ready, shows.values, shows.released, shows.closed, shows.observed⟩
  have within : c.last < (c.grow fresh).last := Nat.lt_succ_self _
  rw [if_pos within, c.grow_address, if_pos rfl]

theorem blank_shows (start : b.startIndex = 32 * c.last) (next : b.next = none) (readySlots : b.readySlots = 0)
    (values : ∀ o < 32, b.values o = none) (ahead : c.phase c.last = .ahead)
    (quiet : ∀ o < 32, (c.slots (32 * c.last + o)).touched = false) : Shows c c.last b := by
  refine ⟨start, ?_, fun o inside => ?_, fun o inside => ?_, ?_, ?_, ?_⟩
  · rw [if_neg (Nat.lt_irrefl _), next]
  · have quiet := quiet o inside
    cases slot : c.slots (32 * c.last + o) <;> simp [slot, Slot.touched, Slot.isReady, readySlots] at quiet ⊢
  · have quiet := quiet o inside
    cases slot : c.slots (32 * c.last + o) <;> simp [slot, Slot.touched, Slot.stored, values o inside] at quiet ⊢
  · simp [readySlots, ahead, Phase.isReleased]
  · constructor
    · intro bit
      simp [readySlots] at bit
    · rintro ⟨o, inside, sealed⟩
      have quiet := quiet o inside
      rw [sealed] at quiet
      cases quiet
  · intro tailPosition record
    rw [ahead] at record
    cases record

theorem Chain.grow (chain : Chain c s) (here : c.At c.last ptr) (found : s.blocks ptr = some b)
    (blank : Blank s.blocks fresh) (numbered : Numbered s.blocks fresh (c.last + 1)) (away : ∀ n, ¬ c.At n fresh)
    (untouched : ∀ k, (c.slots k).touched = true → k / 32 ≤ c.last) :
    Chain (c.grow fresh) (s.setBlock ptr { b with next := some fresh }) := by
  have tail : c.tail ≤ c.last := chain.tail.2
  have other : fresh ≠ ptr := by
    rintro rfl
    exact away _ here
  have blockTail : s.blockTail = (c.grow fresh).address c.tail := by rw [Chart.grow_near tail, chain.blockTail]
  have headAt : s.head = (c.grow fresh).address c.head := by rw [Chart.grow_near chain.head.2, chain.headAt]
  have freeHead : s.freeHead = (c.grow fresh).address c.first := by rw [Chart.grow_near here.1, chain.freeHead]
  refine ⟨⟨chain.head.1, Nat.le_succ_of_le chain.head.2⟩, ⟨chain.tail.1, Nat.le_succ_of_le tail⟩, ?_, ?_, blockTail,
    headAt, freeHead, chain.phases⟩
  · intro m n p first second
    rcases first.of_grow with first | ⟨rfl, last⟩
    · rcases second.of_grow with second | ⟨_, last⟩
      · exact chain.apart m n p first second
      · exact absurd (last ▸ first) (away m)
    · rcases second.of_grow with second | ⟨rfl, _⟩
      · exact absurd (last ▸ second) (away n)
      · rfl
  · intro n p there
    rcases there.of_grow with there | ⟨rfl, rfl⟩
    · obtain ⟨further, found', shows⟩ := chain.shows n p there
      by_cases last : n = c.last
      · subst last
        obtain rfl := there.unique here
        obtain rfl : further = b := Option.some.inj (found'.symm.trans found)
        exact ⟨_, by simp [setBlock], shows.grow_last⟩
      · have apart : p ≠ ptr := by
          rintro rfl
          exact last (chain.apart _ _ _ there here)
        exact ⟨further, by simp [setBlock, apart, found'], shows.grow (Nat.lt_of_le_of_ne there.2.1 last)⟩
    · obtain ⟨new, found', next, readySlots, values⟩ := blank
      obtain ⟨_, found'', start⟩ := numbered
      obtain rfl := Option.some.inj (found''.symm.trans found')
      have ahead : c.phase (c.last + 1) = .ahead := (chain.phases _).mpr (Nat.le_succ_of_le tail)
      refine ⟨_, by simp [setBlock, other, found'], blank_shows start next readySlots values ahead fun o inside => ?_⟩
      cases touched : ((c.grow p).slots (32 * (c.grow p).last + o)).touched with
      | false => rfl
      | true =>
        have within := untouched _ touched
        have last : (c.grow p).last = c.last + 1 := rfl
        omega

end Growing

end Chains

section Writing

variable {k : Nat} {i : I} {tailPosition : Nat} {value : T}

theorem getLsbD_released {bits : BitVec 64} {j : Nat} :
    (bits ||| RELEASED).getLsbD j = (decide (j = 32) || bits.getLsbD j) := by
  rw [BitVec.getLsbD_or, RELEASED, BitVec.getLsbD_twoPow, Bool.or_comm]
  by_cases flag : j = 32 <;> simp [flag, BLOCK_CAP, eq_comm]

theorem getLsbD_closed {bits : BitVec 64} {j : Nat} :
    (bits ||| TX_CLOSED).getLsbD j = (decide (j = 33) || bits.getLsbD j) := by
  rw [BitVec.getLsbD_or, TX_CLOSED, BitVec.getLsbD_twoPow, Bool.or_comm]
  by_cases flag : j = 33 <;> simp [flag, BLOCK_CAP, eq_comm]

theorem Shows.rephases (shows : Shows c n b) (phase : Phase I) (released : phase.isReleased = (c.phase n).isReleased)
    (record : phase.record = (c.phase n).record) : Shows (c.setPhase n phase) n b := by
  refine ⟨shows.start, shows.next, shows.ready, shows.values, ?_, shows.closed, ?_⟩
  · rw [c.setPhase_phase, if_pos rfl, released]
    exact shows.released
  · rw [c.setPhase_phase, if_pos rfl, record]
    exact shows.observed

theorem Shows.records (shows : Shows c n b) (phase : c.phase n = .stamped i tailPosition) :
    Shows (c.setPhase n (.recorded i tailPosition)) n { b with observedTailPosition := tailPosition } := by
  refine ⟨shows.start, shows.next, shows.ready, shows.values, ?_, shows.closed, ?_⟩
  · rw [c.setPhase_phase, if_pos rfl, shows.released, phase]
    rfl
  · rw [c.setPhase_phase, if_pos rfl]
    intro p record
    exact Option.some.inj record

theorem Shows.releases (shows : Shows c n b) (phase : c.phase n = .recorded i tailPosition) :
    Shows (c.setPhase n (.released tailPosition)) n { b with readySlots := b.readySlots ||| RELEASED } := by
  refine ⟨shows.start, shows.next, fun o inside => ?_, shows.values, ?_, ?_, ?_⟩
  · rw [getLsbD_released, shows.ready o inside]
    have other : o ≠ 32 := by omega
    simp [other, Chart.setPhase]
  · rw [c.setPhase_phase, if_pos rfl, getLsbD_released]
    rfl
  · rw [getLsbD_released]
    exact shows.closed
  · rw [c.setPhase_phase, if_pos rfl]
    intro p record
    exact shows.observed p (by rw [phase]; exact record)

theorem other_slot {slot : Slot T} {o : Nat} (other : o ≠ k % 32) :
    (c.setSlot k slot).slots (32 * (k / 32) + o) = c.slots (32 * (k / 32) + o) := by
  rw [c.setSlot_slots, if_neg (by omega)]

theorem own_slot {slot : Slot T} : (c.setSlot k slot).slots (32 * (k / 32) + k % 32) = slot := by
  rw [c.setSlot_slots, if_pos (Nat.div_add_mod k 32)]

theorem Shows.slots (shows : Shows c (k / 32) b) {slot : Slot T} {readySlots : BitVec 64} {values : Nat → Option T}
    (bits : ∀ j ≠ k % 32, j < 33 → readySlots.getLsbD j = b.readySlots.getLsbD j)
    (ready : readySlots.getLsbD (k % 32) = slot.isReady)
    (others : ∀ o ≠ k % 32, values o = b.values o) (stored : values (k % 32) = slot.stored)
    (closed : readySlots.getLsbD 33 = true ↔ b.readySlots.getLsbD 33 = true ∨ slot = .sealed)
    (unsealed : c.slots k ≠ .sealed) :
    Shows (c.setSlot k slot) (k / 32) { b with readySlots := readySlots, values := values } := by
  refine ⟨shows.start, shows.next, fun o inside => ?_, fun o inside => ?_, ?_, ?_, shows.observed⟩
  · by_cases own : o = k % 32
    · rw [own, own_slot, ready]
    · rw [other_slot own, bits o own (by omega), shows.ready o inside]
  · by_cases own : o = k % 32
    · rw [own, own_slot]
      exact stored
    · rw [other_slot own, ← shows.values o inside]
      exact others o own
  · rw [bits 32 (by omega) (by omega)]
    exact shows.released
  · rw [closed, shows.closed]
    constructor
    · rintro (⟨o, inside, sealed⟩ | sealed)
      · have other : o ≠ k % 32 := by
          rintro rfl
          rw [Nat.div_add_mod] at sealed
          exact unsealed sealed
        exact ⟨o, inside, (other_slot other).trans sealed⟩
      · exact ⟨k % 32, Nat.mod_lt _ (by decide), own_slot.trans sealed⟩
    · rintro ⟨o, inside, sealed⟩
      by_cases own : o = k % 32
      · rw [own, own_slot] at sealed
        exact .inr sealed
      · rw [other_slot own] at sealed
        exact .inl ⟨o, inside, sealed⟩

theorem Shows.seals (shows : Shows c (k / 32) b) (claimed : c.slots k = .claimed none) :
    Shows (c.setSlot k .sealed) (k / 32) b.txClose := by
  have within : k % 32 < 32 := Nat.mod_lt _ (by decide)
  have ready := shows.ready (k % 32) within
  have stored := shows.values (k % 32) within
  rw [Nat.div_add_mod, claimed] at ready stored
  refine shows.slots (fun j _ inside => ?_) ?_ (fun _ _ => rfl) stored ?_ (by simp [claimed])
  · rw [getLsbD_closed]
    have other : j ≠ 33 := by omega
    simp [other]
  · rw [getLsbD_closed, ready]
    have other : k % 32 ≠ 33 := by omega
    simp [other, Slot.isReady]
  · rw [getLsbD_closed]
    simp

theorem Shows.writes (shows : Shows c (k / 32) b) (claimed : c.slots k = .claimed (some value)) :
    Shows (c.setSlot k (.written value)) (k / 32)
      { b with values := Function.update b.values (offset k) (some value) } := by
  have ready := shows.ready (k % 32) (Nat.mod_lt _ (by decide))
  rw [Nat.div_add_mod, claimed] at ready
  refine shows.slots (fun _ _ _ => rfl) ready (fun o other => ?_) ?_ (by simp) (by simp [claimed])
  · exact Function.update_of_ne other _ _
  · exact Function.update_self _ _ _

theorem Shows.publishes (shows : Shows c (k / 32) b) (written : c.slots k = .written value) :
    Shows (c.setSlot k (.ready value)) (k / 32) { b with readySlots := PackedWord.set b.readySlots (offset k) } := by
  have within : k % 32 < 32 := Nat.mod_lt _ (by decide)
  have stored := shows.values (k % 32) within
  rw [Nat.div_add_mod, written] at stored
  refine shows.slots (fun j other inside => ?_) ?_ (fun _ _ => rfl) stored ?_ (by simp [written])
  · rw [offset, BLOCK_CAP, getLsbD_set (by omega)]
    simp [Ne.symm other]
  · rw [offset, BLOCK_CAP, getLsbD_set (by omega)]
    simp [Slot.isReady]
  · rw [offset, BLOCK_CAP, getLsbD_set (by omega)]
    have other : k % 32 ≠ 33 := by omega
    simp [other]

theorem Shows.takes (shows : Shows c (k / 32) b) (there : c.slots k = .ready value) :
    Shows (c.setSlot k (.taken value)) (k / 32) { b with values := Function.update b.values (offset k) none } := by
  have ready := shows.ready (k % 32) (Nat.mod_lt _ (by decide))
  rw [Nat.div_add_mod, there] at ready
  refine shows.slots (fun _ _ _ => rfl) ready (fun o other => ?_) ?_ (by simp) (by simp [there])
  · exact Function.update_of_ne other _ _
  · exact Function.update_self _ _ _

end Writing

end Osaka.Sync.Mpsc.SharedList
