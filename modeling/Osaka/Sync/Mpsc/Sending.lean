import Osaka.Sync.Mpsc.Growth

set_option autoImplicit false

namespace Osaka.Sync.Mpsc

variable {T : Type} {y : Layout} {q : Fifo T} {l : BlockList T} {b : Block T} {a n : Nat}

section Finding

theorem Holds.release (holds : Holds y q l) (next : y.tail + 1 < y.last)
    (found : l.blocks (y.address y.tail) = some b) :
    Holds { y with tail := y.tail + 1 } q
      ({ l with blockTail := y.address (y.tail + 1) }.setBlock (y.address y.tail)
        (b.txRelease (32 * (y.tail + 1) + 1))) := by
  have room := holds.room
  refine { holds with
    tail_le := holds.tail_le.trans (Nat.le_succ _)
    tail_lt := next
    unused := ?_
    contents := ?_
    blockTail := rfl
    room := ?_ }
  · intro c beyond
    have used := holds.used y.tail holds.tail_le holds.tail_lt
    change l.allocated ≤ c at beyond
    rw [setBlock_blocks, if_neg (by omega)]
    exact holds.unused c beyond
  · intro n from' within
    obtain ⟨c, found', contents⟩ := holds.contents n from' within
    rw [setBlock_blocks]
    by_cases same : n = y.tail
    · subst same
      obtain rfl : b = c := by simpa [found] using found'
      rw [if_pos rfl]
      have bits (j : Nat) : (b.txRelease (32 * (y.tail + 1) + 1)).readySlots.getLsbD j =
          (decide (32 = j) || b.readySlots.getLsbD j) := getLsbD_set (by decide)
      refine ⟨_, rfl, ?_⟩
      change Contents _ l.index q y.tail _
      constructor
      · exact contents.start
      · exact contents.next
      · intro j inside
        have other : ¬32 = j := by omega
        rw [bits, contents.ready j inside]
        simp [other]
      · rw [bits]
        simp
      · rw [bits, contents.closed]
        simp
      · intro _
        rfl
      · exact contents.values
    · have other : y.address n ≠ y.address y.tail :=
        fun alike => same (holds.apart n y.tail from' within holds.tail_le holds.tail_lt alike)
      rw [if_neg other]
      refine ⟨c, found', { contents with released := ?_, observed := ?_ }⟩
      · have order : n < y.tail ↔ n < y.tail + 1 := by omega
        rw [contents.released]
        exact decide_eq_decide.mpr order
      · intro before
        exact contents.observed (by change n < y.tail + 1 at before; omega)
  · change l.index + q.values.length + q.closed.toNat ≤ 32 * (y.tail + 1 + 1)
    omega

theorem Holds.next (holds : Holds y q l) (found : l.blocks (y.address y.tail) = some b) :
    ∃ z m c, l.nextOrGrow (y.address y.tail) b = (z.address (z.tail + 1), m) ∧
      Holds z q m ∧ z.tail = y.tail ∧ z.tail + 1 < z.last ∧ z.address z.tail = y.address y.tail ∧
      m.blocks (z.address z.tail) = some c ∧ m.index = l.index ∧ m.tailPosition = l.tailPosition := by
  have last := holds.tail_lt
  obtain ⟨b', found', contents⟩ := holds.contents y.tail holds.tail_le last
  obtain rfl : b = b' := by simpa [found] using found'
  unfold BlockList.nextOrGrow
  by_cases more : y.tail + 1 < y.last
  · rw [contents.next, if_pos more]
    exact ⟨y, l, b, rfl, holds, rfl, more, rfl, found, rfl, rfl⟩
  · have final : y.tail = y.last - 1 := by omega
    have grown : Holds (y.grown l.allocated) q (l.grow (y.address y.tail) b).2 := by
      rw [final]
      apply grow_holds holds
      · rw [← final]
        exact found
      · rw [← final]
        exact contents.start
    have behind : (y.grown l.allocated).address (y.tail + 1) = l.allocated := by
      rw [Layout.grown_address, if_pos (by omega)]
    have stays : (y.grown l.allocated).address y.tail = y.address y.tail := by
      rw [Layout.grown_address, if_neg last.ne]
    rw [contents.next, if_neg more]
    refine ⟨y.grown l.allocated, (l.grow (y.address y.tail) b).2, { b with next := some l.allocated }, ?_, grown, rfl,
      Nat.succ_lt_succ last, stays, ?_, rfl, rfl⟩
    · exact Prod.ext behind.symm rfl
    · change (BlockList.setBlock _ _ _).blocks ((y.grown l.allocated).address y.tail) = _
      rw [stays, setBlock_blocks, if_pos rfl]

theorem walk_here (found : l.blocks a = some b) (start : b.startIndex = 32 * n) (fuel : Nat) (update : Bool) :
    l.walk (32 * n) (fuel + 1) a update = .ok (a, l) := by
  have here : b.isAtIndex (32 * n) = true := by
    rw [Block.isAtIndex, start]
    exact beq_self_eq_true _
  rw [BlockList.walk, block_ok found]
  simp only [bind, Except.bind, here, if_true]
  rfl

theorem findBlock_spec (rep : Represents y q l) (opened : q.closed = false) :
    ∃ z m, { l with tailPosition := l.tailPosition + 1 }.findBlock l.tailPosition = .ok (z.address z.tail, m) ∧
      Holds z q m ∧ z.tail = l.tailPosition / 32 ∧ m.index = l.index ∧
      m.tailPosition = l.tailPosition + 1 := by
  obtain ⟨holds, position, tail⟩ := rep
  rw [opened, Bool.toNat_false, Nat.add_zero] at position
  have used := holds.used y.tail holds.tail_le holds.tail_lt
  let l' : BlockList T := { l with tailPosition := l.tailPosition + 1 }
  have holds' : Holds y q l' := { holds with }
  obtain ⟨b, found, contents⟩ := holds'.contents y.tail holds.tail_le holds.tail_lt
  have found' := found
  rw [← holds'.blockTail] at found'
  obtain ⟨fuel, more⟩ : ∃ fuel, l.allocated + 1 = fuel + 2 := ⟨l.allocated - 1, by omega⟩
  change ∃ z m, l'.findBlock l.tailPosition = _ ∧ _
  unfold BlockList.findBlock
  rw [block_ok found']
  change ∃ z m, l'.walk (startIndex l.tailPosition) (l.allocated + 1) l'.blockTail
    (decide (b.distance (startIndex l.tailPosition) > offset l.tailPosition)) = _ ∧ _
  rw [more, startIndex_eq]
  by_cases same : y.tail = l.tailPosition / 32
  · have arrived := walk_here found' (contents.start.trans (by rw [same])) (fuel + 1)
      (decide (b.distance (32 * (l.tailPosition / 32)) > offset l.tailPosition))
    rw [holds'.blockTail] at arrived
    exact ⟨y, l', by rw [holds'.blockTail]; exact arrived, holds', same, rfl, rfl⟩
  · -- The slot is the first of the next block, and the block of the tail is full.
    have slot : l.tailPosition = 32 * (y.tail + 1) := by omega
    have block : l.tailPosition / 32 = y.tail + 1 := by omega
    have final : b.isFinal = true := by
      rw [isFinal_iff]
      intro j inside
      rw [contents.ready j inside, decide_eq_true_iff]
      change 32 * y.tail + j < l.index + q.values.length
      omega
    have update : decide (b.distance (32 * (l.tailPosition / 32)) > offset l.tailPosition) = true := by
      rw [decide_eq_true_iff, Block.distance, contents.start, offset, block, slot, BLOCK_CAP]
      omega
    obtain ⟨z, m, c, next, holdsz, tailz, morez, stays, foundz, index, positionz⟩ := holds'.next found
    have elsewhere : b.isAtIndex (32 * (l.tailPosition / 32)) = false := by
      rw [Block.isAtIndex, contents.start, beq_eq_false_iff_ne]
      omega
    rw [BlockList.walk, block_ok found', update]
    simp only [bind, Except.bind, elsewhere, final, Bool.false_eq_true, if_false]
    rw [← holds'.blockTail] at next
    have at' : m.blockTail = l'.blockTail := by rw [holdsz.blockTail, stays, holds'.blockTail]
    have end' : l'.blockTail = z.address z.tail := by rw [← at', holdsz.blockTail]
    have observed : m.tailPosition = 32 * (z.tail + 1) + 1 := by
      rw [positionz, tailz]
      change l.tailPosition + 1 = _
      omega
    have released := holdsz.release morez foundz
    rw [← observed] at released
    obtain ⟨d, foundd, contentsd⟩ := released.contents (z.tail + 1) (holdsz.tail_le.trans (Nat.le_succ _)) morez
    simp only [next, Bool.and_self, if_true, if_pos at']
    rw [end', block_ok foundz]
    have arrived := walk_here foundd contentsd.start fuel true
    rw [block, ← tailz]
    exact ⟨_, _, arrived, released, rfl, index, positionz⟩

end Finding

section Pushing

theorem getElem?_concat (values : List T) (value : T) (k : Nat) :
    (values ++ [value])[k]? = if k = values.length then some value else values[k]? := by
  grind -linarith

theorem Holds.change {r : Fifo T} {c : Block T} (holds : Holds y q l)
    (self : Contents y l.index r y.tail c)
    (others : ∀ n b, n ≠ y.tail → Contents y l.index q n b → Contents y l.index r n b)
    (room : l.index + r.values.length + r.closed.toNat ≤ 32 * (y.tail + 1)) :
    Holds y r (l.setBlock (y.address y.tail) c) := by
  have used := holds.used y.tail holds.tail_le holds.tail_lt
  refine { holds with unused := ?_, contents := ?_, room := room }
  · intro a beyond
    change l.allocated ≤ a at beyond
    rw [setBlock_blocks, if_neg (by omega)]
    exact holds.unused a beyond
  · intro n from' within
    rw [setBlock_blocks]
    by_cases same : n = y.tail
    · rw [same, if_pos rfl]
      exact ⟨c, rfl, self⟩
    · have other : y.address n ≠ y.address y.tail :=
        fun alike => same (holds.apart n y.tail from' within holds.tail_le holds.tail_lt alike)
      obtain ⟨b, found, contents⟩ := holds.contents n from' within
      rw [if_neg other]
      exact ⟨b, found, others n b same contents⟩

theorem Holds.write {slot : Nat} (value : T) (holds : Holds y q l) (opened : q.closed = false)
    (next : slot = l.index + q.values.length) (tail : y.tail = slot / 32)
    (contents : Contents y l.index q y.tail b) :
    ∃ c, b.write slot value = .ok c ∧
      Holds y { q with values := q.values ++ [value] } (l.setBlock (y.address y.tail) c) := by
  have empty : b.values (offset slot) = none := by
    have inside : slot % 32 < 32 := Nat.mod_lt _ (by decide)
    change b.values (slot % 32) = none
    rw [contents.values _ inside, List.getElem?_eq_none (by omega), ite_self]
  have bits (j : Nat) : (PackedWord.set b.readySlots (offset slot)).getLsbD j =
      (decide (slot % 32 = j) || b.readySlots.getLsbD j) := by
    apply getLsbD_set
    change slot % 32 < 64
    omega
  have length : (q.values ++ [value]).length = q.values.length + 1 := by simp
  refine ⟨_, by rw [Block.write, empty], holds.change ?_ ?_ ?_⟩
  · constructor
    · exact contents.start
    · exact contents.next
    · intro j inside
      rw [bits, contents.ready j inside, length, ← Bool.decide_or, decide_eq_decide]
      omega
    · have other : ¬slot % 32 = 32 := by omega
      rw [bits, contents.released, decide_eq_false other, Bool.false_or]
    · have other : ¬slot % 32 = 33 := by omega
      rw [bits, contents.closed, opened, decide_eq_false other, Bool.false_or]
      rfl
    · exact contents.observed
    · intro j inside
      change Function.update b.values (slot % 32) (some value) j = _
      rw [Function.update_apply, contents.values j inside, getElem?_concat]
      by_cases here : j = slot % 32
      · rw [if_pos here, if_pos (by omega), if_pos (by omega)]
      · rw [if_neg here]
        by_cases behind : l.index ≤ 32 * y.tail + j
        · rw [if_pos behind, if_pos behind, if_neg (by omega)]
        · rw [if_neg behind, if_neg behind]
  · intro n d other before
    refine { before with ready := ?_, closed := ?_, values := ?_ }
    · intro j inside
      rw [before.ready j inside, length, decide_eq_decide]
      omega
    · rw [before.closed, opened]
      rfl
    · intro j inside
      rw [before.values j inside, getElem?_concat]
      by_cases behind : l.index ≤ 32 * n + j
      · rw [if_pos behind, if_pos behind, if_neg (by omega)]
      · rw [if_neg behind, if_neg behind]
  · change l.index + (q.values ++ [value]).length + q.closed.toNat ≤ _
    rw [length, opened, Bool.toNat_false]
    omega

/-- The slot that is written is in a block that is linked, at its start index. -/
theorem push_spec (rep : Represents y q l) (opened : q.closed = false) (value : T) :
    ∃ z m, l.push value = .ok m ∧ Represents z { q with values := q.values ++ [value] } m := by
  obtain ⟨z, m, ran, holds, tail, index, position⟩ := findBlock_spec rep opened
  have slot := rep.position
  rw [opened, Bool.toNat_false, Nat.add_zero, ← index] at slot
  obtain ⟨b, found, contents⟩ := holds.contents z.tail holds.tail_le holds.tail_lt
  obtain ⟨c, written, after⟩ := holds.write value opened slot tail contents
  refine ⟨z, m.setBlock (z.address z.tail) c, ?_, after, ?_, ?_⟩
  · rw [BlockList.push]
    simp only [ran, bind, Except.bind, block_ok found, written]
    rfl
  · change m.tailPosition = m.index + (q.values ++ [value]).length + q.closed.toNat
    rw [position, slot, opened, List.length_append]
    rfl
  · change z.tail = (m.tailPosition - 1) / 32
    rw [position, tail, Nat.add_sub_cancel]

theorem Holds.txClose {slot : Nat} (holds : Holds y q l) (opened : q.closed = false)
    (next : slot = l.index + q.values.length) (tail : y.tail = slot / 32)
    (contents : Contents y l.index q y.tail b) :
    Holds y { q with closed := true } (l.setBlock (y.address y.tail) b.txClose) := by
  have bits (j : Nat) : b.txClose.readySlots.getLsbD j = (decide (33 = j) || b.readySlots.getLsbD j) :=
    getLsbD_set (by decide)
  apply holds.change
  · constructor
    · exact contents.start
    · exact contents.next
    · intro j inside
      have other : ¬33 = j := by omega
      rw [bits, contents.ready j inside, decide_eq_false other, Bool.false_or]
    · rw [bits, contents.released]
      rfl
    · rw [bits, ← next, tail]
      simp
    · exact contents.observed
    · exact contents.values
  · intro n d other before
    refine { before with closed := ?_ }
    have away : ¬(l.index + q.values.length) / 32 = n := by omega
    rw [before.closed, opened, decide_eq_false away]
    rfl
  · change l.index + q.values.length + 1 ≤ _
    omega

theorem close_spec (rep : Represents y q l) (opened : q.closed = false) :
    ∃ z m, l.close = .ok m ∧ Represents z { q with closed := true } m := by
  obtain ⟨z, m, ran, holds, tail, index, position⟩ := findBlock_spec rep opened
  have slot := rep.position
  rw [opened, Bool.toNat_false, Nat.add_zero, ← index] at slot
  obtain ⟨b, found, contents⟩ := holds.contents z.tail holds.tail_le holds.tail_lt
  refine ⟨z, m.setBlock (z.address z.tail) b.txClose, ?_, holds.txClose opened slot tail contents, ?_, ?_⟩
  · rw [BlockList.close]
    simp only [ran, bind, Except.bind, block_ok found]
    rfl
  · change m.tailPosition = m.index + q.values.length + 1
    rw [position, slot]
  · change z.tail = (m.tailPosition - 1) / 32
    rw [position, tail, Nat.add_sub_cancel]

end Pushing

end Osaka.Sync.Mpsc
