import Osaka.Sync.Mpsc.Layout

set_option autoImplicit false

namespace Osaka.Sync.Mpsc

variable {T : Type} {y : Layout} {q : Fifo T} {l : BlockList T} {b : Block T} {a n : Nat}

theorem startIndex_eq (slot : Nat) : startIndex slot = 32 * (slot / 32) := Nat.mul_comm ..

theorem block_ok (found : l.blocks a = some b) : l.block a = .ok b := by
  rw [BlockList.block, found]

theorem setBlock_blocks (l : BlockList T) (a c : Nat) (b : Block T) :
    (l.setBlock a b).blocks c = if c = a then some b else l.blocks c :=
  Function.update_apply ..

section Linking

def Layout.grown (y : Layout) (a : Nat) : Layout :=
  { y with address := Function.update y.address y.last a, last := y.last + 1 }

theorem Layout.grown_address (y : Layout) (a n : Nat) :
    (y.grown a).address n = if n = y.last then a else y.address n :=
  Function.update_apply ..

theorem Holds.blank (holds : Holds y q l) (start : b.startIndex = 32 * y.last) (next : b.next = none)
    (ready : ∀ j, b.readySlots.getLsbD j = false) (values : ∀ j < 32, b.values j = none) (a : Nat) :
    Contents (y.grown a) l.index q y.last b := by
  have room := holds.room
  have tail := holds.tail_lt
  constructor
  · exact start
  · rw [next, if_neg (by simp [Layout.grown])]
  · intro j inside
    rw [ready, eq_comm, decide_eq_false_iff_not]
    omega
  · rw [ready, eq_comm, decide_eq_false_iff_not]
    exact Nat.not_lt.mpr tail.le
  · rw [ready]
    cases closed : q.closed with
    | false => rfl
    | true =>
      rw [closed, Bool.toNat_true] at room
      rw [Bool.true_and, eq_comm, decide_eq_false_iff_not]
      omega
  · intro before
    exact absurd before (Nat.not_lt.mpr tail.le)
  · intro j inside
    rw [values j inside]
    split
    next => rw [List.getElem?_eq_none (by omega)]
    next => rfl

theorem Holds.link (blank : Block T) (holds : Holds y q l) (used : a < l.allocated)
    (away : ∀ n, y.first ≤ n → n < y.last → y.address n ≠ a) (there : l.blocks a = some blank)
    (belongs : Contents (y.grown a) l.index q y.last blank)
    (found : l.blocks (y.address (y.last - 1)) = some b) (enough : y.last < y.first + l.allocated) :
    Holds (y.grown a) q (l.setBlock (y.address (y.last - 1)) { b with next := some a }) := by
  have first := holds.tail_le
  have tail := holds.tail_lt
  have address (n : Nat) (before : n < y.last) : (y.grown a).address n = y.address n := by
    rw [Layout.grown_address, if_neg before.ne]
  have new : (y.grown a).address y.last = a := by rw [Layout.grown_address, if_pos rfl]
  have last : (y.grown a).last = y.last + 1 := rfl
  refine { holds with
    head_lt := Nat.lt_succ_of_lt holds.head_lt
    tail_lt := Nat.lt_succ_of_lt tail
    apart := ?_
    used := ?_
    unused := ?_
    contents := ?_
    blockTail := holds.blockTail.trans (address y.tail tail).symm
    headAt := holds.headAt.trans (address y.head holds.head_lt).symm
    freeHead := holds.freeHead.trans (address y.first (holds.tail_le.trans_lt tail)).symm
    enough := enough }
  · intro m n from₁ within₁ from₂ within₂ same
    rw [last] at within₁ within₂
    by_cases m' : m = y.last
    · by_cases n' : n = y.last
      · rw [m', n']
      · rw [m', new, address n (by omega)] at same
        exact absurd same.symm (away n from₂ (by omega))
    · by_cases n' : n = y.last
      · rw [n', new, address m (by omega)] at same
        exact absurd same (away m from₁ (by omega))
      · rw [address m (by omega), address n (by omega)] at same
        exact holds.apart m n from₁ (by omega) from₂ (by omega) same
  · intro n from' within
    rw [last] at within
    by_cases n' : n = y.last
    · rw [n', new]
      exact used
    · rw [address n (by omega)]
      exact holds.used n from' (by omega)
  · intro c beyond
    have unlinked : c ≠ y.address (y.last - 1) := by
      have inside := holds.used (y.last - 1) (by omega) (by omega)
      change l.allocated ≤ c at beyond
      omega
    rw [setBlock_blocks, if_neg unlinked]
    exact holds.unused c beyond
  · intro n from' within
    rw [last] at within
    by_cases n' : n = y.last
    · subst n'
      have unlinked : a ≠ y.address (y.last - 1) := (away (y.last - 1) (by omega) (by omega)).symm
      rw [new, setBlock_blocks, if_neg unlinked]
      exact ⟨blank, there, belongs⟩
    · obtain ⟨c, found', contents⟩ := holds.contents n from' (by omega)
      rw [address n (by omega), setBlock_blocks]
      by_cases end' : n = y.last - 1
      · subst end'
        obtain rfl : b = c := by simpa [found] using found'
        rw [if_pos rfl]
        refine ⟨_, rfl, { contents with next := ?_ }⟩
        rw [last, if_pos (by omega), Nat.sub_add_cancel (by omega), new]
      · have other : y.address n ≠ y.address (y.last - 1) :=
          fun same => end' (holds.apart n (y.last - 1) from' (by omega) (by omega) (by omega) same)
        rw [if_neg other]
        refine ⟨c, found', { contents with next := ?_ }⟩
        rw [contents.next, if_pos (by omega), if_pos (by rw [last]; omega), address (n + 1) (by omega)]

theorem grow_holds (holds : Holds y q l) (found : l.blocks (y.address (y.last - 1)) = some b)
    (start : b.startIndex = 32 * (y.last - 1)) :
    Holds (y.grown l.allocated) q (l.grow (y.address (y.last - 1)) b).2 := by
  have first := holds.tail_le
  have tail := holds.tail_lt
  have fresh (n : Nat) (from' : y.first ≤ n) (within : n < y.last) : y.address n ≠ l.allocated :=
    (holds.used n from' within).ne
  let m : BlockList T := { l.setBlock l.allocated (.new (b.startIndex + BLOCK_CAP)) with allocated := l.allocated + 1 }
  have blocks (c : Nat) (other : c ≠ l.allocated) : m.blocks c = l.blocks c := by
    change (l.setBlock _ _).blocks c = _
    rw [setBlock_blocks, if_neg other]
  have more : Holds y q m := by
    refine { holds with
      used := fun n from' within => Nat.lt_succ_of_lt (holds.used n from' within)
      unused := ?_
      contents := ?_
      enough := holds.enough.trans (Nat.le_succ _) }
    · intro c beyond
      change l.allocated + 1 ≤ c at beyond
      rw [blocks c (by omega)]
      exact holds.unused c (by omega)
    · intro n from' within
      rw [blocks _ (fresh n from' within)]
      exact holds.contents n from' within
  have enough := holds.enough
  apply more.link (.new (b.startIndex + BLOCK_CAP)) (Nat.lt_succ_self _) fresh
  · change (l.setBlock _ _).blocks l.allocated = _
    rw [setBlock_blocks, if_pos rfl]
  · apply more.blank
    · change b.startIndex + 32 = _
      omega
    · rfl
    · simp [Block.new]
    · intro j _
      rfl
  · rw [blocks _ (fresh _ (by omega) (by omega))]
    exact found
  · change y.last < y.first + (l.allocated + 1)
    omega

end Linking

end Osaka.Sync.Mpsc
