import Osaka.Sync.Mpsc.Growth

set_option autoImplicit false

namespace Osaka.Sync.Mpsc

variable {T : Type} {y : Layout} {q : Fifo T} {l : BlockList T} {b : Block T} {a n : Nat}

section Advancing

theorem Holds.advance (holds : Holds y q l) (more : y.head + 1 < y.last) (done : l.index = 32 * y.head + 32) :
    Holds { y with head := y.head + 1 } q { l with head := y.address (y.head + 1) } := by
  have near := holds.near
  refine { holds with
    head_le := holds.head_le.trans (Nat.le_succ _)
    head_lt := more
    contents := ?_
    headAt := rfl
    near := ?_ }
  · intro n from' within
    obtain ⟨b, found, contents⟩ := holds.contents n from' within
    exact ⟨b, found, { contents with }⟩
  · change 32 * (y.head + 1) ≤ l.index ∧ l.index ≤ 32 * (y.head + 1) + 32
    omega

/-- Either the head reaches the block of the index, or there is none yet, and then nothing is buffered. -/
theorem tryAdvancingHead_spec (rep : Represents y q l) :
    (∃ z m, l.tryAdvancingHead (l.allocated + 1) = .ok (true, m) ∧ Represents z q m ∧ z.head = l.index / 32 ∧
      m.index = l.index ∧ m.tailPosition = l.tailPosition) ∨
    l.tryAdvancingHead (l.allocated + 1) = .ok (false, l) ∧ q.values = [] ∧ q.closed = false := by
  obtain ⟨holds, position, tail⟩ := rep
  have near := holds.near
  have used := holds.used y.head holds.head_le holds.head_lt
  obtain ⟨b, found, contents⟩ := holds.contents y.head holds.head_le holds.head_lt
  rw [← holds.headAt] at found
  obtain ⟨fuel, more⟩ : ∃ fuel, l.allocated + 1 = fuel + 2 := ⟨l.allocated - 1, by omega⟩
  rw [more, BlockList.tryAdvancingHead]
  simp only [block_ok found, bind, Except.bind, startIndex_eq, Block.isAtIndex, contents.start]
  by_cases inside : l.index < 32 * y.head + 32
  · have block : y.head = l.index / 32 := by omega
    rw [if_pos (by rw [block]; exact beq_self_eq_true _)]
    exact .inl ⟨y, l, rfl, ⟨holds, position, tail⟩, block, rfl, rfl⟩
  · have done : l.index = 32 * y.head + 32 := by omega
    have block : l.index / 32 = y.head + 1 := by omega
    rw [if_neg (by rw [block, beq_iff_eq]; omega), contents.next]
    by_cases further : y.head + 1 < y.last
    · left
      have advanced := holds.advance further done
      obtain ⟨c, found', contents'⟩ :=
        holds.contents (y.head + 1) (holds.head_le.trans (Nat.le_succ _)) further
      refine ⟨_, _, ?_, ⟨advanced, position, tail⟩, block.symm, rfl, rfl⟩
      have found'' : ({ l with head := y.address (y.head + 1) } : BlockList T).blocks (y.address (y.head + 1)) = some c :=
        found'
      rw [if_pos further]
      simp only [BlockList.tryAdvancingHead, block_ok found'', bind, Except.bind, startIndex_eq, Block.isAtIndex,
        contents'.start]
      rw [if_pos (by rw [block]; exact beq_self_eq_true _)]
      rfl
    · right
      have last := holds.tail_lt
      have head := holds.head_lt
      have room := holds.room
      have empty : q.values.length = 0 ∧ q.closed.toNat = 0 := by omega
      rw [if_neg further]
      refine ⟨rfl, List.length_eq_zero_iff.mp empty.1, ?_⟩
      cases closed : q.closed with
      | false => rfl
      | true => simp [closed] at empty

end Advancing

section Reclaiming

theorem Holds.away {content : Option (Block T)} (holds : Holds y q l) (used : a < l.allocated)
    (away : ∀ n, y.first ≤ n → n < y.last → y.address n ≠ a) :
    Holds y q { l with blocks := Function.update l.blocks a content } := by
  refine { holds with unused := ?_, contents := ?_ }
  · intro c beyond
    change l.allocated ≤ c at beyond
    exact (Function.update_of_ne (by omega) _ _).trans (holds.unused c beyond)
  · intro n from' within
    obtain ⟨b, found, contents⟩ := holds.contents n from' within
    exact ⟨b, (Function.update_of_ne (away n from' within) _ _).trans found, contents⟩

structure Still (l m : BlockList T) : Prop where
  index : m.index = l.index
  tailPosition : m.tailPosition = l.tailPosition
  allocated : m.allocated = l.allocated

theorem relink_on {c d : Block T} {e k : Nat} (hops : Nat) (there : l.blocks a = some c)
    (found : l.blocks e = some d) (next : d.next = some k) :
    l.relink a (hops + 1) e = (l.setBlock a { c with startIndex := d.startIndex + BLOCK_CAP }).relink a hops k := by
  rw [BlockList.relink, BlockList.tryPush]
  simp only [block_ok found, block_ok there, bind, Except.bind, next]
  rfl

theorem relink_end {c d : Block T} {e : Nat} (hops : Nat) (there : l.blocks a = some c)
    (found : l.blocks e = some d) (next : d.next = none) :
    l.relink a (hops + 1) e = .ok (true,
      (l.setBlock a { c with startIndex := d.startIndex + BLOCK_CAP }).setBlock e { d with next := some a }) := by
  rw [BlockList.relink, BlockList.tryPush]
  simp only [block_ok found, block_ok there, bind, Except.bind, next]
  rfl

theorem relink_spec {c : Block T} (hops : Nat) (holds : Holds y q l) (used : a < l.allocated)
    (away : ∀ n, y.first ≤ n → n < y.last → y.address n ≠ a) (enough : y.last < y.first + l.allocated)
    (there : l.blocks a = some c) (next : c.next = none) (ready : ∀ j, c.readySlots.getLsbD j = false)
    (values : ∀ j < 32, c.values j = none) (from' : y.first ≤ n) (within : n < y.last) :
    (∃ m, l.relink a hops (y.address n) = .ok (true, m) ∧ Holds (y.grown a) q m ∧ Still l m) ∨
    ∃ m, l.relink a hops (y.address n) = .ok (false, m) ∧ Holds y q m ∧ Still l m := by
  induction hops generalizing l c n with
  | zero => exact .inr ⟨l, rfl, holds, rfl, rfl, rfl⟩
  | succ hops ih =>
    obtain ⟨d, found, contents⟩ := holds.contents n from' within
    let c' : Block T := { c with startIndex := d.startIndex + BLOCK_CAP }
    have moved : Holds y q (l.setBlock a c') := holds.away used away
    have there' : (l.setBlock a c').blocks a = some c' := by rw [setBlock_blocks, if_pos rfl]
    have found' : (l.setBlock a c').blocks (y.address n) = some d := by
      rw [setBlock_blocks, if_neg (away n from' within)]
      exact found
    by_cases more : n + 1 < y.last
    · rw [relink_on hops there found (contents.next.trans (if_pos more))]
      have rest := ih (c := c') moved used enough there' next ready values (Nat.le_succ_of_le from') more
      obtain ⟨m, ran, after, still⟩ | ⟨m, ran, after, still⟩ := rest
      · exact .inl ⟨m, ran, after, still.index, still.tailPosition, still.allocated⟩
      · exact .inr ⟨m, ran, after, still.index, still.tailPosition, still.allocated⟩
    · have last : n = y.last - 1 := by omega
      left
      rw [relink_end hops there found (contents.next.trans (if_neg more))]
      refine ⟨_, rfl, ?_, rfl, rfl, rfl⟩
      have start : c'.startIndex = 32 * y.last := by
        change d.startIndex + 32 = _
        rw [contents.start]
        omega
      rw [last] at found' ⊢
      exact moved.link _ used away there' (moved.blank start next ready values a) found' enough

theorem Holds.leave (holds : Holds y q l) (before : y.first < y.head) (behind : y.first < y.tail) :
    Holds { y with first := y.first + 1 } q { l with freeHead := y.address (y.first + 1) } := by
  have enough := holds.enough
  refine { holds with
    head_le := before
    tail_le := behind
    apart := fun m n from₁ within₁ from₂ within₂ =>
      holds.apart m n (Nat.le_of_succ_le from₁) within₁ (Nat.le_of_succ_le from₂) within₂
    used := fun n from' within => holds.used n (Nat.le_of_succ_le from') within
    contents := ?_
    freeHead := rfl
    enough := ?_ }
  · intro n from' within
    obtain ⟨b, found, contents⟩ := holds.contents n (Nat.le_of_succ_le from') within
    exact ⟨b, found, { contents with }⟩
  · change y.last ≤ y.first + 1 + l.allocated
    omega

theorem reclaimBlock_spec (holds : Holds y q l) (before : y.first < y.head) (behind : y.first < y.tail)
    (passed : 32 * (y.first + 1) + 1 ≤ l.index) :
    ∃ z m, { l with freeHead := y.address (y.first + 1) }.reclaimBlock (y.address y.first) = .ok m ∧ Holds z q m ∧
      z.first = y.first + 1 ∧ z.head = y.head ∧ z.tail = y.tail ∧ Still l m := by
  obtain ⟨b, found, contents⟩ := holds.contents y.first (le_refl _) (before.trans holds.head_lt)
  have first := before.trans holds.head_lt
  have enough := holds.enough
  have used := holds.used y.first (le_refl _) first
  have leave := holds.leave before behind
  let l' : BlockList T := { l with freeHead := y.address (y.first + 1) }
  have away (n : Nat) (from' : y.first + 1 ≤ n) (within : n < y.last) : y.address n ≠ y.address y.first := by
    intro same
    have equal := holds.apart n y.first (by omega) within (le_refl _) first same
    omega
  have reset : Holds { y with first := y.first + 1 } q (l'.setBlock (y.address y.first) b.reclaim) :=
    leave.away used away
  have there : (l'.setBlock (y.address y.first) b.reclaim).blocks (y.address y.first) = some b.reclaim := by
    rw [setBlock_blocks, if_pos rfl]
  have empty : ∀ j < 32, b.reclaim.values j = none := by
    intro j inside
    change b.values j = none
    rw [contents.values j inside, if_neg (by omega)]
  have ready : ∀ j, b.reclaim.readySlots.getLsbD j = false := by
    intro j
    change (0 : BitVec 64).getLsbD j = false
    simp
  have found' : l'.blocks (y.address y.first) = some b := found
  have relinked := relink_spec 3 reset used away (by change y.last < y.first + 1 + l.allocated; omega) there rfl
    ready empty behind holds.tail_lt
  change ∃ z m, l'.reclaimBlock (y.address y.first) = _ ∧ _
  have tail : l'.blockTail = y.address y.tail := holds.blockTail
  rw [BlockList.reclaimBlock, block_ok found', tail]
  obtain ⟨m, ran, after, still⟩ | ⟨m, ran, after, still⟩ := relinked
  · refine ⟨_, m, ?_, after, rfl, rfl, rfl, still.index, still.tailPosition, still.allocated⟩
    change (l'.setBlock (y.address y.first) b.reclaim).relink (y.address y.first) 3 (y.address y.tail) >>= _ = _
    rw [ran]
    rfl
  · refine ⟨_, { m with blocks := Function.update m.blocks (y.address y.first) none }, ?_,
      after.away (by rw [still.allocated]; exact used) away, rfl, rfl, rfl,
      still.index, still.tailPosition, still.allocated⟩
    change (l'.setBlock (y.address y.first) b.reclaim).relink (y.address y.first) 3 (y.address y.tail) >>= _ = _
    rw [ran]
    rfl

/-- What has been read is reclaimed as far as the senders have left it. -/
theorem reclaimBlocks_spec (fuel : Nat) (holds : Holds y q l) (enough : y.head - y.first < fuel) :
    ∃ z m, l.reclaimBlocks fuel = .ok m ∧ Holds z q m ∧ z.head = y.head ∧ z.tail = y.tail ∧
      m.index = l.index ∧ m.tailPosition = l.tailPosition := by
  induction fuel generalizing y l with
  | zero => omega
  | succ fuel ih =>
    have first := holds.head_le.trans_lt holds.head_lt
    obtain ⟨b, found, contents⟩ := holds.contents y.first (le_refl _) first
    rw [← holds.freeHead] at found
    rw [BlockList.reclaimBlocks]
    by_cases arrived : l.freeHead = l.head
    · rw [if_pos arrived]
      exact ⟨y, l, rfl, holds, rfl, rfl, rfl, rfl⟩
    · have before : y.first < y.head := by
        rcases holds.head_le.lt_or_eq with less | same
        · exact less
        · rw [holds.freeHead, holds.headAt, same] at arrived
          exact absurd rfl arrived
      rw [if_neg arrived]
      simp only [block_ok found, bind, Except.bind]
      by_cases behind : y.first < y.tail
      · have observed : b.observed = some (32 * (y.first + 1) + 1) := by
          have released : ¬0 = RELEASED &&& b.readySlots := by
            rw [released_iff, contents.released, decide_eq_true behind]
            decide
          rw [Block.observed, if_neg released, contents.observed behind]
        simp only [observed]
        by_cases passed : 32 * (y.first + 1) + 1 > l.index
        · rw [if_pos passed]
          exact ⟨y, l, rfl, holds, rfl, rfl, rfl, rfl⟩
        · obtain ⟨z, m, ran, after, firstz, headz, tailz, still⟩ :=
            reclaimBlock_spec holds before behind (by omega)
          obtain ⟨z', m', ran', after', head', tail', index', position'⟩ := ih after (by omega)
          rw [if_neg passed, contents.next, if_pos (by have := holds.head_lt; omega)]
          refine ⟨z', m', ?_, after', head'.trans headz, tail'.trans tailz, index'.trans still.index,
            position'.trans still.tailPosition⟩
          rw [← holds.freeHead] at ran
          simp only [ran]
          exact ran'
      · have observed : b.observed = none := by
          have released : 0 = RELEASED &&& b.readySlots := by
            rw [released_iff, contents.released, decide_eq_false behind]
          rw [Block.observed, if_pos released]
        simp only [observed]
        exact ⟨y, l, rfl, holds, rfl, rfl, rfl, rfl⟩

end Reclaiming

section Popping

def Fifo.pop (q : Fifo T) : Option (Read T) × Fifo T :=
  match q.values with
  | value :: rest => (some (.value value), { q with values := rest })
  | [] => (if q.closed then some .closed else none, q)

theorem Holds.read (holds : Holds y q l) (head : y.head = l.index / 32)
    (contents : Contents y l.index q y.head b) :
    (∃ value rest c, q.values = value :: rest ∧ b.read l.index = .ok (some (.value value), c) ∧
      Holds y { q with values := rest } { l.setBlock (y.address y.head) c with index := l.index + 1 }) ∨
    q.values = [] ∧ b.read l.index = .ok (if q.closed then some .closed else none, b) := by
  have near := holds.near
  have room := holds.room
  have inside : l.index % 32 < 32 := Nat.mod_lt _ (by decide)
  have slot : 32 * y.head + l.index % 32 = l.index := by omega
  have ready : isReady b.readySlots (offset l.index) = decide (0 < q.values.length) := by
    change isReady b.readySlots (l.index % 32) = _
    rw [isReady_eq (by omega), contents.ready _ inside, slot, decide_eq_decide]
    omega
  have stored : b.values (offset l.index) = q.values[0]? := by
    change b.values (l.index % 32) = _
    rw [contents.values _ inside, slot, if_pos (le_refl _), Nat.sub_self]
  cases values : q.values with
  | nil =>
    right
    rw [values] at ready
    have closed : isTxClosed b.readySlots = q.closed := by
      rw [isTxClosed_eq, contents.closed, values]
      simp [head]
    rw [Block.read, ready, closed]
    refine ⟨rfl, ?_⟩
    cases q.closed <;> rfl
  | cons value rest =>
    left
    rw [values] at ready stored
    have sum : l.index + 1 + rest.length = l.index + (value :: rest).length := by simp; omega
    have shift (k : Nat) (behind : l.index + 1 ≤ k) : rest[k - (l.index + 1)]? = (value :: rest)[k - l.index]? := by
      rw [show k - l.index = k - (l.index + 1) + 1 by omega, List.getElem?_cons_succ]
    have used := holds.used y.head holds.head_le holds.head_lt
    rw [values] at room
    refine ⟨value, rest, _, rfl, by rw [Block.read, ready, stored]; rfl, { holds with
      unused := ?_
      contents := ?_
      near := ?_
      room := ?_ }⟩
    · intro a beyond
      change l.allocated ≤ a at beyond
      exact (Function.update_of_ne (by omega) _ _).trans (holds.unused a beyond)
    · intro n from' within
      change ∃ d, (l.setBlock _ _).blocks (y.address n) = some d ∧ Contents y (l.index + 1) _ n d
      rw [setBlock_blocks]
      by_cases same : n = y.head
      · rw [if_pos (by rw [same])]
        subst same
        refine ⟨_, rfl, { contents with ready := ?_, closed := ?_, values := ?_ }⟩
        · rw [sum, ← values]
          exact contents.ready
        · rw [sum, ← values]
          exact contents.closed
        · intro j _
          change Function.update b.values (l.index % 32) none j = _
          rw [Function.update_apply, contents.values j (by assumption), values]
          by_cases here : j = l.index % 32
          · rw [if_pos here, if_neg (by omega)]
          · rw [if_neg here]
            by_cases behind : l.index + 1 ≤ 32 * y.head + j
            · rw [if_pos behind, if_pos (by omega), shift _ behind]
            · rw [if_neg behind, if_neg (by omega)]
      · have other : y.address n ≠ y.address y.head :=
          fun alike => same (holds.apart n y.head from' within holds.head_le holds.head_lt alike)
        obtain ⟨d, found, before⟩ := holds.contents n from' within
        rw [if_neg other]
        refine ⟨d, found, { before with ready := ?_, closed := ?_, values := ?_ }⟩
        · rw [sum, ← values]
          exact before.ready
        · rw [sum, ← values]
          exact before.closed
        · intro j inside'
          rw [before.values j inside', values]
          by_cases behind : l.index + 1 ≤ 32 * n + j
          · rw [if_pos behind, if_pos (by omega), shift _ behind]
          · rw [if_neg behind, if_neg (by omega)]
    · change 32 * y.head ≤ l.index + 1 ∧ l.index + 1 ≤ 32 * y.head + 32
      omega
    · change l.index + 1 + rest.length + q.closed.toNat ≤ _
      rw [sum]
      exact room

theorem pop_spec (rep : Represents y q l) : ∃ z m, l.pop = .ok (q.pop.1, m) ∧ Represents z q.pop.2 m ∧
    m.tailPosition = l.tailPosition := by
  rcases tryAdvancingHead_spec rep with ⟨z, m, ran, rep', head, index, position⟩ | ⟨ran, empty, opened⟩
  · have holds := rep'.holds
    obtain ⟨w, k, reclaimed, holds', head', tail', index', position'⟩ := reclaimBlocks_spec (m.allocated + 1) holds
      (by have := holds.enough; have := holds.head_lt; omega)
    obtain ⟨b, found, contents⟩ := holds'.contents w.head holds'.head_le holds'.head_lt
    rw [← holds'.headAt] at found
    have rest : k.tailPosition = k.index + q.values.length + q.closed.toNat ∧ w.tail = (k.tailPosition - 1) / 32 := by
      rw [position', index', tail']
      exact ⟨rep'.position, rep'.tail⟩
    rw [BlockList.pop]
    simp only [ran, reclaimed, bind, Except.bind, block_ok found, Bool.true_eq_false, if_false]
    have here : w.head = k.index / 32 := by rw [head', head, index', index]
    rcases holds'.read here contents with ⟨value, rest', c, values, read, after⟩ | ⟨values, read⟩
    · rw [read, Fifo.pop, values, holds'.headAt]
      refine ⟨w, _, rfl, ⟨after, ?_, rest.2⟩, position'.trans position⟩
      change k.tailPosition = k.index + 1 + rest'.length + q.closed.toNat
      rw [rest.1, values, List.length_cons]
      omega
    · have same : k.setBlock k.head b = k := by
        rw [BlockList.setBlock, ← found, Function.update_eq_self]
      rw [read, Fifo.pop, values]
      refine ⟨w, k, ?_, ⟨holds', rest.1, rest.2⟩, position'.trans position⟩
      simp only [same]
      cases q.closed <;> rfl
  · refine ⟨y, l, ?_, ?_, rfl⟩
    · rw [BlockList.pop]
      simp only [ran, bind, Except.bind, if_true, Fifo.pop, empty, opened]
      rfl
    · rw [Fifo.pop, empty]
      exact rep

end Popping

end Osaka.Sync.Mpsc
