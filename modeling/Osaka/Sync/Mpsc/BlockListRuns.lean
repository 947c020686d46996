import Osaka.Shared.Transitions
import Osaka.Sync.Mpsc.Receiving
import Osaka.Sync.Mpsc.Sending

set_option autoImplicit false

namespace Osaka.Sync.Mpsc

open Transitions

variable {T : Type} {y : Layout} {q : Fifo T} {l : BlockList T}

section TryPop

/-- What try_pop answers about a queue: it is never busy. -/
def Fifo.tryPop (q : Fifo T) : TryPopResult T :=
  match q.values with
  | value :: _ => .ok value
  | [] => if q.closed then .closed else .empty

theorem tryPop_spec (rep : Represents y q l) :
    ∃ z m, l.tryPop = .ok (q.tryPop, m) ∧ Represents z q.pop.2 m := by
  obtain ⟨z, m, ran, after, position⟩ := pop_spec rep
  refine ⟨z, m, ?_, after⟩
  rw [BlockList.tryPop]
  simp only [ran, bind, Except.bind]
  cases values : q.values with
  | cons value rest =>
    simp only [Fifo.pop, Fifo.tryPop, values]
    rfl
  | nil =>
    cases closed : q.closed with
    | true =>
      simp only [Fifo.pop, Fifo.tryPop, values, closed]
      rfl
    | false =>
      have same : q.pop.2 = q := by rw [Fifo.pop, values]
      have drained := after.position
      rw [same, values, closed, List.length_nil, Bool.toNat_false, Nat.add_zero, position] at drained
      simp only [Fifo.pop, Fifo.tryPop, values, closed, Bool.false_eq_true, if_false]
      rw [if_pos drained]
      rfl

end TryPop

section Accesses

theorem written_slot (rep : Represents y q l) (opened : q.closed = false) :
    ∃ address m b, { l with tailPosition := l.tailPosition + 1 }.findBlock l.tailPosition = .ok (address, m) ∧
      m.Linked address ∧ m.blocks address = some b ∧ b.startIndex = startIndex l.tailPosition := by
  obtain ⟨z, m, ran, holds, tail, _, _⟩ := findBlock_spec rep opened
  obtain ⟨b, found, contents⟩ := holds.contents z.tail holds.tail_le holds.tail_lt
  refine ⟨_, m, b, ran, holds.linked holds.tail_le holds.tail_lt, found, ?_⟩
  rw [contents.start, tail, startIndex_eq]

theorem read_slot {m k : BlockList T} (rep : Represents y q l)
    (advanced : l.tryAdvancingHead (l.allocated + 1) = .ok (true, m))
    (reclaimed : m.reclaimBlocks (m.allocated + 1) = .ok k) :
    k.Linked k.head ∧ ∃ b, k.blocks k.head = some b ∧ b.startIndex = startIndex k.index := by
  rcases tryAdvancingHead_spec rep with ⟨z, m', ran, rep', head, index, _⟩ | ⟨ran, _, _⟩
  · obtain rfl : m' = m := by simpa [ran] using advanced
    have enough := rep'.holds.enough
    have within := rep'.holds.head_lt
    obtain ⟨w, k', ran', holds, head', _, index', _⟩ := reclaimBlocks_spec (m'.allocated + 1) rep'.holds (by omega)
    obtain rfl : k' = k := by simpa [ran'] using reclaimed
    obtain ⟨b, found, contents⟩ := holds.contents w.head holds.head_le holds.head_lt
    rw [holds.headAt]
    refine ⟨holds.linked holds.head_le holds.head_lt, b, found, ?_⟩
    rw [contents.start, head', head, index', index, startIndex_eq]
  · simp [ran] at advanced

end Accesses

section Runs

structure Traffic (T : Type) where
  list : BlockList T
  pushed : List T
  popped : List T
  closed : Bool

inductive ListAction (T : Type) where
  | push (value : T)
  | close
  | pop
  | tryPop

-- Close comes once, and last.
def Traffic.step (t : Traffic T) : ListAction T → Outcome (Traffic T) Fault
  | .push value =>
    if t.closed then .disabled
    else .attempt (t.list.push value) fun l => .next { t with list := l, pushed := t.pushed ++ [value] }
  | .close =>
    if t.closed then .disabled
    else .attempt t.list.close fun l => .next { t with list := l, closed := true }
  | .pop => .attempt t.list.pop fun
    | (some (.value value), l) => .next { t with list := l, popped := t.popped ++ [value] }
    | (_, l) => .next { t with list := l }
  | .tryPop => .attempt t.list.tryPop fun
    | (.ok value, l) => .next { t with list := l, popped := t.popped ++ [value] }
    | (_, l) => .next { t with list := l }

def traffic (T : Type) : System (Traffic T) (ListAction T) Fault where
  initial t := t = ⟨.channel, [], [], false⟩
  within _ := True
  step t a := t.step a

instance : DecidablePred (traffic T).within := fun _ => inferInstanceAs (Decidable True)

/-- The list holds what has been pushed, and not been popped. -/
def Traffic.Carries (t : Traffic T) (y : Layout) (q : Fifo T) : Prop :=
  Represents y q t.list ∧ t.pushed = t.popped ++ q.values ∧ t.closed = q.closed

theorem step_carries {t : Traffic T} (carries : t.Carries y q) (a : ListAction T) :
    (t.step a).Kept fun u => ∃ z r, u.Carries z r := by
  obtain ⟨rep, pushed, closed⟩ := carries
  cases a with
  | push value =>
    simp only [Traffic.step]
    split
    next => trivial
    next opened =>
      obtain ⟨z, m, ran, after⟩ := push_spec rep (by simpa [closed] using opened) value
      rw [ran]
      exact ⟨z, _, after, by rw [pushed, List.append_assoc], closed⟩
  | close =>
    simp only [Traffic.step]
    split
    next => trivial
    next opened =>
      obtain ⟨z, m, ran, after⟩ := close_spec rep (by simpa [closed] using opened)
      rw [ran]
      exact ⟨z, _, after, pushed, rfl⟩
  | pop =>
    obtain ⟨z, m, ran, after, _⟩ := pop_spec rep
    rw [Traffic.step, ran]
    cases values : q.values with
    | nil =>
      simp only [Fifo.pop, values] at after ⊢
      have carries : Traffic.Carries { t with list := m } z q := ⟨after, pushed, closed⟩
      cases q.closed <;> exact ⟨z, q, carries⟩
    | cons value rest =>
      simp only [Fifo.pop, values] at after ⊢
      exact ⟨z, _, after, by rw [pushed, values]; simp, closed⟩
  | tryPop =>
    obtain ⟨z, m, ran, after⟩ := tryPop_spec rep
    rw [Traffic.step, ran]
    cases values : q.values with
    | nil =>
      simp only [Fifo.pop, Fifo.tryPop, values] at after ⊢
      have carries : Traffic.Carries { t with list := m } z q := ⟨after, pushed, closed⟩
      cases q.closed <;> exact ⟨z, q, carries⟩
    | cons value rest =>
      simp only [Fifo.pop, Fifo.tryPop, values] at after ⊢
      exact ⟨z, _, after, by rw [pushed, values]; simp, closed⟩

theorem channel_carries : Traffic.Carries (⟨.channel, [], [], false⟩ : Traffic T) ⟨fun n => n, 0, 1, 0, (0 - 1) / 32⟩
    ⟨[], false⟩ :=
  ⟨channel_represents, rfl, rfl⟩

theorem reachable_carries {t : Traffic T} (reached : (traffic T).Reachable t) : ∃ y q, t.Carries y q := by
  apply System.Reachable.invariant _ _ reached
  · rintro _ rfl
    exact ⟨_, _, channel_carries⟩
  · rintro t a ⟨y, q, carries⟩ _
    exact step_carries carries a

/-- First in, first out: the list of blocks is a queue, and no access to it goes astray. -/
theorem list_fifo {t : Traffic T} (reached : (traffic T).Reachable t) :
    ∃ rest, t.pushed = t.popped ++ rest ∧
      (∃ l, t.list.pop = .ok (match rest with
        | value :: _ => some (.value value)
        | [] => if t.closed then some .closed else none, l)) ∧
      (∃ l, t.list.tryPop = .ok (match rest with
        | value :: _ => .ok value
        | [] => if t.closed then .closed else .empty, l)) ∧
      -- no freed block is touched, and no slot without a value, or with one already
      (∀ a fault, t.step a ≠ .failed fault) ∧
      -- a slot is written in a linked block that is for its index
      (t.closed = false → ∃ address l b,
        { t.list with tailPosition := t.list.tailPosition + 1 }.findBlock t.list.tailPosition = .ok (address, l) ∧
        l.Linked address ∧ l.blocks address = some b ∧ b.startIndex = startIndex t.list.tailPosition) ∧
      -- and so is one read
      (∀ m l, t.list.tryAdvancingHead (t.list.allocated + 1) = .ok (true, m) →
        m.reclaimBlocks (m.allocated + 1) = .ok l →
        l.Linked l.head ∧ ∃ b, l.blocks l.head = some b ∧ b.startIndex = startIndex l.index) := by
  obtain ⟨y, q, carries⟩ := reachable_carries reached
  obtain ⟨rep, pushed, closed⟩ := carries
  obtain ⟨z, l, popped, _, _⟩ := pop_spec rep
  obtain ⟨w, m, tried, _⟩ := tryPop_spec rep
  refine ⟨q.values, pushed, ⟨l, ?_⟩, ⟨m, ?_⟩, ?_, ?_, fun m l => read_slot rep⟩
  · rw [popped, Fifo.pop, closed]
    cases q.values <;> rfl
  · rw [tried, Fifo.tryPop, closed]
  · exact fun a => (step_carries ⟨rep, pushed, closed⟩ a).sound
  · intro opened
    exact written_slot rep (by rw [← closed, opened])

/-- More than a block is pushed, and read, so that the first block goes round. -/
def exampleTraffic : List (ListAction Nat) :=
  List.replicate 34 (.push 7) ++ List.replicate 34 .pop ++ [.close]

theorem exampleTraffic_moves :
    ((traffic Nat).run ⟨.channel, [], [], false⟩ exampleTraffic).map
      (fun t => (t.pushed.length, t.popped.length, t.closed)) = some (34, 34, true) := by
  decide +kernel

theorem list_fifo_run : ∃ t : Traffic Nat, t.popped = t.pushed ∧ ∃ l, t.list.pop = .ok (some .closed, l) := by
  obtain ⟨t, ran, counts⟩ := Option.map_eq_some_iff.mp exampleTraffic_moves
  have reached := System.reachable_run _ (.initial rfl) ran
  simp only [Prod.mk.injEq] at counts
  obtain ⟨pushed, popped, closed⟩ := counts
  obtain ⟨rest, split, ⟨l, next⟩, _⟩ := list_fifo reached
  have none : rest = [] := by
    have lengths := congrArg List.length split
    rw [List.length_append] at lengths
    exact List.length_eq_zero_iff.mp (by omega)
  subst none
  rw [closed] at next
  exact ⟨t, by rw [split, List.append_nil], l, next⟩

end Runs

end Osaka.Sync.Mpsc
