import Osaka.Shared.DoublyLinked
import Osaka.Shared.Traces

set_option autoImplicit false

namespace Osaka

open DoublyLinked

structure LinkedList (T : Type) where
  head : Option T
  tail : Option T

namespace LinkedList

variable {T : Type}

inductive Fault where
  -- `push_front`: the node is the first one already
  | headPushed
  -- `is_empty`: there is a last node and no first one
  | tailWithoutHead
  -- `remove`: a neighbour does not point back
  | prevAstray
  | nextAstray
  deriving DecidableEq

section Source

variable [DecidableEq T]

def new : LinkedList T := ⟨none, none⟩

def pushFront (self : LinkedList T) (heap : Heap T) (ptr : T) : Except Fault (LinkedList T × Heap T) :=
  if self.head = some ptr then
    .error .headPushed
  else
    let heap := setNext heap ptr self.head
    let heap := setPrev heap ptr none
    let heap := match self.head with
      | some head => setPrev heap head (some ptr)
      | none => heap
    .ok (⟨some ptr, if self.tail.isNone then some ptr else self.tail⟩, heap)

def popBack (self : LinkedList T) (heap : Heap T) : Option T × LinkedList T × Heap T :=
  match self.tail with
  | none => (none, self, heap)
  | some last =>
    let tail := (heap last).prev
    let (head, heap) := match (heap last).prev with
      | some prev => (self.head, setNext heap prev none)
      | none => (none, heap)
    let heap := setPrev heap last none
    let heap := setNext heap last none
    (some last, ⟨head, tail⟩, heap)

def isEmpty (self : LinkedList T) : Except Fault Bool :=
  if self.head.isSome then .ok false
  else if self.tail.isNone then .ok true
  else .error .tailWithoutHead

/-- The first half of `remove`, by the node before. `none` where it returns `None`. -/
def unlinkPrev (self : LinkedList T) (heap : Heap T) (node : T) : Except Fault (Option (LinkedList T × Heap T)) :=
  match (heap node).prev with
  | some prev =>
    if (heap prev).next ≠ some node then .error .prevAstray
    else .ok (some (self, setNext heap prev (heap node).next))
  | none =>
    if self.head ≠ some node then .ok none
    else .ok (some ({ self with head := (heap node).next }, heap))

/-- The second half, by the node after. Where it returns `None`, the first half is not undone. -/
def unlinkNext (self : LinkedList T) (heap : Heap T) (node : T) : Except Fault (Bool × LinkedList T × Heap T) :=
  match (heap node).next with
  | some next =>
    if (heap next).prev ≠ some node then .error .nextAstray
    else .ok (true, self, setPrev heap next (heap node).prev)
  | none =>
    if self.tail ≠ some node then .ok (false, self, heap)
    else .ok (true, { self with tail := (heap node).prev }, heap)

def remove (self : LinkedList T) (heap : Heap T) (node : T) : Except Fault (Option T × LinkedList T × Heap T) := do
  match ← unlinkPrev self heap node with
  | none => return (none, self, heap)
  | some (self, heap) =>
    let (last, self, heap) ← unlinkNext self heap node
    if last then
      let heap := setNext heap node none
      let heap := setPrev heap node none
      return (some node, self, heap)
    else
      return (none, self, heap)

def last (self : LinkedList T) : Option T := self.tail

end Source

structure Represents (list : LinkedList T) (heap : Heap T) (nodes : List T) : Prop where
  nodup : nodes.Nodup
  head : list.head = nodes.head?
  tail : list.tail = nodes.getLast?
  linked : Linked heap none nodes none

def Frames (heap changed : Heap T) (nodes : List T) : Prop :=
  ∀ node, node ∉ nodes → changed node = heap node

variable {list : LinkedList T} {heap changed : Heap T} {front back nodes : List T} {node : T}

theorem new_represents : Represents (new : LinkedList T) heap [] := ⟨List.nodup_nil, rfl, rfl, trivial⟩

theorem Represents.isEmpty (represents : Represents list heap nodes) : list.isEmpty = .ok nodes.isEmpty := by
  unfold LinkedList.isEmpty
  rw [represents.head, represents.tail]
  cases nodes <;> rfl

theorem Represents.last (represents : Represents list heap nodes) : list.last = nodes.getLast? := represents.tail

theorem Represents.congr (represents : Represents list heap nodes) (same : ∀ node ∈ nodes, changed node = heap node) :
    Represents list changed nodes :=
  ⟨represents.nodup, represents.head, represents.tail, represents.linked.congr same⟩

section Operations

variable [DecidableEq T]

theorem Represents.pushFront (represents : Represents list heap nodes) (fresh : node ∉ nodes) :
    ∃ list' heap', list.pushFront heap node = .ok (list', heap') ∧ Represents list' heap' (node :: nodes) ∧
      Frames heap heap' (node :: nodes) := by
  obtain ⟨nodup, head, tail, linked⟩ := represents
  have apart : list.head ≠ some node := by
    rw [head]
    exact head_ne fresh
  have pushed : list.pushFront heap node = .ok (⟨some node, if list.tail.isNone then some node else list.tail⟩,
      setPrevOf (setPrev (setNext heap node list.head) node none) list.head (some node)) := by
    unfold LinkedList.pushFront
    rw [if_neg apart]
    rfl
  refine ⟨_, _, pushed, ⟨?_, rfl, ?_, ?_, ?_⟩, ?_⟩
  · exact List.nodup_cons.mpr ⟨fresh, nodup⟩
  · rw [tail, List.getLast?_cons]
    cases nodes.getLast? <;> rfl
  · rw [setPrevOf_of_ne apart, setPrev_self, setNext_self, head]
    cases nodes <;> rfl
  · rw [head]
    exact ((linked.setNext_outside fresh).setPrev_outside fresh).setPrevOf_first nodup
  · intro other member
    have outside : list.head ≠ some other := by
      rw [head]
      exact head_ne (List.not_mem_of_not_mem_cons member)
    rw [setPrevOf_of_ne outside, setPrev_of_ne (List.ne_of_not_mem_cons member),
      setNext_of_ne (List.ne_of_not_mem_cons member)]

omit [DecidableEq T] in
/-- What is before a node in the list and what is after it are linked to each other instead. -/
theorem Represents.split (represents : Represents list heap (front ++ node :: back)) :
    (front ++ back).Nodup ∧ node ∉ front ++ back ∧ heap node = ⟨front.getLast?, back.head?⟩ ∧
      Linked heap none front (some node) ∧ Linked heap (some node) back none := by
  obtain ⟨nodup, head, tail, linked⟩ := represents
  obtain ⟨outside, nodup⟩ := List.nodup_cons.mp (List.perm_middle.nodup_iff.mp nodup)
  obtain ⟨before, here, after⟩ := linked_append.mp linked
  exact ⟨nodup, outside, by simpa using here, before, after⟩

theorem Represents.unlinkPrev (represents : Represents list heap (front ++ node :: back)) :
    list.unlinkPrev heap node = .ok (some (⟨(front ++ back).head?, list.tail⟩, setNextOf heap front.getLast? back.head?)) := by
  obtain ⟨nodup, outside, here, before, after⟩ := represents.split
  unfold LinkedList.unlinkPrev
  rcases List.eq_nil_or_concat front with rfl | ⟨earlier, prev, rfl⟩
  · rw [here]
    have first : list.head = some node := represents.head
    simp [first, setNextOf]
  · rw [List.concat_eq_append] at *
    obtain ⟨-, points, -⟩ := linked_append.mp before
    have next : (heap prev).next = some node := by rw [points]; rfl
    have head : list.head = (earlier ++ [prev] ++ back).head? := by
      rw [represents.head]
      cases earlier <;> rfl
    simp only [here, List.getLast?_concat, next, ne_eq, not_true_eq_false, if_false, ← head]
    rfl

theorem unlinkNext_linked (list : LinkedList T) (here : changed node = ⟨front.getLast?, back.head?⟩) (after : Linked changed (some node) back none)
    (tail : list.tail = (front ++ node :: back).getLast?) :
    list.unlinkNext changed node =
      .ok (true, ⟨list.head, (front ++ back).getLast?⟩, setPrevOf changed back.head? front.getLast?) := by
  unfold LinkedList.unlinkNext
  cases back with
  | nil =>
    rw [List.getLast?_concat] at tail
    simp [here, tail, setPrevOf]
  | cons next rest =>
    have prev : (changed next).prev = some node := by rw [after.1]
    have last : list.tail = (front ++ next :: rest).getLast? := by
      rw [tail]
      simp [List.getLast?_append, List.getLast?_cons]
    simp only [here, List.head?_cons, prev, ne_eq, not_true_eq_false, if_false, ← last]
    rfl

theorem Represents.remove (represents : Represents list heap (front ++ node :: back)) :
    ∃ list' heap', list.remove heap node = .ok (some node, list', heap') ∧ Represents list' heap' (front ++ back) ∧
      heap' node = .new ∧ Frames heap heap' (front ++ node :: back) := by
  obtain ⟨nodup, outside, here, before, after⟩ := represents.split
  obtain ⟨nodupFront, nodupBack, disjoint⟩ := List.nodup_append'.mp nodup
  have outsideFront : node ∉ front := fun member => outside (List.mem_append_left _ member)
  have outsideBack : node ∉ back := fun member => outside (List.mem_append_right _ member)
  have same (other : T) (member : other ∉ front) : setNextOf heap front.getLast? back.head? other = heap other :=
    setNextOf_of_ne (last_ne member)
  have after' : Linked (setNextOf heap front.getLast? back.head?) (some node) back none :=
    after.congr fun other member => same other fun earlier => disjoint earlier member
  have next := unlinkNext_linked ⟨(front ++ back).head?, list.tail⟩ ((same node outsideFront).trans here) after'
    represents.tail
  have removed : list.remove heap node = .ok (some node, ⟨(front ++ back).head?, (front ++ back).getLast?⟩,
      setPrev (setNext (setPrevOf (setNextOf heap front.getLast? back.head?) back.head? front.getLast?) node none)
        node none) := by
    unfold LinkedList.remove
    rw [represents.unlinkPrev]
    simp only [bind, Except.bind, next, if_true]
    rfl
  refine ⟨_, _, removed, ⟨nodup, rfl, rfl, ?_⟩, ?_, ?_⟩
  · rw [linked_append, Option.or_none, Option.or_none]
    constructor
    · have front' : Linked (setNextOf heap front.getLast? back.head?) none front back.head? :=
        before.setNextOf_last nodupFront
      refine Linked.setPrev_outside (Linked.setNext_outside ?_ outsideFront) outsideFront
      exact front'.congr fun other member => setPrevOf_of_ne (head_ne (disjoint member))
    · refine Linked.setPrev_outside (Linked.setNext_outside ?_ outsideBack) outsideBack
      exact after'.setPrevOf_first nodupBack
  · rw [setPrev_self, setNext_self]
    rfl
  · intro other member
    simp only [List.mem_append, List.mem_cons, not_or] at member
    obtain ⟨outFront, apart, outBack⟩ := member
    rw [setPrev_of_ne apart, setNext_of_ne apart, setPrevOf_of_ne (head_ne outBack), same other outFront]

theorem Represents.remove_erase (represents : Represents list heap nodes) (member : node ∈ nodes) :
    ∃ list' heap', list.remove heap node = .ok (some node, list', heap') ∧ Represents list' heap' (nodes.erase node) ∧
      heap' node = .new ∧ Frames heap heap' nodes := by
  obtain ⟨front, back, rfl⟩ := List.append_of_mem member
  have outside : node ∉ front := fun earlier => represents.split.2.1 (List.mem_append_left _ earlier)
  rw [List.erase_append_right _ outside, List.erase_cons_head]
  exact represents.remove

theorem Represents.remove_outside (represents : Represents list heap nodes) (outside : node ∉ nodes)
    (cleared : heap node = .new) : list.remove heap node = .ok (none, list, heap) := by
  have first : list.head ≠ some node := by
    rw [represents.head]
    exact head_ne outside
  have unlinked : list.unlinkPrev heap node = .ok none := by
    unfold LinkedList.unlinkPrev
    rw [cleared]
    exact if_pos first
  unfold LinkedList.remove
  rw [unlinked]
  rfl

theorem Represents.popBack (represents : Represents list heap nodes) :
    ∃ list' heap', list.popBack heap = (nodes.getLast?, list', heap') ∧ Represents list' heap' nodes.dropLast ∧
      (∀ node ∈ nodes.getLast?, heap' node = .new) ∧ Frames heap heap' nodes := by
  rcases List.eq_nil_or_concat nodes with rfl | ⟨front, last, rfl⟩
  · have none : list.popBack heap = (none, list, heap) := by
      unfold LinkedList.popBack
      rw [represents.tail]
      rfl
    exact ⟨list, heap, none, represents, nofun, fun _ _ => rfl⟩
  · rw [List.concat_eq_append] at *
    obtain ⟨nodup, outside, here, before, -⟩ := represents.split
    rw [List.append_nil] at nodup outside
    have popped : list.popBack heap = (some last, ⟨front.head?, front.getLast?⟩,
        setNext (setPrev (setNextOf heap front.getLast? none) last none) last none) := by
      unfold LinkedList.popBack
      rw [represents.tail, List.getLast?_concat]
      rcases List.eq_nil_or_concat front with rfl | ⟨earlier, prev, rfl⟩
      · simp only [here, List.getLast?_nil]
        rfl
      · rw [List.concat_eq_append] at *
        have head : list.head = (earlier ++ [prev]).head? := by
          rw [represents.head]
          cases earlier <;> rfl
        simp only [here, List.getLast?_concat, head]
        rfl
    rw [List.dropLast_concat, List.getLast?_concat]
    refine ⟨_, _, popped, ⟨nodup, rfl, rfl, ?_⟩, ?_, ?_⟩
    · have front' : Linked (setNextOf heap front.getLast? none) none front none := before.setNextOf_last nodup
      exact (front'.setPrev_outside outside).setNext_outside outside
    · rintro _ ⟨⟩
      rw [setNext_self, setPrev_self]
      rfl
    · intro other member
      simp only [List.mem_append, List.mem_singleton, not_or] at member
      obtain ⟨earlier, apart⟩ := member
      rw [setNext_of_ne apart, setPrev_of_ne apart, setNextOf_of_ne (last_ne earlier)]

end Operations

end LinkedList

end Osaka
