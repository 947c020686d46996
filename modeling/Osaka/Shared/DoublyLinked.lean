import Mathlib.Data.List.Nodup

set_option autoImplicit false

namespace DoublyLinked

variable {T : Type}

structure Pointers (T : Type) where
  prev : Option T
  next : Option T
  deriving DecidableEq

namespace Pointers

def new : Pointers T := ⟨none, none⟩

def setPrev (self : Pointers T) (value : Option T) : Pointers T := { self with prev := value }

def setNext (self : Pointers T) (value : Option T) : Pointers T := { self with next := value }

end Pointers

abbrev Heap (T : Type) := T → Pointers T

/-- The nodes of a list have pointers to each other in both directions, to `prev` before the first one and to `next`
after the last one. -/
def Linked (heap : Heap T) : Option T → List T → Option T → Prop
  | _, [], _ => True
  | prev, node :: rest, next => heap node = ⟨prev, rest.head?.or next⟩ ∧ Linked heap (some node) rest next

variable {heap changed : Heap T} {prev next : Option T} {front back nodes : List T} {node : T}

@[simp]
theorem linked_nil : Linked heap prev [] next := trivial

@[simp]
theorem linked_cons : Linked heap prev (node :: nodes) next ↔
    heap node = ⟨prev, nodes.head?.or next⟩ ∧ Linked heap (some node) nodes next := Iff.rfl

theorem linked_append : Linked heap prev (front ++ back) next ↔
    Linked heap prev front (back.head?.or next) ∧ Linked heap (front.getLast?.or prev) back next := by
  induction front generalizing prev with
  | nil => simp
  | cons node rest ih =>
    have first : (rest ++ back).head?.or next = rest.head?.or (back.head?.or next) := by
      cases rest <;> simp
    have last : (node :: rest).getLast?.or prev = rest.getLast?.or (some node) := by
      rw [List.getLast?_cons]
      cases rest.getLast? <;> rfl
    rw [List.cons_append, linked_cons, linked_cons, ih, first, last, and_assoc]

theorem Linked.congr (linked : Linked heap prev nodes next) (same : ∀ node ∈ nodes, changed node = heap node) :
    Linked changed prev nodes next := by
  induction nodes generalizing prev with
  | nil => trivial
  | cons node rest ih =>
    obtain ⟨here, later⟩ := linked
    refine ⟨?_, ih later fun other member => same other (List.mem_cons_of_mem _ member)⟩
    rw [same node List.mem_cons_self, here]

section Changes

variable [DecidableEq T]

def setPrev (heap : Heap T) (node : T) (value : Option T) : Heap T :=
  Function.update heap node ((heap node).setPrev value)

def setNext (heap : Heap T) (node : T) (value : Option T) : Heap T :=
  Function.update heap node ((heap node).setNext value)

@[simp]
theorem setPrev_self {value : Option T} : setPrev heap node value node = (heap node).setPrev value :=
  Function.update_self ..

@[simp]
theorem setNext_self {value : Option T} : setNext heap node value node = (heap node).setNext value :=
  Function.update_self ..

theorem setPrev_of_ne {value : Option T} {other : T} (apart : other ≠ node) :
    setPrev heap node value other = heap other :=
  Function.update_of_ne apart ..

theorem setNext_of_ne {value : Option T} {other : T} (apart : other ≠ node) :
    setNext heap node value other = heap other :=
  Function.update_of_ne apart ..

theorem Linked.setPrev_outside {value : Option T} (linked : Linked heap prev nodes next) (outside : node ∉ nodes) :
    Linked (setPrev heap node value) prev nodes next :=
  linked.congr fun _ member => setPrev_of_ne fun same => outside (same ▸ member)

theorem Linked.setNext_outside {value : Option T} (linked : Linked heap prev nodes next) (outside : node ∉ nodes) :
    Linked (setNext heap node value) prev nodes next :=
  linked.congr fun _ member => setNext_of_ne fun same => outside (same ▸ member)

def setPrevOf (heap : Heap T) (node : Option T) (value : Option T) : Heap T :=
  match node with
  | some node => setPrev heap node value
  | none => heap

def setNextOf (heap : Heap T) (node : Option T) (value : Option T) : Heap T :=
  match node with
  | some node => setNext heap node value
  | none => heap

theorem setPrevOf_of_ne {value first : Option T} (apart : first ≠ some node) :
    setPrevOf heap first value node = heap node := by
  cases first with
  | none => rfl
  | some first => exact setPrev_of_ne fun same => apart (same ▸ rfl)

theorem setNextOf_of_ne {value last : Option T} (apart : last ≠ some node) :
    setNextOf heap last value node = heap node := by
  cases last with
  | none => rfl
  | some last => exact setNext_of_ne fun same => apart (same ▸ rfl)

omit [DecidableEq T] in
theorem head_ne (outside : node ∉ nodes) : nodes.head? ≠ some node := fun first => outside (List.mem_of_head? first)

omit [DecidableEq T] in
theorem last_ne (outside : node ∉ nodes) : nodes.getLast? ≠ some node :=
  fun last => outside (List.mem_of_getLast? last)

theorem Linked.setPrevOf_first {value : Option T} (linked : Linked heap prev nodes next) (nodup : nodes.Nodup) :
    Linked (setPrevOf heap nodes.head? value) value nodes next := by
  cases nodes with
  | nil => trivial
  | cons first rest =>
    obtain ⟨here, later⟩ := linked
    refine ⟨?_, later.setPrev_outside (List.nodup_cons.mp nodup).1⟩
    simp only [List.head?_cons, setPrevOf, setPrev_self, here, Pointers.setPrev]

theorem Linked.setNextOf_last {value : Option T} (linked : Linked heap prev nodes next) (nodup : nodes.Nodup) :
    Linked (setNextOf heap nodes.getLast? value) prev nodes value := by
  rcases List.eq_nil_or_concat nodes with rfl | ⟨front, last, rfl⟩
  · trivial
  · rw [List.concat_eq_append] at *
    obtain ⟨earlier, here⟩ := linked_append.mp linked
    have outside : last ∉ front := fun member =>
      List.disjoint_of_nodup_append nodup member (List.mem_singleton_self _)
    rw [List.getLast?_concat]
    refine linked_append.mpr ⟨earlier.setNext_outside outside, ?_, trivial⟩
    rw [setNextOf, setNext_self, here.1]
    rfl

end Changes

end DoublyLinked
