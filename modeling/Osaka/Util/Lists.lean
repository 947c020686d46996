import Osaka.Shared.Traces
import Osaka.Util.LinkedList

set_option autoImplicit false

namespace Osaka.LinkedList

open DoublyLinked Traces

variable {I T : Type}

/-- Lists whose nodes are the same allocations. -/
structure Lists (I T : Type) where
  heap : Heap T
  lists : I → LinkedList T

def Sequences (I T : Type) := I → List T

inductive Call (I T : Type) where
  | pushFront (list : I) (node : T)
  | popBack (list : I)
  | remove (list : I) (node : T)
  | isEmpty (list : I)
  | last (list : I)

inductive Answer (T : Type) where
  | done
  | node (node : Option T)
  | empty (empty : Bool)
  deriving DecidableEq

section Calls

variable [DecidableEq I] [DecidableEq T]

namespace Lists

def new : Lists I T := ⟨fun _ => .new, fun _ => LinkedList.new⟩

def put (self : Lists I T) (i : I) (list : LinkedList T) (heap : Heap T) : Lists I T :=
  ⟨heap, Function.update self.lists i list⟩

def call (self : Lists I T) : Call I T → Except Fault (Answer T × Lists I T)
  | .pushFront i node => do
    let (list, heap) ← (self.lists i).pushFront self.heap node
    return (.done, self.put i list heap)
  | .popBack i =>
    let (node, list, heap) := (self.lists i).popBack self.heap
    return (.node node, self.put i list heap)
  | .remove i node => do
    let (node, list, heap) ← (self.lists i).remove self.heap node
    return (.node node, self.put i list heap)
  | .isEmpty i => do
    let empty ← (self.lists i).isEmpty
    return (.empty empty, self)
  | .last i => return (.node (self.lists i).last, self)

def run (self : Lists I T) : List (Call I T) → Except Fault (List (Answer T) × Lists I T)
  | [] => return ([], self)
  | call :: rest => do
    let (answer, self) ← self.call call
    let (answers, self) ← self.run rest
    return (answer :: answers, self)

end Lists

namespace Sequences

def new : Sequences I T := fun _ => []

def put (self : Sequences I T) (i : I) (nodes : List T) : Sequences I T := Function.update self i nodes

omit [DecidableEq T] in
theorem put_same (self : Sequences I T) (i : I) : self.put i (self i) = self := Function.update_eq_self ..

omit [DecidableEq T] in
@[simp]
theorem put_self (self : Sequences I T) (i : I) (nodes : List T) : self.put i nodes i = nodes :=
  Function.update_self ..

omit [DecidableEq T] in
theorem put_of_ne {self : Sequences I T} {i j : I} {nodes : List T} (apart : j ≠ i) : self.put i nodes j = self j :=
  Function.update_of_ne apart ..

def call (self : Sequences I T) : Call I T → Answer T × Sequences I T
  | .pushFront i node => (.done, self.put i (node :: self i))
  | .popBack i => (.node (self i).getLast?, self.put i (self i).dropLast)
  | .remove i node => (.node (if node ∈ self i then some node else none), self.put i ((self i).erase node))
  | .isEmpty i => (.empty (self i).isEmpty, self)
  | .last i => (.node (self i).getLast?, self)

def step (self : Sequences I T) (call : Call I T) : Sequences I T := (self.call call).2

def run (self : Sequences I T) : List (Call I T) → List (Answer T) × Sequences I T
  | [] => ([], self)
  | call :: rest =>
    let (answers, last) := (self.step call).run rest
    ((self.call call).1 :: answers, last)

/-- What the callers ensure: no node is in two lists, nor is one removed from a list that it is not in while it is in
another. -/
def Allows (self : Sequences I T) : Call I T → Prop
  | .pushFront _ node => ∀ i, node ∉ self i
  | .remove i node => ∀ j, j ≠ i → node ∉ self j
  | _ => True

end Sequences

structure Lists.Refines (lists : Lists I T) (sequences : Sequences I T) : Prop where
  represents : ∀ i, (lists.lists i).Represents lists.heap (sequences i)
  apart : ∀ i j, i ≠ j → ∀ node ∈ sequences i, node ∉ sequences j
  cleared : ∀ node, (∀ i, node ∉ sequences i) → lists.heap node = .new

namespace Lists

variable {lists : Lists I T} {sequences : Sequences I T} {i : I}

omit [DecidableEq I] [DecidableEq T] in
theorem new_refines : (new : Lists I T).Refines .new :=
  ⟨fun _ => new_represents, nofun, fun _ _ => rfl⟩

theorem Refines.put (refines : lists.Refines sequences) {list : LinkedList T} {heap : Heap T} {nodes touched : List T}
    (represents : list.Represents heap nodes) (frames : Frames lists.heap heap touched)
    (inside : ∀ node ∈ touched, ∀ j, j ≠ i → node ∉ sequences j) (fewer : nodes ⊆ touched) (all : sequences i ⊆ touched)
    (cleared : ∀ node ∈ touched, node ∉ nodes → heap node = .new) :
    (lists.put i list heap).Refines (sequences.put i nodes) := by
  refine ⟨?_, ?_, ?_⟩
  · intro j
    by_cases same : j = i
    · subst same
      simpa [Lists.put] using represents
    · simp only [Lists.put, Sequences.put_of_ne same, Function.update_of_ne same]
      refine (refines.represents j).congr fun node member => frames node fun changed => ?_
      exact inside node changed j same member
  · intro j k apart node member
    by_cases first : j = i
    · subst first
      rw [Sequences.put_self] at member
      rw [Sequences.put_of_ne apart.symm]
      exact inside node (fewer member) k apart.symm
    · rw [Sequences.put_of_ne first] at member
      by_cases second : k = i
      · subst second
        rw [Sequences.put_self]
        exact fun new => inside node (fewer new) j first member
      · rw [Sequences.put_of_ne second]
        exact refines.apart j k apart node member
  · intro node outside
    have gone : node ∉ nodes := by
      have here := outside i
      rwa [Sequences.put_self] at here
    by_cases changed : node ∈ touched
    · exact cleared node changed gone
    · refine (frames node changed).trans (refines.cleared node fun j => ?_)
      by_cases same : j = i
      · subst same
        exact fun member => changed (all member)
      · have there := outside j
        rwa [Sequences.put_of_ne same] at there

omit [DecidableEq I] [DecidableEq T] in
theorem Refines.alone (refines : lists.Refines sequences) : ∀ node ∈ sequences i, ∀ j, j ≠ i → node ∉ sequences j :=
  fun node member j apart => refines.apart i j apart.symm node member

omit [DecidableEq T] in
theorem put_same (lists : Lists I T) (i : I) : lists.put i (lists.lists i) lists.heap = lists := by
  simp [Lists.put]

theorem Refines.remove_outside (refines : lists.Refines sequences) {node : T} (outside : ∀ j, node ∉ sequences j) :
    lists.call (.remove i node) = .ok (.node none, lists) := by
  have none := (refines.represents i).remove_outside (outside i) (refines.cleared node outside)
  simp only [Lists.call, none, bind, Except.bind, put_same]
  rfl

theorem Refines.call (refines : lists.Refines sequences) {call : Call I T} (allowed : sequences.Allows call) :
    ∃ next, lists.call call = .ok ((sequences.call call).1, next) ∧ next.Refines (sequences.step call) := by
  cases call with
  | pushFront i node =>
    obtain ⟨list, heap, pushed, represents, frames⟩ := (refines.represents i).pushFront (allowed i)
    refine ⟨lists.put i list heap, ?_, ?_⟩
    · simp only [Lists.call, pushed]
      rfl
    · refine refines.put represents frames ?_ (List.Subset.refl _) (List.subset_cons_self _ _) ?_
      · intro other member j apart
        rcases List.mem_cons.mp member with rfl | member
        · exact allowed j
        · exact refines.alone other member j apart
      · exact fun other member gone => absurd member gone
  | popBack i =>
    obtain ⟨list, heap, popped, represents, cleared, frames⟩ := (refines.represents i).popBack
    refine ⟨lists.put i list heap, ?_, ?_⟩
    · simp only [Lists.call, popped]
      rfl
    · refine refines.put represents frames refines.alone (List.dropLast_subset _) (List.Subset.refl _) ?_
      intro node member gone
      have nonempty := List.ne_nil_of_mem member
      rw [← List.dropLast_concat_getLast nonempty, List.mem_append, List.mem_singleton] at member
      obtain rfl := member.resolve_left gone
      exact cleared _ (List.getLast?_eq_some_getLast nonempty)
  | remove i node =>
    by_cases member : node ∈ sequences i
    · obtain ⟨list, heap, removed, represents, cleared, frames⟩ := (refines.represents i).remove_erase member
      refine ⟨lists.put i list heap, ?_, ?_⟩
      · simp only [Lists.call, removed, Sequences.call, if_pos member]
        rfl
      · refine refines.put represents frames refines.alone List.erase_subset (List.Subset.refl _) ?_
        intro other member gone
        obtain rfl : other = node := by_contra fun apart => gone ((List.mem_erase_of_ne apart).mpr member)
        exact cleared
    · have outside (j : I) : node ∉ sequences j := by
        by_cases same : j = i
        · exact same ▸ member
        · exact allowed j same
      refine ⟨lists, ?_, ?_⟩
      · simp only [Sequences.call, if_neg member]
        exact refines.remove_outside outside
      · have same : sequences.step (.remove i node) = sequences := by
          simp only [Sequences.step, Sequences.call, List.erase_of_not_mem member, Sequences.put_same]
        rwa [same]
  | isEmpty i =>
    refine ⟨lists, ?_, refines⟩
    simp only [Lists.call, (refines.represents i).isEmpty]
    rfl
  | last i =>
    refine ⟨lists, ?_, refines⟩
    simp only [Lists.call, (refines.represents i).last]
    rfl

theorem Refines.run (refines : lists.Refines sequences) {calls : List (Call I T)}
    (allowed : Each Sequences.step Sequences.Allows sequences calls) :
    ∃ last, lists.run calls = .ok ((sequences.run calls).1, last) ∧ last.Refines (sequences.run calls).2 := by
  induction calls generalizing lists sequences with
  | nil => exact ⟨lists, rfl, refines⟩
  | cons call rest ih =>
    obtain ⟨here, later⟩ := allowed
    obtain ⟨next, called, refines⟩ := refines.call here
    obtain ⟨last, ran, refines⟩ := ih refines later
    refine ⟨last, ?_, refines⟩
    simp only [Lists.run, called, bind, Except.bind, ran]
    rfl

/-- The lists answer as the sequences do, no assert fails, and the nodes' pointers are those of the sequences. -/
theorem lists_refine_sequences (calls : List (Call I T)) (allowed : Each Sequences.step Sequences.Allows .new calls) :
    ∃ last, (new : Lists I T).run calls = .ok ((Sequences.run .new calls).1, last) ∧
      last.Refines (Sequences.run .new calls).2 ∧
      ∀ i node, (∀ j, node ∉ (Sequences.run .new calls).2 j) → last.call (.remove i node) = .ok (.node none, last) := by
  obtain ⟨last, ran, refines⟩ := new_refines.run allowed
  exact ⟨last, ran, refines, fun i node outside => refines.remove_outside outside⟩

/-- Two lists of three nodes, of which one is removed twice and another taken from an empty list. -/
theorem lists_refine_sequences_pair : ∃ last : Lists Bool Nat,
    new.run [.pushFront true 5, .pushFront true 6, .pushFront false 7, .remove true 5, .remove true 5, .popBack false,
      .popBack false, .last true] =
        .ok ([.done, .done, .done, .node (some 5), .node none, .node (some 7), .node none, .node (some 6)], last) := by
  have allowed : Each Sequences.step Sequences.Allows .new [Call.pushFront true 5, .pushFront true 6,
      .pushFront false 7, .remove true 5, .remove true 5, .popBack false, .popBack false, .last true] := by
    refine ⟨?_, ?_, ?_, ?_, ?_, trivial, trivial, trivial, trivial⟩
    all_goals intro list; cases list <;> decide
  obtain ⟨last, ran, -, -⟩ := lists_refine_sequences _ allowed
  exact ⟨last, ran⟩

end Lists

end Calls

end Osaka.LinkedList
