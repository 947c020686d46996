import Mathlib.Data.List.Basic
import Mathlib.Order.WithBot
import Mathlib.Order.Compare

set_option autoImplicit false

/-!
# Binary max-heaps in an array

The algorithms of the standard library's heap, over an arbitrary comparison. What is proved
of them asks of the comparison only that it agrees with a key on the elements stored.
-/

namespace MaxHeap

variable {α κ : Type}

def parent (i : Nat) : Nat := (i - 1) / 2

def swap (data : List α) (i j : Nat) : List α :=
  match data[i]?, data[j]? with
  | some x, some y => (data.set i y).set j x
  | _, _ => data

def siftUp (cmp : α → α → Ordering) : Nat → Nat → List α → List α
  | 0, _, data => data
  | fuel + 1, pos, data =>
    match data[pos]?, data[parent pos]? with
    | some x, some p =>
      if pos = 0 ∨ (cmp x p).isLE then data
      else siftUp cmp fuel (parent pos) (swap data pos (parent pos))
    | _, _ => data

def greaterChild (cmp : α → α → Ordering) (data : List α) (pos : Nat) : Option Nat :=
  match data[2 * pos + 1]?, data[2 * pos + 2]? with
  | some left, some right => if (cmp left right).isLE then some (2 * pos + 2) else some (2 * pos + 1)
  | some _, none => some (2 * pos + 1)
  | none, _ => none

def siftDown (cmp : α → α → Ordering) : Nat → Nat → List α → List α
  | 0, _, data => data
  | fuel + 1, pos, data =>
    match greaterChild cmp data pos with
    | none => data
    | some child =>
      match data[pos]?, data[child]? with
      | some x, some y =>
        if (cmp x y).isGE then data else siftDown cmp fuel child (swap data pos child)
      | _, _ => data

-- Moves the hole to a leaf without looking at its element, and only then back up.
def siftDownToBottom (cmp : α → α → Ordering) : Nat → Nat → List α → List α
  | 0, pos, data => siftUp cmp pos pos data
  | fuel + 1, pos, data =>
    match greaterChild cmp data pos with
    | none => siftUp cmp pos pos data
    | some child => siftDownToBottom cmp fuel child (swap data pos child)

def peek (data : List α) : Option α := data[0]?

def push (cmp : α → α → Ordering) (data : List α) (item : α) : List α :=
  siftUp cmp data.length data.length (data ++ [item])

-- The last element leaves the array and, unless it was the only one, replaces the root.
def pop (cmp : α → α → Ordering) : List α → Option (α × List α)
  | [] => none
  | top :: rest =>
    match rest.getLast? with
    | none => some (top, [])
    | some item => some (top, siftDownToBottom cmp rest.length 0 (item :: rest.dropLast))

def rebuild (cmp : α → α → Ordering) : Nat → List α → List α
  | 0, data => data
  | n + 1, data => rebuild cmp n (siftDown cmp data.length n data)

def ofList (cmp : α → α → Ordering) (data : List α) : List α :=
  rebuild cmp (data.length / 2) data

theorem swap_get (data : List α) {i j : Nat} (left : i < data.length) (right : j < data.length)
    (k : Nat) :
    (swap data i j)[k]? = if k = j then data[i]? else if k = i then data[j]? else data[k]? := by
  have hi : data[i]? = some data[i] := List.getElem?_eq_getElem left
  have hj : data[j]? = some data[j] := List.getElem?_eq_getElem right
  simp only [swap, hi, hj, List.getElem?_set, List.length_set]
  by_cases atRight : j = k
  · subst atRight
    simp [right]
  · by_cases atLeft : i = k
    · subst atLeft
      simp [left, atRight, Ne.symm atRight]
    · simp [atRight, atLeft, Ne.symm atRight, Ne.symm atLeft]

theorem swap_perm (data : List α) (i j : Nat) : (swap data i j).Perm data := by
  unfold swap
  cases hi : data[i]? with
  | none => exact List.Perm.refl _
  | some x =>
    cases hj : data[j]? with
    | none => exact List.Perm.refl _
    | some y =>
      obtain ⟨left, rfl⟩ := List.getElem?_eq_some_iff.mp hi
      obtain ⟨right, rfl⟩ := List.getElem?_eq_some_iff.mp hj
      exact List.set_set_perm left right

theorem siftUp_perm (cmp : α → α → Ordering) (fuel pos : Nat) (data : List α) :
    (siftUp cmp fuel pos data).Perm data := by
  induction fuel generalizing pos data with
  | zero => exact List.Perm.refl _
  | succ fuel ih =>
    unfold siftUp
    split
    · split
      · exact List.Perm.refl _
      · exact (ih _ _).trans (swap_perm _ _ _)
    · exact List.Perm.refl _

theorem siftDown_perm (cmp : α → α → Ordering) (fuel pos : Nat) (data : List α) :
    (siftDown cmp fuel pos data).Perm data := by
  induction fuel generalizing pos data with
  | zero => exact List.Perm.refl _
  | succ fuel ih =>
    unfold siftDown
    split
    · exact List.Perm.refl _
    · split
      · split
        · exact List.Perm.refl _
        · exact (ih _ _).trans (swap_perm _ _ _)
      · exact List.Perm.refl _

theorem siftDownToBottom_perm (cmp : α → α → Ordering) (fuel pos : Nat) (data : List α) :
    (siftDownToBottom cmp fuel pos data).Perm data := by
  induction fuel generalizing pos data with
  | zero => exact siftUp_perm cmp _ _ _
  | succ fuel ih =>
    unfold siftDownToBottom
    split
    · exact siftUp_perm cmp _ _ _
    · exact (ih _ _).trans (swap_perm _ _ _)

theorem push_perm (cmp : α → α → Ordering) (data : List α) (item : α) :
    (push cmp data item).Perm (item :: data) :=
  (siftUp_perm cmp _ _ _).trans List.perm_append_comm

theorem rebuild_perm (cmp : α → α → Ordering) (n : Nat) (data : List α) :
    (rebuild cmp n data).Perm data := by
  induction n generalizing data with
  | zero => exact List.Perm.refl _
  | succ n ih => exact (ih _).trans (siftDown_perm cmp _ _ _)

theorem ofList_perm (cmp : α → α → Ordering) (data : List α) : (ofList cmp data).Perm data :=
  rebuild_perm cmp _ _

theorem pop_perm (cmp : α → α → Ordering) (data rest : List α) (top : α)
    (popped : pop cmp data = some (top, rest)) :
    peek data = some top ∧ data.Perm (top :: rest) := by
  cases data with
  | nil => simp [pop] at popped
  | cons head tail =>
    rcases List.eq_nil_or_concat tail with rfl | ⟨front, item, rfl⟩
    · simp only [pop, List.getLast?_nil, Option.some.injEq, Prod.mk.injEq] at popped
      obtain ⟨rfl, rfl⟩ := popped
      simp [peek]
    · simp only [List.concat_eq_append, pop, List.getLast?_concat, List.dropLast_concat,
        Option.some.injEq, Prod.mk.injEq] at popped
      obtain ⟨rfl, rfl⟩ := popped
      refine ⟨rfl, List.Perm.cons head ?_⟩
      rw [List.concat_eq_append]
      exact List.perm_append_comm.trans (siftDownToBottom_perm cmp _ 0 _).symm

theorem pop_none (cmp : α → α → Ordering) (data : List α) :
    pop cmp data = none ↔ data = [] := by
  cases data with
  | nil => simp [pop]
  | cons head tail => cases last : tail.getLast? <;> simp [pop, last]

-- Positions past the end lie below everything.
def level (key : α → κ) (data : List α) (i : Nat) : WithBot κ :=
  match data[i]? with
  | some x => key x
  | none => ⊥

theorem level_lt {key : α → κ} {data : List α} {i : Nat} (within : i < data.length) :
    level key data i = key data[i] := by
  simp [level, List.getElem?_eq_getElem within]

theorem level_ge {key : α → κ} {data : List α} {i : Nat} (outside : data.length ≤ i) :
    level key data i = ⊥ := by
  simp [level, List.getElem?_eq_none outside]

theorem level_swap (key : α → κ) (data : List α) {i j : Nat} (left : i < data.length)
    (right : j < data.length) (k : Nat) :
    level key (swap data i j) k =
      if k = j then level key data i else if k = i then level key data j else level key data k := by
  simp only [level, swap_get data left right]
  split_ifs <;> rfl

section Order

variable [LinearOrder κ]

/-- The comparison agrees with the key on every pair of stored elements. -/
def Keyed (cmp : α → α → Ordering) (key : α → κ) (data : List α) : Prop :=
  ∀ x ∈ data, ∀ y ∈ data, cmp x y = compare (key x) (key y)

def Ordered (key : α → κ) (data : List α) : Prop :=
  ∀ i, 0 < i → level key data i ≤ level key data (parent i)

theorem Keyed.perm {cmp : α → α → Ordering} {key : α → κ} {data other : List α}
    (keyed : Keyed cmp key data) (same : other.Perm data) : Keyed cmp key other :=
  fun x hx y hy => keyed x (same.mem_iff.mp hx) y (same.mem_iff.mp hy)

theorem isLE_level {cmp : α → α → Ordering} {key : α → κ} {data : List α}
    (keyed : Keyed cmp key data) {i j : Nat} (left : i < data.length) (right : j < data.length) :
    (cmp data[i] data[j]).isLE = true ↔ level key data i ≤ level key data j := by
  rw [keyed _ (List.getElem_mem left) _ (List.getElem_mem right), level_lt left, level_lt right,
    WithBot.coe_le_coe, compare_le_iff_le.symm]
  cases compare (key data[i]) (key data[j]) <;> decide

theorem isGE_level {cmp : α → α → Ordering} {key : α → κ} {data : List α}
    (keyed : Keyed cmp key data) {i j : Nat} (left : i < data.length) (right : j < data.length) :
    (cmp data[i] data[j]).isGE = true ↔ level key data j ≤ level key data i := by
  rw [keyed _ (List.getElem_mem left) _ (List.getElem_mem right), level_lt left, level_lt right,
    WithBot.coe_le_coe, compare_ge_iff_ge.symm]
  cases compare (key data[i]) (key data[j]) <;> decide

theorem Ordered.root {key : α → κ} {data : List α} (ordered : Ordered key data) (i : Nat) :
    level key data i ≤ level key data 0 := by
  induction i using Nat.strongRecOn with
  | ind i ih =>
    by_cases root : i = 0
    · rw [root]
    · have step : parent i < i := by unfold parent; omega
      exact (ordered i (by omega)).trans (ih (parent i) step)

theorem Ordered.peek_max {key : α → κ} {data : List α} (ordered : Ordered key data) {top : α}
    (head : peek data = some top) {x : α} (stored : x ∈ data) : key x ≤ key top := by
  obtain ⟨i, within, rfl⟩ := List.mem_iff_getElem.mp stored
  have below := ordered.root i
  rw [level_lt within] at below
  have root : level key data 0 = key top := by
    unfold peek at head
    simp [level, head]
  rw [root] at below
  exact WithBot.coe_le_coe.mp below

/-- What a hole at `pos` may break when its element still has to rise. -/
structure Rising (key : α → κ) (data : List α) (pos : Nat) : Prop where
  others : ∀ i, 0 < i → i ≠ pos → level key data i ≤ level key data (parent i)
  grand : ∀ i, 0 < i → parent i = pos → 0 < pos →
    level key data i ≤ level key data (parent pos)

/-- What a hole at `pos` may break, among parents from `low` on, when its element has to sink. -/
structure Sinking (key : α → κ) (data : List α) (low pos : Nat) : Prop where
  others : ∀ i, 0 < i → low ≤ parent i → i ≠ pos → parent i ≠ pos →
    level key data i ≤ level key data (parent i)
  grand : ∀ i, 0 < i → parent i = pos → 0 < pos → low ≤ parent pos →
    level key data i ≤ level key data (parent pos)

theorem Rising.swap {key : α → κ} {data : List α} {pos : Nat} (rising : Rising key data pos)
    (positive : 0 < pos) (within : pos < data.length)
    (above : level key data (parent pos) < level key data pos) :
    Rising key (swap data pos (parent pos)) (parent pos) := by
  have step : parent pos < pos := by unfold parent; omega
  have up : parent pos < data.length := by omega
  constructor
  · intro i hi different
    rw [level_swap key data within up, level_swap key data within up, if_neg different]
    by_cases atPos : i = pos
    · subst atPos
      simp only [if_true]
      exact above.le
    · rw [if_neg atPos]
      by_cases child : parent i = pos
      · rw [if_neg (by omega), if_pos child]
        exact rising.grand i hi child positive
      · by_cases sibling : parent i = parent pos
        · rw [if_pos sibling]
          have old := rising.others i hi atPos
          rw [sibling] at old
          exact old.trans above.le
        · rw [if_neg sibling, if_neg child]
          exact rising.others i hi atPos
  · intro i hi child positiveUp
    have upper : parent (parent pos) < parent pos := by
      generalize parent pos = q at *
      unfold parent; omega
    have upEdge := rising.others (parent pos) positiveUp (by omega)
    rw [level_swap key data within up, level_swap key data within up]
    rw [if_neg (show parent (parent pos) ≠ parent pos by omega),
      if_neg (show parent (parent pos) ≠ pos by omega)]
    have notSelf : i ≠ parent pos := by
      intro same
      subst same
      omega
    rw [if_neg notSelf]
    by_cases atPos : i = pos
    · rw [if_pos atPos]
      exact upEdge
    · rw [if_neg atPos]
      have old := rising.others i hi atPos
      rw [child] at old
      exact old.trans upEdge

theorem Rising.settled {key : α → κ} {data : List α} {pos : Nat} (rising : Rising key data pos)
    (edge : 0 < pos → level key data pos ≤ level key data (parent pos)) : Ordered key data := by
  intro i hi
  by_cases atPos : i = pos
  · subst atPos
    exact edge hi
  · exact rising.others i hi atPos

theorem siftUp_ordered {cmp : α → α → Ordering} {key : α → κ} (fuel pos : Nat) (data : List α)
    (enough : pos ≤ fuel) (keyed : Keyed cmp key data) (rising : Rising key data pos) :
    Ordered key (siftUp cmp fuel pos data) := by
  induction fuel generalizing pos data with
  | zero => exact rising.settled (fun positive => by omega)
  | succ fuel ih =>
    unfold siftUp
    by_cases within : pos < data.length
    · have up : parent pos < data.length := by unfold parent; omega
      simp only [List.getElem?_eq_getElem within, List.getElem?_eq_getElem up,
        isLE_level keyed within up]
      split
      next stop =>
        exact rising.settled (fun positive => stop.resolve_left (by omega))
      next go =>
        have positive : 0 < pos := by omega
        have above : level key data (parent pos) < level key data pos :=
          not_le.mp (fun edge => go (Or.inr edge))
        refine ih (parent pos) (swap data pos (parent pos)) ?_
          (keyed.perm (swap_perm data pos (parent pos))) (rising.swap positive within above)
        unfold parent; omega
    · rw [List.getElem?_eq_none (by omega)]
      exact rising.settled (fun _ => by rw [level_ge (by omega)]; exact bot_le)

theorem greaterChild_none {cmp : α → α → Ordering} {data : List α} {pos : Nat}
    (leaf : greaterChild cmp data pos = none) (i : Nat) (positive : 0 < i)
    (child : parent i = pos) : data.length ≤ i := by
  unfold greaterChild at leaf
  have range : i = 2 * pos + 1 ∨ i = 2 * pos + 2 := by unfold parent at child; omega
  cases first : data[2 * pos + 1]? with
  | none =>
    have := List.getElem?_eq_none_iff.mp first
    omega
  | some left =>
    cases second : data[2 * pos + 2]? <;> simp [first, second] at leaf
    split at leaf <;> simp at leaf

theorem greaterChild_some {cmp : α → α → Ordering} {key : α → κ} {data : List α}
    (keyed : Keyed cmp key data) {pos child : Nat}
    (found : greaterChild cmp data pos = some child) :
    parent child = pos ∧ 0 < child ∧ child < data.length ∧
      ∀ i, 0 < i → parent i = pos → level key data i ≤ level key data child := by
  have range (i : Nat) (hi : 0 < i) (of : parent i = pos) :
      i = 2 * pos + 1 ∨ i = 2 * pos + 2 := by unfold parent at of; omega
  unfold greaterChild at found
  cases first : data[2 * pos + 1]? with
  | none => simp [first] at found
  | some left =>
    obtain ⟨leftIn, rfl⟩ := List.getElem?_eq_some_iff.mp first
    cases second : data[2 * pos + 2]? with
    | none =>
      simp only [first, second, Option.some.injEq] at found
      have past := List.getElem?_eq_none_iff.mp second
      refine ⟨by unfold parent; omega, by omega, by omega, fun i hi of => ?_⟩
      rcases range i hi of with rfl | rfl
      · rw [found]
      · rw [level_ge past]
        exact bot_le
    | some right =>
      obtain ⟨rightIn, rfl⟩ := List.getElem?_eq_some_iff.mp second
      simp only [first, second, isLE_level keyed leftIn rightIn] at found
      split at found
      next below =>
        obtain rfl := Option.some.inj found
        refine ⟨by unfold parent; omega, by omega, rightIn, fun i hi of => ?_⟩
        rcases range i hi of with rfl | rfl
        · exact below
        · exact le_rfl
      next above =>
        obtain rfl := Option.some.inj found
        refine ⟨by unfold parent; omega, by omega, leftIn, fun i hi of => ?_⟩
        rcases range i hi of with rfl | rfl
        · exact le_rfl
        · exact (not_le.mp above).le

theorem Sinking.swap {key : α → κ} {data : List α} {low pos child : Nat}
    (sinking : Sinking key data low pos) (atLow : low ≤ pos) (of : parent child = pos)
    (positive : 0 < child) (within : child < data.length)
    (greatest : ∀ i, 0 < i → parent i = pos → level key data i ≤ level key data child) :
    Sinking key (swap data pos child) low child := by
  have step : pos < child := by unfold parent at of; omega
  have posIn : pos < data.length := by omega
  constructor
  · intro i hi reach notSelf notChild
    rw [level_swap key data posIn within, level_swap key data posIn within, if_neg notSelf,
      if_neg notChild]
    by_cases atPos : i = pos
    · subst atPos
      have up : parent i ≠ i := by unfold parent; omega
      rw [if_pos rfl, if_neg up]
      exact sinking.grand child positive of hi reach
    · rw [if_neg atPos]
      by_cases sibling : parent i = pos
      · rw [if_pos sibling]
        exact greatest i hi sibling
      · rw [if_neg sibling]
        exact sinking.others i hi reach atPos sibling
  · intro i hi grandchild _ _
    have below : child < i := by unfold parent at grandchild; omega
    rw [level_swap key data posIn within, level_swap key data posIn within, of]
    rw [if_neg (show i ≠ child by omega), if_neg (show i ≠ pos by omega),
      if_neg (show pos ≠ child by omega), if_pos rfl, ← grandchild]
    exact sinking.others i hi (by omega) (by omega) (by omega)

theorem Sinking.settled {key : α → κ} {data : List α} {low pos : Nat}
    (sinking : Sinking key data low pos)
    (above : 0 < pos → low ≤ parent pos → level key data pos ≤ level key data (parent pos))
    (below : ∀ i, 0 < i → parent i = pos → level key data i ≤ level key data pos) :
    ∀ i, 0 < i → low ≤ parent i → level key data i ≤ level key data (parent i) := by
  intro i hi reach
  by_cases child : parent i = pos
  · rw [child]
    exact below i hi child
  · by_cases atPos : i = pos
    · subst atPos
      exact above hi reach
    · exact sinking.others i hi reach atPos child

theorem siftDown_sunk {cmp : α → α → Ordering} {key : α → κ} (fuel low pos : Nat)
    (data : List α) (enough : data.length ≤ pos + fuel) (atLow : low ≤ pos)
    (keyed : Keyed cmp key data) (sinking : Sinking key data low pos)
    (above : 0 < pos → low ≤ parent pos → level key data pos ≤ level key data (parent pos)) :
    ∀ i, 0 < i → low ≤ parent i →
      level key (siftDown cmp fuel pos data) i ≤ level key (siftDown cmp fuel pos data) (parent i) := by
  induction fuel generalizing pos data with
  | zero =>
    refine sinking.settled above (fun i hi child => ?_)
    have : pos < i := by unfold parent at child; omega
    rw [level_ge (by omega)]
    exact bot_le
  | succ fuel ih =>
    unfold siftDown
    cases found : greaterChild cmp data pos with
    | none =>
      refine sinking.settled above (fun i hi child => ?_)
      rw [level_ge (greaterChild_none found i hi child)]
      exact bot_le
    | some child =>
      obtain ⟨of, positive, within, greatest⟩ := greaterChild_some keyed found
      have step : pos < child := by unfold parent at of; omega
      have posIn : pos < data.length := by omega
      simp only [List.getElem?_eq_getElem posIn, List.getElem?_eq_getElem within,
        isGE_level keyed posIn within]
      split
      next stop =>
        exact sinking.settled above (fun i hi isChild => (greatest i hi isChild).trans stop)
      next go =>
        refine ih child (swap data pos child) ?_ (by omega)
          (keyed.perm (swap_perm data pos child))
          (sinking.swap atLow of positive within greatest) (fun _ _ => ?_)
        · rw [(swap_perm data pos child).length_eq]
          omega
        · rw [level_swap key data posIn within, level_swap key data posIn within, of, if_pos rfl,
            if_neg (by omega), if_pos rfl]
          exact (not_le.mp go).le

theorem Sinking.risen {cmp : α → α → Ordering} {key : α → κ} {data : List α} {pos : Nat}
    (keyed : Keyed cmp key data) (sinking : Sinking key data 0 pos)
    (leaf : ∀ i, 0 < i → parent i = pos → data.length ≤ i) :
    Ordered key (siftUp cmp pos pos data) := by
  refine siftUp_ordered pos pos data le_rfl keyed ⟨fun i hi notSelf => ?_, fun i hi child _ => ?_⟩
  · by_cases child : parent i = pos
    · rw [level_ge (leaf i hi child)]
      exact bot_le
    · exact sinking.others i hi (Nat.zero_le _) notSelf child
  · rw [level_ge (leaf i hi child)]
    exact bot_le

theorem siftDownToBottom_ordered {cmp : α → α → Ordering} {key : α → κ} (fuel pos : Nat)
    (data : List α) (enough : data.length ≤ pos + fuel) (keyed : Keyed cmp key data)
    (sinking : Sinking key data 0 pos) : Ordered key (siftDownToBottom cmp fuel pos data) := by
  induction fuel generalizing pos data with
  | zero =>
    refine sinking.risen keyed (fun i hi child => ?_)
    have : pos < i := by unfold parent at child; omega
    omega
  | succ fuel ih =>
    unfold siftDownToBottom
    cases found : greaterChild cmp data pos with
    | none => exact sinking.risen keyed (greaterChild_none found)
    | some child =>
      obtain ⟨of, positive, within, greatest⟩ := greaterChild_some keyed found
      have step : pos < child := by unfold parent at of; omega
      have swapped := swap_perm data pos child
      refine ih child (swap data pos child) ?_ (keyed.perm swapped)
        (sinking.swap (Nat.zero_le _) of positive within greatest)
      rw [swapped.length_eq]
      omega

theorem push_ordered {cmp : α → α → Ordering} {key : α → κ} {data : List α} {item : α}
    (ordered : Ordered key data) (keyed : Keyed cmp key (item :: data)) :
    Ordered key (push cmp data item) := by
  have old (i : Nat) (within : i < data.length) :
      level key (data ++ [item]) i = level key data i := by
    simp [level, List.getElem?_append_left within]
  refine siftUp_ordered _ _ _ le_rfl (keyed.perm List.perm_append_comm)
    ⟨fun i hi notLast => ?_, fun i hi child _ => ?_⟩
  · by_cases within : i < data.length
    · rw [old i within, old (parent i) (by unfold parent; omega)]
      exact ordered i hi
    · rw [level_ge (by simp; omega)]
      exact bot_le
  · have : data.length < i := by unfold parent at child; omega
    rw [level_ge (by simp; omega)]
    exact bot_le

theorem pop_ordered {cmp : α → α → Ordering} {key : α → κ} {data rest : List α} {top : α}
    (ordered : Ordered key data) (keyed : Keyed cmp key data)
    (popped : pop cmp data = some (top, rest)) : Ordered key rest := by
  have same := (pop_perm cmp data rest top popped).2
  cases data with
  | nil => simp [pop] at popped
  | cons head tail =>
    rcases List.eq_nil_or_concat tail with rfl | ⟨front, item, rfl⟩
    · simp only [pop, List.getLast?_nil, Option.some.injEq, Prod.mk.injEq] at popped
      obtain ⟨_, rfl⟩ := popped
      intro i _
      rw [level_ge (by simp)]
      exact bot_le
    · simp only [List.concat_eq_append, pop, List.getLast?_concat, List.dropLast_concat,
        Option.some.injEq, Prod.mk.injEq] at popped
      obtain ⟨rfl, rfl⟩ := popped
      have kept : Keyed cmp key (item :: front) := by
        intro x hx y hy
        refine keyed x ?_ y ?_ <;>
          simp_all [List.concat_eq_append, or_comm]
      have body (i : Nat) (hi : 0 < i) (within : i ≤ front.length) :
          level key (item :: front) i = level key (head :: front.concat item) i := by
        obtain ⟨j, rfl⟩ := Nat.exists_eq_add_of_lt hi
        simp [level, List.getElem?_append_left (show j < front.length by omega)]
      refine siftDownToBottom_ordered _ 0 _ (by simp) kept
        ⟨fun i hi _ _ notRoot => ?_, fun _ _ _ absurd => by omega⟩
      by_cases within : i ≤ front.length
      · rw [body i hi within, body (parent i) (by omega) (by unfold parent; omega)]
        exact ordered i hi
      · rw [level_ge (by simp; omega)]
        exact bot_le

theorem rebuild_ordered {cmp : α → α → Ordering} {key : α → κ} (n : Nat) (data : List α)
    (keyed : Keyed cmp key data)
    (upper : ∀ i, 0 < i → n ≤ parent i → level key data i ≤ level key data (parent i)) :
    Ordered key (rebuild cmp n data) := by
  induction n generalizing data with
  | zero => exact fun i hi => upper i hi (Nat.zero_le _)
  | succ n ih =>
    refine ih _ (keyed.perm (siftDown_perm cmp _ _ _)) ?_
    refine siftDown_sunk data.length n n data (by omega) le_rfl keyed
      ⟨fun i hi reach _ notChild => upper i hi (by omega), fun i hi _ positive reach => ?_⟩ ?_
    · unfold parent at reach
      omega
    · intro positive reach
      unfold parent at reach
      omega

theorem ofList_ordered {cmp : α → α → Ordering} {key : α → κ} {data : List α}
    (keyed : Keyed cmp key data) : Ordered key (ofList cmp data) := by
  refine rebuild_ordered _ data keyed (fun i hi reach => ?_)
  have : data.length ≤ i := by unfold parent at reach; omega
  rw [level_ge this]
  exact bot_le

end Order

end MaxHeap
