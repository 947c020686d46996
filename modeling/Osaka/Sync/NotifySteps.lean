import Osaka.Sync.Notify

set_option autoImplicit false

namespace Osaka.Sync.Notify

open Transitions

variable {W : Type} {s t u : Notify W} {i : Nat} {waker : Option W} {wakers : List W}

section Words

theorem getState_setState (data state : BitVec 64) : getState (setState data state) = getState state :=
  PackedWord.low_setLow (by decide) data state

theorem count_setState (data state : BitVec 64) :
    PackedWord.count 2 (setState data state) = PackedWord.count 2 data :=
  PackedWord.count_setLow (by decide) data state

theorem getNum_toNat (data : BitVec 64) : (getNumNotifyWaitersCalls data).toNat = PackedWord.count 2 data := by
  have same : data &&& NOTIFY_WAITERS_CALLS_MASK = setState data EMPTY := by
    have none : EMPTY &&& STATE_MASK = 0#64 := by decide
    rw [setState, none, BitVec.or_zero]
  rw [getNumNotifyWaitersCalls, same, BitVec.toNat_ushiftRight, Nat.shiftRight_eq_div_pow]
  exact count_setState data EMPTY

theorem shifted_toNat (data : BitVec 64) : (data >>> NOTIFY_WAITERS_SHIFT).toNat = PackedWord.count 2 data := by
  rw [BitVec.toNat_ushiftRight, Nat.shiftRight_eq_div_pow]
  rfl

theorem eq_setState (data state : BitVec 64) : data = setState data state ↔ getState data = getState state := by
  constructor
  · intro same
    rw [← getState_setState data state, ← same]
  · intro same
    apply PackedWord.eq_of_low_count (k := 2) (by decide)
    · exact same.trans (getState_setState data state).symm
    · exact (count_setState data state).symm

theorem getState_inc (data : BitVec 64) : getState (incNumNotifyWaitersCalls data) = getState data :=
  PackedWord.low_add (k := 2) (by decide) 1 data

theorem count_inc {data : BitVec 64} (room : PackedWord.count 2 data + 1 < 2 ^ 62) :
    PackedWord.count 2 (incNumNotifyWaitersCalls data) = PackedWord.count 2 data + 1 := by
  apply PackedWord.count_add (k := 2) (n := 1)
  unfold PackedWord.count at room
  omega

end Words

section Invariant

def permit (s : Notify W) : Bool := getState s.state == NOTIFIED

/-- What the state is when these wait, or else a permit is stored or not. -/
def flag (waiters : List Nat) (permit : Bool) : BitVec 64 :=
  if waiters = [] then if permit then NOTIFIED else EMPTY else WAITING

structure WellFormed (s : Notify W) : Prop where
  word : getState s.state = flag s.waiters s.permit
  nodup : s.waiters.Nodup
  listed : ∀ i ∈ s.waiters, (s.notifieds i).dropped = false ∧ (s.notifieds i).state = .waiting ∧
    (s.notifieds i).waiter.notified = none
  unlisted : ∀ i, (s.notifieds i).dropped = false → (s.notifieds i).state = .waiting →
    (s.notifieds i).waiter.notified = none → i ∈ s.waiters
  fresh : ∀ i, (s.notifieds i).state ≠ .waiting → (s.notifieds i).waiter = ⟨none, none⟩
  unmade : ∀ i, s.created ≤ i → (s.notifieds i).dropped = true

@[simp]
theorem getState_flag (waiters : List Nat) (permit : Bool) : getState (flag waiters permit) = flag waiters permit := by
  unfold flag
  split
  next => cases permit <;> decide
  next => decide

theorem flag_nil (waiters : List Nat) (permit : Bool) :
    flag waiters permit = EMPTY ∨ flag waiters permit = NOTIFIED ↔ waiters = [] := by
  unfold flag
  split
  next => cases permit <;> simp [*]
  next some =>
    simp only [some, iff_false]
    decide

theorem flag_waiting (waiters : List Nat) (permit : Bool) : flag waiters permit = WAITING ↔ waiters ≠ [] := by
  unfold flag
  split
  next none =>
    simp only [none, ne_eq, not_true, iff_false]
    cases permit <;> decide
  next some => simp [some]

theorem flag_notified (waiters : List Nat) (permit : Bool) :
    flag waiters permit = NOTIFIED ↔ waiters = [] ∧ permit = true := by
  unfold flag
  split
  next none =>
    simp only [none, true_and]
    cases permit <;> decide
  next some =>
    simp only [some, false_and, iff_false]
    decide

theorem WellFormed.nil (wf : s.WellFormed) :
    getState s.state = EMPTY ∨ getState s.state = NOTIFIED ↔ s.waiters = [] := by
  rw [wf.word, flag_nil]

theorem WellFormed.waiting (wf : s.WellFormed) : getState s.state = WAITING ↔ s.waiters ≠ [] := by
  rw [wf.word, flag_waiting]

theorem permit_iff (s : Notify W) : s.permit = true ↔ getState s.state = NOTIFIED := by
  simp [permit]

theorem WellFormed.permit_nil (wf : s.WellFormed) (stored : s.permit = true) : s.waiters = [] :=
  wf.nil.mp (.inr ((permit_iff s).mp stored))

theorem WellFormed.permit_and {list : List Nat} (wf : s.WellFormed) (part : list ⊆ s.waiters) :
    (list.isEmpty && s.permit) = s.permit := by
  cases stored : s.permit with
  | true =>
    rw [wf.permit_nil stored, List.subset_nil] at part
    simp [part]
  | false => simp

theorem WellFormed.permit_waits (wf : s.WellFormed) (waits : s.waiters ≠ []) : s.permit = false := by
  by_contra stored
  exact waits (wf.permit_nil (by simpa using stored))

structure Changed (s : Notify W) (table : Nat → Notified W) (list : List Nat) (stored : Bool)
    (t : Notify W) : Prop where
  notifieds : t.notifieds = table
  waiters : t.waiters = list
  created : t.created = s.created
  state : getState t.state = flag list stored
  calls : PackedWord.count 2 t.state = PackedWord.count 2 s.state

variable {table : Nat → Notified W} {list : List Nat} {stored : Bool}

theorem Changed.permit (changed : Changed s table list stored t) : t.permit = (list.isEmpty && stored) := by
  rw [Bool.eq_iff_iff, permit_iff, changed.state, flag_notified]
  simp

theorem Changed.word (changed : Changed s table list stored t) : getState t.state = flag t.waiters t.permit := by
  rw [changed.state, changed.waiters, changed.permit]
  cases list <;> simp [flag]

end Invariant

section Giving

inductive Given (s t : Notify W) : List W → Prop where
  | stored : s.waiters = [] → Changed s s.notifieds [] true t → Given s t []
  | handed {i : Nat} {rest : List Nat} : s.waiters = i :: rest →
      Changed s (Function.update s.notifieds i { s.notifieds i with waiter := ⟨none, some .oneWaiter⟩ }) rest false t →
      Given s t (s.notifieds i).waiter.waker.toList

theorem notifyLocked_given (word : getState s.state = flag s.waiters s.permit)
    (unnotified : ∀ i ∈ s.waiters, (s.notifieds i).waiter.notified = none) :
    ∃ t wakers, s.notifyLocked s.state = .ok (t, wakers) ∧ Given s t wakers := by
  have none : getState s.state = EMPTY ∨ getState s.state = NOTIFIED ↔ s.waiters = [] := by rw [word, flag_nil]
  have waiting : getState s.state = WAITING ↔ s.waiters ≠ [] := by rw [word, flag_waiting]
  unfold notifyLocked
  cases list : s.waiters with
  | nil =>
    rw [if_pos (none.mpr list), if_pos rfl]
    refine ⟨_, _, rfl, .stored list ⟨rfl, rfl, rfl, ?_, ?_⟩⟩
    · exact getState_setState _ _
    · exact count_setState _ _
  | cons i rest =>
    rw [if_neg (by rw [none, list]; simp), if_pos (by rw [waiting, list]; simp)]
    have unset := unnotified i (by simp [list])
    simp only [unset, Option.isSome_none, Bool.false_eq_true, if_false]
    refine ⟨_, _, rfl, .handed list ⟨rfl, rfl, rfl, ?_, ?_⟩⟩
    · cases rest with
      | nil => exact getState_setState _ _
      | cons j rest =>
        change getState s.state = _
        rw [waiting.mpr (by simp [list])]
        rfl
    · change PackedWord.count 2 (if rest = [] then _ else _) = _
      split
      next => exact count_setState _ _
      next => rfl

theorem notifyOne_given (wf : s.WellFormed) : ∃ t wakers, s.notifyOne = .ok (t, wakers) ∧ Given s t wakers := by
  obtain ⟨t, wakers, ran, given⟩ := notifyLocked_given wf.word fun i member => (wf.listed i member).2.2
  unfold notifyOne
  by_cases none : getState s.state = EMPTY ∨ getState s.state = NOTIFIED
  · rw [if_pos none]
    refine ⟨_, _, rfl, .stored (wf.nil.mp none) ⟨rfl, wf.nil.mp none, rfl, ?_, ?_⟩⟩
    · exact getState_setState _ _
    · exact count_setState _ _
  · rw [if_neg none]
    exact ⟨t, wakers, ran, given⟩

end Giving

section Polling

inductive Polled (s t : Notify W) (i : Nat) (waker : Option W) : Bool → Prop where
  | done : (s.notifieds i).state = .done → t = s → Polled s t i waker true
  | permit {calls : BitVec 64} : (s.notifieds i).state = .init calls → s.permit = true →
      Changed s (Function.update s.notifieds i { s.notifieds i with state := .done }) [] false t →
      Polled s t i waker true
  | passed {calls : BitVec 64} : (s.notifieds i).state = .init calls → s.permit = false →
      getNumNotifyWaitersCalls s.state ≠ calls →
      Changed s (Function.update s.notifieds i { s.notifieds i with state := .done }) s.waiters s.permit t →
      Polled s t i waker true
  | joined {calls : BitVec 64} : (s.notifieds i).state = .init calls → s.permit = false →
      getNumNotifyWaitersCalls s.state = calls → i ∉ s.waiters →
      Changed s (Function.update s.notifieds i { s.notifieds i with state := .waiting, waiter := ⟨waker, none⟩ })
        (s.waiters ++ [i]) false t →
      Polled s t i waker false
  | received {kind : NotificationType} : (s.notifieds i).state = .waiting →
      (s.notifieds i).waiter.notified = some kind →
      Changed s (Function.update s.notifieds i { s.notifieds i with state := .done, waiter := ⟨none, none⟩ })
        s.waiters s.permit t →
      Polled s t i waker true
  | waits : (s.notifieds i).state = .waiting → i ∈ s.waiters →
      Changed s
        (Function.update s.notifieds i
          { s.notifieds i with waiter := ⟨waker.or (s.notifieds i).waiter.waker, none⟩ })
        s.waiters s.permit t →
      Polled s t i waker false

theorem update_eq [Wakers W] (waiter : Waiter W) (waker : Option W) :
    waiter.update waker = { waiter with waker := waker.or waiter.waker } := by
  cases waker with
  | none => rfl
  | some given =>
    unfold Waiter.update
    cases stored : waiter.waker with
    | none => rfl
    | some current =>
      dsimp only
      split
      next same =>
        obtain rfl := Wakers.same current given same
        cases waiter
        simp_all
      next => rfl

theorem enlist_ok (unlisted : i ∉ s.waiters) (waiter : (s.notifieds i).waiter = ⟨none, none⟩) :
    s.enlist i waker = .ok (false,
      { s.setNotified i { s.notifieds i with state := .waiting, waiter := ⟨waker, none⟩ } with
        waiters := s.waiters ++ [i] }) := by
  have last : s.waiters.getLast? ≠ some i := fun last => unlisted (List.mem_of_getLast? last)
  unfold enlist
  rw [if_neg last]
  cases waker <;> simp [waiter]

variable [Wakers W]

theorem pollNotified_polled (wf : s.WellFormed) (alive : (s.notifieds i).dropped = false) (waker : Option W) :
    ∃ ready t, s.pollNotified i waker = .ok (ready, t) ∧ Polled s t i waker ready := by
  unfold pollNotified
  dsimp only
  cases state : (s.notifieds i).state with
  | done => exact ⟨true, s, rfl, .done state rfl⟩
  | waiting =>
    cases notified : (s.notifieds i).waiter.notified with
    | some kind =>
      simp only [Option.isSome_some, if_true]
      exact ⟨true, _, rfl, .received state notified ⟨rfl, rfl, rfl, wf.word, rfl⟩⟩
    | none =>
      have listed := wf.unlisted i alive state notified
      simp only [Option.isSome_none, Bool.false_eq_true, if_false]
      refine ⟨false, _, rfl, .waits state listed ⟨?_, rfl, rfl, wf.word, rfl⟩⟩
      simp only [setWaiter, setNotified, update_eq, notified, state]
  | init calls =>
    have unlisted : i ∉ s.waiters := by
      intro listed
      have waiting := (wf.listed i listed).2.1
      simp [state] at waiting
    have waiter := wf.fresh i (by simp [state])
    have self : s.state = setState s.state NOTIFIED ↔ s.permit = true := by
      rw [eq_setState, permit_iff]
      rfl
    dsimp only
    by_cases stored : s.permit = true
    · rw [if_pos (self.mpr stored)]
      refine ⟨true, _, rfl, .permit state stored ⟨rfl, wf.permit_nil stored, rfl, ?_, ?_⟩⟩
      · exact getState_setState _ _
      · exact count_setState _ _
    · have none : s.permit = false := by simpa using stored
      have unset : getState s.state ≠ NOTIFIED := fun notified => stored ((permit_iff s).mpr notified)
      rw [if_neg (fun same => stored (self.mp same))]
      by_cases same : getNumNotifyWaitersCalls s.state = calls
      · rw [if_neg (not_not.mpr same)]
        by_cases waits : s.waiters = []
        · have empty : getState s.state = EMPTY := (wf.nil.mpr waits).resolve_right unset
          rw [if_pos empty, enlist_ok (s := { s with state := setState s.state WAITING }) unlisted waiter]
          refine ⟨false, _, rfl, .joined state none same unlisted ⟨rfl, rfl, rfl, ?_, ?_⟩⟩
          · rw [waits]
            exact getState_setState _ _
          · exact count_setState _ _
        · have waiting := wf.waiting.mpr waits
          rw [if_neg (by rw [waiting]; decide), if_pos waiting, enlist_ok unlisted waiter]
          refine ⟨false, _, rfl, .joined state none same unlisted ⟨rfl, rfl, rfl, ?_, rfl⟩⟩
          change getState s.state = _
          rw [waiting, eq_comm, flag_waiting]
          simp
      · rw [if_pos same]
        exact ⟨true, _, rfl, .passed state none same ⟨rfl, rfl, rfl, wf.word, rfl⟩⟩

end Polling

section Dropping

/-- The Notify once a dropped Notified has left it, before a notification of its own is passed on. -/
def left (s : Notify W) (i : Nat) : Notify W :=
  let waiters := s.waiters.erase i
  { s.setNotified i { s.notifieds i with dropped := true } with
    waiters := waiters
    state := if waiters = [] ∧ getState s.state = WAITING then setState s.state EMPTY else s.state }

theorem left_changed (wf : s.WellFormed) (i : Nat) :
    Changed s (Function.update s.notifieds i { s.notifieds i with dropped := true }) (s.waiters.erase i) s.permit
      (s.left i) := by
  refine ⟨rfl, rfl, rfl, ?_, ?_⟩
  · change getState (if s.waiters.erase i = [] ∧ getState s.state = WAITING then _ else s.state) = _
    by_cases last : s.waiters.erase i = [] ∧ getState s.state = WAITING
    · have none : s.permit = false := by
        by_contra stored
        have notified := (permit_iff s).mp (by simpa using stored)
        rw [last.2] at notified
        exact absurd notified (by decide)
      rw [if_pos last, last.1, none, getState_setState]
      rfl
    · rw [if_neg last, wf.word]
      unfold flag
      by_cases waits : s.waiters = []
      · simp [waits]
      · have more : s.waiters.erase i ≠ [] := fun empty => last ⟨empty, wf.waiting.mpr waits⟩
        rw [if_neg waits, if_neg more]
  · change PackedWord.count 2 (if s.waiters.erase i = [] ∧ getState s.state = WAITING then _ else s.state) = _
    split
    next => exact count_setState _ _
    next => rfl

theorem dropNotified_waiting (waiting : (s.notifieds i).state = .waiting) :
    s.dropNotified i =
      if (s.notifieds i).waiter.notified = some .oneWaiter then (s.left i).notifyLocked (s.left i).state
      else .ok (s.left i, []) := by
  unfold dropNotified
  dsimp only
  rw [if_pos waiting]
  rfl

/-- What dropping a Notified does: a notification of notify_one that it has not seen is passed on. -/
inductive Dropped (s t : Notify W) (i : Nat) : List W → Prop where
  | gone : (s.notifieds i).waiter.notified ≠ some .oneWaiter →
      Changed s (Function.update s.notifieds i { s.notifieds i with dropped := true }) (s.waiters.erase i) s.permit t →
      Dropped s t i []
  | passed {u : Notify W} {wakers : List W} : (s.notifieds i).state = .waiting →
      (s.notifieds i).waiter.notified = some .oneWaiter → i ∉ s.waiters →
      Changed s (Function.update s.notifieds i { s.notifieds i with dropped := true }) s.waiters s.permit u →
      Given u t wakers → Dropped s t i wakers

theorem dropNotified_dropped (wf : s.WellFormed) (i : Nat) :
    ∃ t wakers, s.dropNotified i = .ok (t, wakers) ∧ Dropped s t i wakers := by
  have changed := left_changed wf i
  by_cases waiting : (s.notifieds i).state = .waiting
  · by_cases one : (s.notifieds i).waiter.notified = some .oneWaiter
    · have unlisted : i ∉ s.waiters := by
        intro listed
        have none := (wf.listed i listed).2.2
        rw [one] at none
        simp at none
      have unnotified : ∀ j ∈ (s.left i).waiters, ((s.left i).notifieds j).waiter.notified = none := by
        intro j member
        have listed := List.mem_of_mem_erase member
        have other : j ≠ i := fun same => unlisted (same ▸ listed)
        rw [changed.notifieds, Function.update_of_ne other]
        exact (wf.listed j listed).2.2
      obtain ⟨t, wakers, ran, given⟩ := notifyLocked_given changed.word unnotified
      rw [List.erase_of_not_mem unlisted] at changed
      refine ⟨t, wakers, ?_, .passed waiting one unlisted changed given⟩
      rw [dropNotified_waiting waiting, if_pos one, ran]
    · refine ⟨s.left i, [], ?_, .gone one changed⟩
      rw [dropNotified_waiting waiting, if_neg one]
  · have unlisted : i ∉ s.waiters := fun listed => waiting (wf.listed i listed).2.1
    have unnotified : (s.notifieds i).waiter.notified ≠ some .oneWaiter := by simp [wf.fresh i waiting]
    refine ⟨s.setNotified i { s.notifieds i with dropped := true }, [], ?_, .gone unnotified ?_⟩
    · simp only [dropNotified, if_neg waiting]
    · rw [List.erase_of_not_mem unlisted]
      exact ⟨rfl, rfl, rfl, wf.word, rfl⟩

end Dropping

section Broadcasting

structure Broadcast (s t : Notify W) (wakers : List W) : Prop where
  waiters : t.waiters = []
  created : t.created = s.created
  woken : ∀ j ∈ s.waiters, t.notifieds j = { s.notifieds j with waiter := ⟨none, some .allWaiters⟩ }
  kept : ∀ j, j ∉ s.waiters → t.notifieds j = s.notifieds j
  state : getState t.state = flag [] s.permit
  calls : PackedWord.count 2 t.state = PackedWord.count 2 (incNumNotifyWaitersCalls s.state)
  wakers : wakers = s.waiters.filterMap fun j => (s.notifieds j).waiter.waker

theorem Broadcast.permit (broadcast : Broadcast s t wakers) : t.permit = s.permit := by
  rw [Bool.eq_iff_iff, permit_iff, broadcast.state, flag_notified]
  simp

theorem notifyAll_ok {list : List Nat} (nodup : list.Nodup)
    (unnotified : ∀ j ∈ list, (s.notifieds j).waiter.notified = none) :
    ∃ t, s.notifyAll list = .ok (t, list.filterMap fun j => (s.notifieds j).waiter.waker) ∧ t.waiters = [] ∧
      t.created = s.created ∧
      (∀ j ∈ list, t.notifieds j = { s.notifieds j with waiter := ⟨none, some .allWaiters⟩ }) ∧
      ∀ j, j ∉ list → t.notifieds j = s.notifieds j := by
  induction list generalizing s with
  | nil => exact ⟨_, rfl, rfl, rfl, by simp, fun _ _ => rfl⟩
  | cons i rest ih =>
    obtain ⟨fresh, nodup⟩ := List.nodup_cons.mp nodup
    let u := s.setWaiter i ⟨none, some .allWaiters⟩
    have others (j : Nat) (other : j ≠ i) : u.notifieds j = s.notifieds j := Function.update_of_ne other _ _
    have apart (j : Nat) (member : j ∈ rest) : j ≠ i := fun same => fresh (same ▸ member)
    have unset := unnotified i (by simp)
    obtain ⟨t, ran, waiters, created, woken, kept⟩ := ih (s := u) nodup (by
      intro j member
      rw [others j (apart j member)]
      exact unnotified j (List.mem_cons_of_mem i member))
    refine ⟨t, ?_, waiters, created, ?_, ?_⟩
    · have same : rest.filterMap (fun j => (u.notifieds j).waiter.waker) =
          rest.filterMap fun j => (s.notifieds j).waiter.waker := by
        apply List.filterMap_congr
        intro j member
        rw [others j (apart j member)]
      simp only [notifyAll, unset, Option.isSome_none, Bool.false_eq_true, if_false]
      change (u.notifyAll rest).map _ = _
      rw [ran, same]
      cases waker : (s.notifieds i).waiter.waker <;> simp [Except.map, waker]
    · intro j member
      rcases List.mem_cons.mp member with rfl | later
      · rw [kept j fresh]
        exact Function.update_self ..
      · rw [woken j later, others j (apart j later)]
    · intro j outside
      rw [List.mem_cons, not_or] at outside
      rw [kept j outside.2, others j outside.1]

theorem notifyWaiters_broadcast (wf : s.WellFormed) :
    ∃ t wakers, s.notifyWaiters = .ok (t, wakers) ∧ Broadcast s t wakers := by
  unfold notifyWaiters
  by_cases none : s.waiters = []
  · rw [if_pos (wf.nil.mpr none)]
    refine ⟨_, _, rfl, none, rfl, by simp [none], fun _ _ => rfl, ?_, rfl, by simp [none]⟩
    rw [getState_inc, wf.word, none]
  · obtain ⟨t, ran, waiters, created, woken, kept⟩ := notifyAll_ok wf.nodup fun j member => (wf.listed j member).2.2
    rw [if_neg (fun empty => none (wf.nil.mp empty)), ran]
    refine ⟨_, _, rfl, waiters, created, woken, kept, ?_, count_setState _ _, rfl⟩
    rw [wf.permit_waits none]
    exact getState_setState _ _

end Broadcasting

section Preserving

variable {ready : Bool}

theorem new_wellFormed : (new : Notify W).WellFormed := by
  constructor
  · change getState 0#64 = flag [] (getState 0#64 == NOTIFIED)
    decide
  all_goals simp [new]

theorem Changed.wellFormed {n : Notified W} {list : List Nat} {stored : Bool} (wf : s.WellFormed)
    (changed : Changed s (Function.update s.notifieds i n) list stored t) (nodup : list.Nodup)
    (others : ∀ j, j ≠ i → (j ∈ list ↔ j ∈ s.waiters))
    (own : n.dropped = false → n.state = .waiting → (n.waiter.notified = none ↔ i ∈ list))
    (listed : i ∈ list → n.dropped = false ∧ n.state = .waiting)
    (fresh : n.state ≠ .waiting → n.waiter = ⟨none, none⟩) (unmade : s.created ≤ i → n.dropped = true) :
    t.WellFormed := by
  constructor
  · exact changed.word
  · rw [changed.waiters]
    exact nodup
  all_goals
    rw [changed.notifieds]
    try rw [changed.waiters]
    try rw [changed.created]
    intro j
    by_cases same : j = i
    · subst same
      rw [Function.update_self]
      grind -linarith
    · rw [Function.update_of_ne same]
      have before := others j same
      have listed' := wf.listed j
      have unlisted' := wf.unlisted j
      have fresh' := wf.fresh j
      have unmade' := wf.unmade j
      grind -linarith

theorem WellFormed.made (wf : s.WellFormed) (alive : (s.notifieds i).dropped = false) : i < s.created := by
  by_contra unmade
  rw [wf.unmade i (by omega)] at alive
  exact absurd alive (by decide)

theorem Given.wellFormed (wf : s.WellFormed) (given : Given s t wakers) : t.WellFormed := by
  cases given with
  | stored none changed =>
    have same : Function.update s.notifieds s.created (s.notifieds s.created) = s.notifieds := Function.update_eq_self ..
    rw [← same] at changed
    have unmade := wf.unmade s.created (le_refl _)
    apply changed.wellFormed wf List.nodup_nil
    · simp [none]
    · intro alive
      rw [unmade] at alive
      exact absurd alive (by decide)
    · simp
    · exact wf.fresh _
    · exact fun _ => unmade
  | @handed i rest list changed =>
    obtain ⟨alive, waiting, _⟩ := wf.listed i (by simp [list])
    have nodup := wf.nodup
    rw [list, List.nodup_cons] at nodup
    apply changed.wellFormed wf nodup.2
    · intro j other
      simp [list, other]
    · simp [nodup.1]
    · intro listed
      exact absurd listed nodup.1
    · intro done
      exact absurd waiting done
    · intro unmade
      exact wf.unmade i unmade

theorem Polled.wellFormed (wf : s.WellFormed) (alive : (s.notifieds i).dropped = false)
    (polled : Polled s t i waker ready) : t.WellFormed := by
  have made : ∀ unmade : s.created ≤ i, (s.notifieds i).dropped = true := wf.unmade i
  have listed := wf.listed i
  have fresh := wf.fresh i
  cases polled with
  | done state same =>
    rw [same]
    exact wf
  | permit state stored changed =>
    have none := wf.permit_nil stored
    apply changed.wellFormed wf List.nodup_nil
    · simp [none]
    · simp
    · simp
    · intro _
      exact fresh (by simp [state])
    · exact made
  | passed state stored passed changed =>
    apply changed.wellFormed wf wf.nodup (fun _ _ => Iff.rfl)
    · simp
    · intro member
      have waiting := (listed member).2.1
      simp [state] at waiting
    · intro _
      exact fresh (by simp [state])
    · exact made
  | joined state stored same unlisted changed =>
    apply changed.wellFormed wf
    · exact List.nodup_append.mpr ⟨wf.nodup, by simp, by grind -linarith⟩
    · intro j other
      simp [other]
    · simp
    · exact fun _ => ⟨alive, rfl⟩
    · simp
    · exact made
  | received state notified changed =>
    apply changed.wellFormed wf wf.nodup (fun _ _ => Iff.rfl)
    · simp
    · intro member
      have unset := (listed member).2.2
      simp [notified] at unset
    · simp
    · exact made
  | waits state member changed =>
    apply changed.wellFormed wf wf.nodup (fun _ _ => Iff.rfl)
    · simp [member]
    · exact fun _ => ⟨alive, state⟩
    · intro done
      exact absurd state done
    · exact made

theorem dropped_wellFormed (wf : s.WellFormed) {u : Notify W} {stored : Bool}
    (changed : Changed s (Function.update s.notifieds i { s.notifieds i with dropped := true }) (s.waiters.erase i)
      stored u) : u.WellFormed := by
  apply changed.wellFormed wf (wf.nodup.erase i)
  · intro j other
    exact List.mem_erase_of_ne other
  · simp
  · intro member
    exact absurd member wf.nodup.not_mem_erase
  · exact wf.fresh i
  · simp

theorem Dropped.wellFormed (wf : s.WellFormed) (dropped : Dropped s t i wakers) : t.WellFormed := by
  cases dropped with
  | gone unnotified changed => exact dropped_wellFormed wf changed
  | passed waiting one unlisted changed given =>
    rw [← List.erase_of_not_mem unlisted] at changed
    exact given.wellFormed (dropped_wellFormed wf changed)

theorem Broadcast.wellFormed (wf : s.WellFormed) (broadcast : Broadcast s t wakers) : t.WellFormed := by
  have cases (j : Nat) : j ∈ s.waiters ∧ t.notifieds j = { s.notifieds j with waiter := ⟨none, some .allWaiters⟩ } ∨
      j ∉ s.waiters ∧ t.notifieds j = s.notifieds j := by
    by_cases member : j ∈ s.waiters
    · exact .inl ⟨member, broadcast.woken j member⟩
    · exact .inr ⟨member, broadcast.kept j member⟩
  constructor
  · rw [broadcast.state, broadcast.waiters, broadcast.permit]
  · rw [broadcast.waiters]
    exact List.nodup_nil
  · simp [broadcast.waiters]
  · intro j alive state unset
    rcases cases j with ⟨_, woken⟩ | ⟨unlisted, kept⟩
    · rw [woken] at unset
      simp at unset
    · rw [kept] at alive state unset
      exact absurd (wf.unlisted j alive state unset) unlisted
  · intro j state
    rcases cases j with ⟨member, woken⟩ | ⟨_, kept⟩
    · rw [woken] at state
      exact absurd (wf.listed j member).2.1 state
    · rw [kept] at state ⊢
      exact wf.fresh j state
  · intro j unmade
    rw [broadcast.created] at unmade
    rcases cases j with ⟨_, woken⟩ | ⟨_, kept⟩
    · rw [woken]
      exact wf.unmade j unmade
    · rw [kept]
      exact wf.unmade j unmade

theorem notified_wellFormed (wf : s.WellFormed) : s.notified.WellFormed := by
  have unlisted : s.created ∉ s.waiters := by
    intro member
    have alive := (wf.listed s.created member).1
    rw [wf.unmade s.created (le_refl _)] at alive
    exact absurd alive (by decide)
  have table (j : Nat) : s.notified.notifieds j =
      if j = s.created then ⟨.init (s.state >>> NOTIFY_WAITERS_SHIFT), ⟨none, none⟩, false⟩ else s.notifieds j :=
    Function.update_apply ..
  constructor
  · exact wf.word
  · exact wf.nodup
  · intro j member
    have other : j ≠ s.created := fun same => unlisted (same ▸ member)
    rw [table, if_neg other]
    exact wf.listed j member
  · intro j
    rw [table]
    split
    next => simp
    next => exact wf.unlisted j
  · intro j
    rw [table]
    split
    next => simp
    next => exact wf.fresh j
  · intro j unmade
    have beyond : s.created + 1 ≤ j := unmade
    rw [table, if_neg (by omega)]
    exact wf.unmade j (by omega)

end Preserving

end Osaka.Sync.Notify
