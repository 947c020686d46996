import Osaka.Sync.NotifyRuns

set_option autoImplicit false

namespace Osaka.Sync

open Transitions

variable {W : Type}

/-- A notification of notify_one is in this node, and has not been seen. -/
def Notified.holding (n : Notified W) : Bool := !n.dropped && n.waiter.notified == some .oneWaiter

namespace Notify

variable {s t : Notify W} {a : NotifyAction W} {i : Nat} {wakers : List W}

section Holding

def holders (s : Notify W) : Nat := ∑ i ∈ Finset.range s.created, (s.notifieds i).holding.toNat

theorem holders_update {n : Notified W} (table : t.notifieds = Function.update s.notifieds i n)
    (created : t.created = s.created) (made : i < s.created) :
    t.holders + (s.notifieds i).holding.toNat = s.holders + n.holding.toNat := by
  have member : i ∈ Finset.range s.created := Finset.mem_range.mpr made
  have before := Finset.sum_erase_add _ (fun j => (s.notifieds j).holding.toNat) member
  have after := Finset.sum_erase_add _ (fun j => (t.notifieds j).holding.toNat) member
  have same : ∑ j ∈ (Finset.range s.created).erase i, (t.notifieds j).holding.toNat =
      ∑ j ∈ (Finset.range s.created).erase i, (s.notifieds j).holding.toNat := by
    apply Finset.sum_congr rfl
    intro j inside
    rw [table, Function.update_of_ne (Finset.ne_of_mem_erase inside)]
  simp only [table, Function.update_self] at after
  unfold holders
  rw [created]
  simp only [table] at same ⊢
  omega

theorem holders_congr (created : t.created = s.created)
    (same : ∀ j < s.created, (t.notifieds j).holding = (s.notifieds j).holding) : t.holders = s.holders := by
  unfold holders
  rw [created]
  apply Finset.sum_congr rfl
  intro j inside
  rw [same j (Finset.mem_range.mp inside)]

theorem WellFormed.holding_waiting (wf : s.WellFormed) (other : (s.notifieds i).state ≠ .waiting) :
    (s.notifieds i).holding = false := by
  simp [Notified.holding, wf.fresh i other]

theorem WellFormed.holding_listed (wf : s.WellFormed) (listed : i ∈ s.waiters) :
    (s.notifieds i).holding = false := by
  simp [Notified.holding, (wf.listed i listed).2.2]

/-- A notification that is given is stored, or held, or found a permit already stored. -/
theorem Given.books (wf : s.WellFormed) (given : Given s t wakers) :
    t.permit.toNat + t.holders + s.permit.toNat = s.permit.toNat + s.holders + 1 := by
  cases given with
  | stored none changed =>
    have same : t.holders = s.holders := holders_congr changed.created fun j _ => by rw [changed.notifieds]
    have stored : t.permit = true := by simp [changed.permit]
    rw [same, stored, Bool.toNat_true]
    omega
  | @handed i rest list changed =>
    have listed : i ∈ s.waiters := by simp [list]
    have alive := (wf.listed i listed).1
    have moved := holders_update changed.notifieds changed.created (wf.made alive)
    have none := wf.permit_waits (by simp [list])
    have none' : t.permit = false := by simp [changed.permit]
    rw [wf.holding_listed listed] at moved
    simp only [Notified.holding, alive] at moved
    simp only [none, none']
    simp at moved ⊢
    omega

end Holding

section Books

/-- What has become of the calls of notify_one, and the futures in the order in which they were listed. -/
structure Ledger where
  calls : Nat
  -- by a Notified that they have completed
  received : Nat
  -- with a permit that was already stored
  merged : Nat
  joined : List Nat

def Ledger.observe (l : Ledger) (s : Notify W) (a : NotifyAction W) (t : Notify W) : Ledger :=
  match a with
  | .pollNotified i _ =>
    { l with
      received := l.received + (s.permit && !t.permit || (s.notifieds i).holding).toNat
      joined := l.joined ++ t.waiters.filter fun j => j ∉ s.waiters }
  | .dropNotified i => { l with merged := l.merged + ((s.notifieds i).holding && s.permit).toNat }
  | .notifyOne => { l with calls := l.calls + 1, merged := l.merged + s.permit.toNat }
  | .notified | .notifyWaiters => l

def Balanced (s : Notify W) (l : Ledger) : Prop := l.calls = l.received + l.merged + s.permit.toNat + s.holders

theorem Polled.balanced {l : Ledger} {waker : Option W} {ready : Bool} (wf : s.WellFormed)
    (alive : (s.notifieds i).dropped = false) (polled : Polled s t i waker ready) (balanced : Balanced s l) :
    Balanced t (l.observe s (.pollNotified i waker) t) := by
  have made := wf.made alive
  have same (kept : t.permit = s.permit) : (s.permit && !t.permit) = false := by
    rw [kept]
    cases s.permit <;> rfl
  have stays {table : Nat → Notified W} (changed : Changed s table s.waiters s.permit t) : t.permit = s.permit := by
    rw [changed.permit, wf.permit_and (List.Subset.refl _)]
  unfold Balanced at balanced ⊢
  simp only [Ledger.observe]
  cases polled with
  | done state kept =>
    rw [kept, wf.holding_waiting (by simp [state])]
    simpa using balanced
  | permit state stored changed =>
    have unset := wf.holding_waiting (i := i) (by simp [state])
    have moved := holders_update changed.notifieds changed.created made
    have none : t.permit = false := by simp [changed.permit]
    rw [unset] at moved ⊢
    rw [stored] at balanced ⊢
    rw [none]
    simp [Notified.holding, wf.fresh i (by simp [state])] at moved balanced ⊢
    omega
  | passed state stored passed changed =>
    have unset := wf.holding_waiting (i := i) (by simp [state])
    have moved := holders_update changed.notifieds changed.created made
    rw [unset] at moved
    rw [same (stays changed), unset, stays changed]
    simp [Notified.holding, wf.fresh i (by simp [state])] at moved ⊢
    omega
  | joined state stored same' unlisted changed =>
    have unset := wf.holding_waiting (i := i) (by simp [state])
    have moved := holders_update changed.notifieds changed.created made
    have none : t.permit = false := by simp [changed.permit]
    rw [unset] at moved ⊢
    rw [stored] at balanced ⊢
    rw [none]
    simp [Notified.holding] at moved balanced ⊢
    omega
  | @received kind state notified changed =>
    have moved := holders_update changed.notifieds changed.created made
    rw [same (stays changed), stays changed]
    cases kind <;> simp [Notified.holding, alive, notified] at moved ⊢ <;> omega
  | waits state member changed =>
    have unset := wf.holding_listed member
    have moved := holders_update changed.notifieds changed.created made
    rw [unset] at moved
    rw [same (stays changed), unset, stays changed]
    simp [Notified.holding] at moved ⊢
    omega

theorem Dropped.balanced {l : Ledger} (wf : s.WellFormed) (alive : (s.notifieds i).dropped = false)
    (dropped : Dropped s t i wakers) (balanced : Balanced s l) :
    Balanced t (l.observe s (.dropNotified i) t) := by
  have made := wf.made alive
  unfold Balanced at balanced ⊢
  simp only [Ledger.observe]
  cases dropped with
  | gone unnotified changed =>
    have unset : (s.notifieds i).holding = false := by simp [Notified.holding, unnotified]
    have moved := holders_update changed.notifieds changed.created made
    rw [unset] at moved
    have same : t.permit = s.permit := by
      rw [changed.permit, wf.permit_and (List.erase_subset ..)]
    rw [unset, same]
    simp [Notified.holding] at moved ⊢
    omega
  | @passed u wakers waiting one unlisted changed given =>
    have moved := holders_update changed.notifieds changed.created made
    rw [← List.erase_of_not_mem unlisted] at changed
    have books := given.books (dropped_wellFormed wf changed)
    have same : u.permit = s.permit := by
      rw [changed.permit, wf.permit_and (List.erase_subset ..)]
    rw [same] at books
    simp only [Notified.holding, alive, one] at moved ⊢
    simp at moved ⊢
    omega

theorem Performed.balanced {l : Ledger} {answer : Option Bool} (wf : s.WellFormed)
    (performed : Performed s t a answer wakers) (balanced : Balanced s l) : Balanced t (l.observe s a t) := by
  cases performed with
  | notified same =>
    have holders : t.holders = s.holders := by
      have kept : ∀ j ∈ Finset.range s.created, (t.notifieds j).holding.toNat = (s.notifieds j).holding.toNat := by
        intro j inside
        have other : j ≠ s.created := (Finset.mem_range.mp inside).ne
        rw [same]
        change (Function.update s.notifieds s.created _ j).holding.toNat = _
        rw [Function.update_of_ne other]
      have new : (t.notifieds s.created).holding = false := by
        rw [same]
        change (Function.update s.notifieds s.created _ s.created).holding = false
        rw [Function.update_self]
        rfl
      have one : t.created = s.created + 1 := by rw [same]; rfl
      unfold Notify.holders
      rw [one, Finset.sum_range_succ, new, Finset.sum_congr rfl kept]
      rfl
    have permit : t.permit = s.permit := by rw [same]; rfl
    rw [Balanced, holders, permit]
    exact balanced
  | polled alive polled => exact polled.balanced wf alive balanced
  | dropped alive dropped => exact dropped.balanced wf alive balanced
  | given given =>
    have books := given.books wf
    unfold Balanced at balanced ⊢
    simp only [Ledger.observe]
    omega
  | broadcast broadcast =>
    have holders : t.holders = s.holders := by
      apply holders_congr broadcast.created
      intro j _
      by_cases member : j ∈ s.waiters
      · rw [broadcast.woken j member, wf.holding_listed member]
        simp [Notified.holding]
      · rw [broadcast.kept j member]
    rw [Balanced, holders, broadcast.permit]
    exact balanced

end Books

section Queueing

structure Queued (s : Notify W) (l : Ledger) : Prop where
  order : s.waiters.Sublist l.joined
  nodup : l.joined.Nodup
  past : ∀ i ∈ l.joined, i < s.created ∧ ∀ calls, (s.notifieds i).state ≠ .init calls

theorem Given.waiters (given : Given s t wakers) : t.waiters.Sublist s.waiters := by
  cases given with
  | stored none changed =>
    rw [changed.waiters]
    exact List.nil_sublist _
  | handed list changed =>
    rw [changed.waiters, list]
    exact List.sublist_cons_self ..

theorem Performed.started {answer : Option Bool} (wf : s.WellFormed) (performed : Performed s t a answer wakers)
    (made : i < s.created) (started : ∀ calls, (s.notifieds i).state ≠ .init calls) :
    ∀ calls, (t.notifieds i).state ≠ .init calls := by
  by_cases about : s.subject a = some i
  · cases performed with
    | notified same => exact absurd (Option.some.inj about) made.ne'
    | polled alive polled =>
      obtain rfl := Option.some.inj about
      cases polled with
      | done state same =>
        rw [same]
        exact started
      | permit state stored changed | passed state stored passed changed | joined state stored same unlisted changed =>
        exact absurd state (started _)
      | received state notified changed =>
        rw [changed.notifieds, Function.update_self]
        simp
      | waits state member changed =>
        rw [changed.notifieds, Function.update_self]
        exact started
    | dropped alive dropped =>
      obtain rfl := Option.some.inj about
      cases dropped with
      | gone unnotified changed =>
        rw [changed.notifieds, Function.update_self]
        exact started
      | passed waiting one unlisted changed given =>
        have list := changed.waiters
        have self := changed.notifieds
        cases given with
        | stored none changed' =>
          rw [changed'.notifieds, self, Function.update_self]
          exact started
        | handed list' changed' =>
          rw [changed'.notifieds, Function.update_apply]
          split
          next same =>
            rw [← same, self, Function.update_self]
            exact started
          next =>
            rw [self, Function.update_self]
            exact started
    | given given => simp [subject] at about
    | broadcast broadcast => simp [subject] at about
  · cases performed.kept wf about with
    | same kept members =>
      rw [kept]
      exact started
    | notified listed gone notified kind woken =>
      rw [notified]
      exact started

theorem Performed.queued {l : Ledger} {answer : Option Bool} (wf : s.WellFormed)
    (performed : Performed s t a answer wakers) (queued : Queued s l) : Queued t (l.observe s a t) := by
  have past : ∀ i ∈ l.joined, i < t.created ∧ ∀ calls, (t.notifieds i).state ≠ .init calls := by
    intro i member
    obtain ⟨made, started⟩ := queued.past i member
    exact ⟨made.trans_le performed.created, performed.started wf made started⟩
  have shrinks (list : t.waiters.Sublist s.waiters) (same : (l.observe s a t).joined = l.joined) :
      Queued t (l.observe s a t) := by
    constructor
    · rw [same]
      exact list.trans queued.order
    · rw [same]
      exact queued.nodup
    · rw [same]
      exact past
  cases performed with
  | notified same => exact shrinks (by rw [same]; exact List.Sublist.refl _) rfl
  | @polled i waker ready alive polled =>
    have stays (same : t.waiters = s.waiters) : Queued t (l.observe s (.pollNotified i waker) t) := by
      apply shrinks (by rw [same])
      simp [Ledger.observe, same]
    cases polled with
    | done state same => exact stays (by rw [same])
    | permit state stored changed => exact stays (by rw [changed.waiters, wf.permit_nil stored])
    | passed state stored passed changed => exact stays changed.waiters
    | received state notified changed => exact stays changed.waiters
    | waits state member changed => exact stays changed.waiters
    | joined state stored same unlisted changed =>
      have fresh : i ∉ l.joined := fun member => (queued.past i member).2 _ state
      have joined : (l.observe s (.pollNotified i waker) t).joined = l.joined ++ [i] := by
        have old : s.waiters.filter (fun j => j ∉ s.waiters) = [] := by simp
        simp only [Ledger.observe, changed.waiters, List.filter_append, old]
        simp [unlisted]
      constructor
      · rw [joined, changed.waiters]
        exact queued.order.append (List.Sublist.refl _)
      · rw [joined]
        exact List.nodup_append.mpr ⟨queued.nodup, by simp, by grind -linarith⟩
      · intro j member
        rw [joined, List.mem_append, List.mem_singleton] at member
        rcases member with before | rfl
        · exact past j before
        · refine ⟨by rw [changed.created]; exact wf.made alive, ?_⟩
          rw [changed.notifieds, Function.update_self]
          simp
  | dropped alive dropped =>
    cases dropped with
    | gone unnotified changed => exact shrinks (by rw [changed.waiters]; exact List.erase_sublist ..) rfl
    | passed waiting one unlisted changed given =>
      have list := given.waiters
      rw [changed.waiters] at list
      exact shrinks list rfl
  | given given => exact shrinks given.waiters rfl
  | broadcast broadcast => exact shrinks (by rw [broadcast.waiters]; exact List.nil_sublist _) rfl

end Queueing

section Exactness

theorem Performed.consumes {answer : Option Bool} (wf : s.WellFormed) (performed : Performed s t a answer wakers)
    (stored : s.permit = true) (gone : t.permit = false) : ∃ i waker calls, a = .pollNotified i waker ∧
      (s.notifieds i).state = .init calls ∧ (t.notifieds i).state = .done ∧ answer = some true := by
  have none := wf.permit_nil stored
  have kept {list : List Nat} (part : list ⊆ s.waiters) : (list.isEmpty && s.permit) = true := by
    rw [wf.permit_and part, stored]
  have gives {u : Notify W} {wakers : List W} (list : u.waiters = []) (given : Given u t wakers) : False := by
    cases given with
    | stored none changed => simp [changed.permit] at gone
    | handed list' changed => simp [list] at list'
  cases performed with
  | notified same =>
    have same : t.permit = s.permit := by rw [same]; rfl
    rw [same, stored] at gone
    exact absurd gone (by decide)
  | @polled i waker ready alive polled =>
    cases polled with
    | @permit calls state stored changed =>
      refine ⟨i, waker, calls, rfl, state, ?_, rfl⟩
      rw [changed.notifieds, Function.update_self]
    | done state same =>
      rw [same, stored] at gone
      exact absurd gone (by decide)
    | joined state unstored same unlisted changed =>
      rw [stored] at unstored
      exact absurd unstored (by decide)
    | passed state unstored passed changed | received state notified changed | waits state member changed =>
      rw [changed.permit, kept (List.Subset.refl _)] at gone
      exact absurd gone (by decide)
  | dropped alive dropped =>
    cases dropped with
    | gone unnotified changed =>
      rw [changed.permit, kept (List.erase_subset ..)] at gone
      exact absurd gone (by decide)
    | passed waiting one unlisted changed given => exact (gives (by rw [changed.waiters, none]) given).elim
  | given given => exact (gives none given).elim
  | broadcast broadcast =>
    rw [broadcast.permit, stored] at gone
    exact absurd gone (by decide)

variable [Wakers W]

def ledgered (W : Type) [Wakers W] : System (Notify W × Ledger) (NotifyAction W) Fault :=
  (machine W).observed ⟨0, 0, 0, []⟩ Ledger.observe

instance : DecidablePred (ledgered W).within := fun _ => inferInstanceAs (Decidable True)

theorem ledgered_kept {r : Notify W × Ledger} (reached : (ledgered W).Reachable r) :
    Balanced r.1 r.2 ∧ Queued r.1 r.2 := by
  apply System.Reachable.watched (P := fun s l => Balanced s l ∧ Queued s l) _ _ reached
  · rintro _ rfl
    have none : (new : Notify W).permit = false := by
      change (getState 0#64 == NOTIFIED) = false
      decide
    have nobody : (new : Notify W).holders = 0 := rfl
    exact ⟨by rw [Balanced, none, nobody]; rfl, List.Sublist.refl _, List.nodup_nil, by simp⟩
  · intro s l a t before holds _ stepped
    have wf := reachable_wellFormed before
    obtain ⟨answer, wakers, _, performed⟩ := (step_kept wf a).next stepped
    exact ⟨performed.balanced wf holds.1, performed.queued wf holds.2⟩

/-- Each call of notify_one is seen once, or by nobody yet, or has found the permit stored. -/
theorem notify_one_exact {l : Ledger} (reached : (ledgered W).Reachable (s, l)) :
    (getState s.state = WAITING ↔ s.waiters ≠ []) ∧
    (∀ i ∈ s.waiters, (s.notifieds i).waiter.notified = none) ∧
    -- no assert!, unwrap or unreachable!() fails
    (∀ a fault, s.step a ≠ .failed fault) ∧
    -- the list is in the order in which the futures have come into it, once each
    s.waiters.Sublist l.joined ∧ l.joined.Nodup ∧
    -- the notification is handed to the first in the list, or else stored
    (∃ t wakers, s.notifyOne = .ok (t, wakers) ∧ Given s t wakers) ∧
    -- and passed on by a future that is dropped before it has seen it
    (∀ i, (s.notifieds i).holding = true → ∃ u t wakers, s.dropNotified i = .ok (t, wakers) ∧
      Changed s (Function.update s.notifieds i { s.notifieds i with dropped := true }) s.waiters s.permit u ∧
      Given u t wakers) ∧
    -- a stored permit is taken by the first poll of one future, which completes it
    (∀ a answer t wakers, s.allowed a = true → s.perform a = .ok (answer, t, wakers) → s.permit = true →
      t.permit = false → ∃ i waker calls, a = .pollNotified i waker ∧ (s.notifieds i).state = .init calls ∧
        (t.notifieds i).state = .done ∧ answer = some true) ∧
    l.calls = l.received + l.merged + s.permit.toNat +
      ∑ i ∈ Finset.range s.created, (s.notifieds i).holding.toNat := by
  have wf : s.WellFormed := reachable_wellFormed reached.of_observed
  obtain ⟨balanced, queued⟩ := ledgered_kept reached
  refine ⟨wf.waiting, fun i member => (wf.listed i member).2.2, fun a => (step_kept wf a).sound, queued.order,
    queued.nodup, notifyOne_given wf, ?_, ?_, balanced⟩
  · intro i holding
    have one : (s.notifieds i).waiter.notified = some .oneWaiter := by
      simp only [Notified.holding, Bool.and_eq_true, beq_iff_eq] at holding
      exact holding.2
    obtain ⟨t, wakers, ran, dropped⟩ := dropNotified_dropped wf i
    cases dropped with
    | gone unnotified changed => exact absurd one unnotified
    | @passed u wakers waiting one unlisted changed given => exact ⟨u, t, wakers, ran, changed, given⟩
  · intro a answer t wakers allowed ran stored gone
    obtain ⟨_, _, _, ran', performed⟩ := perform_performed wf allowed
    obtain ⟨rfl, rfl, rfl⟩ : _ = answer ∧ _ = t ∧ _ = wakers := by simpa [ran] using ran'.symm
    exact performed.consumes wf stored gone

/-- Two wait, the first is notified and dropped, and a notification without a waiter is stored. -/
def exampleCalls : List (NotifyAction Nat) :=
  [.notified, .notified, .pollNotified 0 (some 7), .pollNotified 1 (some 8), .notifyOne, .dropNotified 0,
    .pollNotified 1 (some 8), .notifyOne, .notifyOne]

theorem exampleCalls_ledger :
    ((ledgered Nat).run (new, ⟨0, 0, 0, []⟩) exampleCalls).map
      (fun r => (r.2.calls, r.2.received, r.2.merged, r.1.permit)) = some (3, 1, 1, true) := by
  decide +kernel

theorem notify_one_exact_run :
    ∃ s : Notify Nat, s.permit = true ∧ ∑ i ∈ Finset.range s.created, (s.notifieds i).holding.toNat = 0 := by
  have start : (ledgered Nat).Reachable (new, ⟨0, 0, 0, []⟩) := .initial ⟨rfl, rfl⟩
  obtain ⟨⟨s, l⟩, ran, counts⟩ := Option.map_eq_some_iff.mp exampleCalls_ledger
  simp only [Prod.mk.injEq] at counts
  obtain ⟨calls, received, merged, permit⟩ := counts
  obtain ⟨_, _, _, _, _, _, _, _, books⟩ := notify_one_exact (System.reachable_run _ start ran)
  rw [calls, received, merged, permit, Bool.toNat_true] at books
  exact ⟨s, permit, by omega⟩

end Exactness

end Notify

end Osaka.Sync
