import Mathlib.Algebra.BigOperators.Group.Finset.Basic
import Osaka.Sync.NotifySteps

set_option autoImplicit false

namespace Osaka.Sync

open Transitions

inductive NotifyAction (W : Type) where
  | notified
  -- Future::poll, or enable, which has no waker
  | pollNotified (i : Nat) (waker : Option W)
  | dropNotified (i : Nat)
  | notifyOne
  | notifyWaiters

namespace Notify

variable {W : Type} {s t : Notify W} {a : NotifyAction W} {i j : Nat} {wakers : List W}

/-- A future that has been dropped is neither polled nor dropped again. -/
def allowed (s : Notify W) : NotifyAction W → Bool
  | .pollNotified i _ | .dropNotified i => !(s.notifieds i).dropped
  | _ => true

section Performing

variable [Wakers W]

def perform (s : Notify W) : NotifyAction W → Except Fault (Option Bool × Notify W × List W)
  | .notified => .ok (none, s.notified, [])
  | .pollNotified i waker => (s.pollNotified i waker).map fun (ready, t) => (some ready, t, [])
  | .dropNotified i => (s.dropNotified i).map fun (t, wakers) => (none, t, wakers)
  | .notifyOne => s.notifyOne.map fun (t, wakers) => (none, t, wakers)
  | .notifyWaiters => s.notifyWaiters.map fun (t, wakers) => (none, t, wakers)

def step (s : Notify W) (a : NotifyAction W) : Outcome (Notify W) Fault :=
  if s.allowed a then Outcome.attempt (s.perform a) fun (_, t, _) => .next t else .disabled

def machine (W : Type) [Wakers W] : System (Notify W) (NotifyAction W) Fault where
  initial s := s = new
  within _ := True
  step s a := s.step a

instance : DecidablePred (machine W).within := fun _ => inferInstanceAs (Decidable True)

omit [Wakers W] in
inductive Performed (s t : Notify W) : NotifyAction W → Option Bool → List W → Prop where
  | notified : t = s.notified → Performed s t .notified none []
  | polled {i : Nat} {waker : Option W} {ready : Bool} : (s.notifieds i).dropped = false →
      Polled s t i waker ready → Performed s t (.pollNotified i waker) (some ready) []
  | dropped {i : Nat} {wakers : List W} : (s.notifieds i).dropped = false → Dropped s t i wakers →
      Performed s t (.dropNotified i) none wakers
  | given {wakers : List W} : Given s t wakers → Performed s t .notifyOne none wakers
  | broadcast {wakers : List W} : Broadcast s t wakers → Performed s t .notifyWaiters none wakers

theorem perform_performed (wf : s.WellFormed) (allowed : s.allowed a = true) :
    ∃ answer t wakers, s.perform a = .ok (answer, t, wakers) ∧ Performed s t a answer wakers := by
  cases a with
  | notified => exact ⟨_, _, _, rfl, .notified rfl⟩
  | pollNotified i waker =>
    have alive : (s.notifieds i).dropped = false := by simpa [Notify.allowed] using allowed
    obtain ⟨ready, t, ran, polled⟩ := pollNotified_polled wf alive waker
    exact ⟨_, t, _, by rw [perform, ran]; rfl, .polled alive polled⟩
  | dropNotified i =>
    have alive : (s.notifieds i).dropped = false := by simpa [Notify.allowed] using allowed
    obtain ⟨t, wakers, ran, dropped⟩ := dropNotified_dropped wf i
    exact ⟨_, t, _, by rw [perform, ran]; rfl, .dropped alive dropped⟩
  | notifyOne =>
    obtain ⟨t, wakers, ran, given⟩ := notifyOne_given wf
    exact ⟨_, t, _, by rw [perform, ran]; rfl, .given given⟩
  | notifyWaiters =>
    obtain ⟨t, wakers, ran, broadcast⟩ := notifyWaiters_broadcast wf
    exact ⟨_, t, _, by rw [perform, ran]; rfl, .broadcast broadcast⟩

theorem step_kept (wf : s.WellFormed) (a : NotifyAction W) : (s.step a).Kept fun t =>
    ∃ answer wakers, s.perform a = .ok (answer, t, wakers) ∧ Performed s t a answer wakers := by
  unfold step
  split
  next allowed =>
    obtain ⟨answer, t, wakers, ran, performed⟩ := perform_performed wf allowed
    rw [ran]
    exact ⟨answer, wakers, rfl, performed⟩
  next => trivial

omit [Wakers W] in
theorem Performed.wellFormed {answer : Option Bool} (wf : s.WellFormed) (performed : Performed s t a answer wakers) :
    t.WellFormed := by
  cases performed with
  | notified same =>
    rw [same]
    exact notified_wellFormed wf
  | polled alive polled => exact polled.wellFormed wf alive
  | dropped alive dropped => exact dropped.wellFormed wf
  | given given => exact given.wellFormed wf
  | broadcast broadcast => exact broadcast.wellFormed wf

theorem reachable_wellFormed (reached : (machine W).Reachable s) : s.WellFormed := by
  apply System.Reachable.invariant _ _ reached
  · rintro _ rfl
    exact new_wellFormed
  · intro s a wf _
    apply (step_kept wf a).mono
    rintro t ⟨answer, wakers, _, performed⟩
    exact performed.wellFormed wf

end Performing

section Frames

def subject (s : Notify W) : NotifyAction W → Option Nat
  | .notified => some s.created
  | .pollNotified i _ | .dropNotified i => some i
  | _ => none

/-- What a step makes of a future that it is not about: it may be notified, and then leaves the list. -/
inductive Kept (s t : Notify W) (j : Nat) (a : NotifyAction W) (wakers : List W) : Prop where
  | same : t.notifieds j = s.notifieds j → (j ∈ t.waiters ↔ j ∈ s.waiters) → Kept s t j a wakers
  | notified {kind : NotificationType} : j ∈ s.waiters → j ∉ t.waiters →
      t.notifieds j = { s.notifieds j with waiter := ⟨none, some kind⟩ } →
      (kind = .allWaiters ↔ a = .notifyWaiters) →
      (∀ waker, (s.notifieds j).waiter.waker = some waker → waker ∈ wakers) → Kept s t j a wakers

theorem Given.kept (nodup : s.waiters.Nodup) (given : Given s t wakers) (other : a ≠ .notifyWaiters) (j : Nat) :
    Kept s t j a wakers := by
  cases given with
  | stored none changed => exact .same (by rw [changed.notifieds]) (by rw [changed.waiters, none])
  | @handed i rest list changed =>
    rw [list, List.nodup_cons] at nodup
    by_cases same : j = i
    · subst same
      have told : t.notifieds j = { s.notifieds j with waiter := ⟨none, some .oneWaiter⟩ } := by
        rw [changed.notifieds, Function.update_self]
      refine .notified (by simp [list]) ?_ told ?_ ?_
      · rw [changed.waiters]
        exact nodup.1
      · simp [other]
      · intro waker stored
        simp [stored]
    · refine .same ?_ ?_
      · rw [changed.notifieds, Function.update_of_ne same]
      · rw [changed.waiters, list]
        simp [same]

theorem Changed.kept_other {n : Notified W} {list : List Nat} {stored : Bool}
    (changed : Changed s (Function.update s.notifieds i n) list stored t) (other : j ≠ i)
    (members : j ∈ list ↔ j ∈ s.waiters) : Kept s t j a wakers := by
  refine .same ?_ ?_
  · rw [changed.notifieds, Function.update_of_ne other]
  · rw [changed.waiters]
    exact members

theorem Performed.kept {answer : Option Bool} (wf : s.WellFormed) (performed : Performed s t a answer wakers)
    (other : s.subject a ≠ some j) : Kept s t j a wakers := by
  cases performed with
  | notified same =>
    have apart : j ≠ s.created := fun same => other (by rw [same]; rfl)
    rw [same]
    exact .same (Function.update_of_ne apart _ _) Iff.rfl
  | @polled i waker ready alive polled =>
    have apart : j ≠ i := fun same => other (by rw [same]; rfl)
    cases polled with
    | done state same =>
      rw [same]
      exact .same rfl Iff.rfl
    | permit state stored changed => exact changed.kept_other apart (by rw [wf.permit_nil stored])
    | passed state stored passed changed => exact changed.kept_other apart Iff.rfl
    | joined state stored same unlisted changed => exact changed.kept_other apart (by simp [apart])
    | received state notified changed => exact changed.kept_other apart Iff.rfl
    | waits state member changed => exact changed.kept_other apart Iff.rfl
  | @dropped i wakers alive dropped =>
    have apart : j ≠ i := fun same => other (by rw [same]; rfl)
    cases dropped with
    | gone unnotified changed => exact changed.kept_other apart (List.mem_erase_of_ne apart)
    | @passed u wakers waiting one unlisted changed given =>
      have same : u.notifieds j = s.notifieds j := by rw [changed.notifieds, Function.update_of_ne apart]
      have list : u.waiters = s.waiters := changed.waiters
      have kept := given.kept (a := .dropNotified i) (by rw [list]; exact wf.nodup) (by simp) j
      cases kept with
      | same kept members => exact .same (kept.trans same) (by rw [members, list])
      | notified member gone notified kind woken =>
        rw [same] at notified woken
        rw [list] at member
        exact .notified member gone notified kind woken
  | given given => exact given.kept wf.nodup (by simp) j
  | broadcast broadcast =>
    by_cases member : j ∈ s.waiters
    · refine .notified member ?_ (broadcast.woken j member) (by simp) ?_
      · simp [broadcast.waiters]
      · intro waker stored
        rw [broadcast.wakers]
        exact List.mem_filterMap.mpr ⟨j, member, stored⟩
    · exact .same (broadcast.kept j member) (by simp [broadcast.waiters, member])

theorem Performed.created_eq {answer : Option Bool} (performed : Performed s t a answer wakers)
    (other : a ≠ .notified) : t.created = s.created := by
  have given {u : Notify W} {wakers : List W} (gives : Given u t wakers) : t.created = u.created := by
    cases gives with
    | stored none changed | handed list changed => exact changed.created
  cases performed with
  | notified same => exact absurd rfl other
  | polled alive polled =>
    cases polled with
    | done state same => rw [same]
    | permit state stored changed | passed state stored passed changed | joined state stored same unlisted changed
    | received state notified changed | waits state member changed => exact changed.created
  | dropped alive dropped =>
    cases dropped with
    | gone unnotified changed => exact changed.created
    | passed waiting one unlisted changed gives => rw [given gives, changed.created]
  | given gives => exact given gives
  | broadcast broadcast => exact broadcast.created

theorem Performed.created {answer : Option Bool} (performed : Performed s t a answer wakers) :
    s.created ≤ t.created := by
  by_cases new : a = .notified
  · subst new
    cases performed with
    | notified same =>
      rw [same]
      exact Nat.le_succ _
  · exact (performed.created_eq new).ge

end Frames

end Notify

end Osaka.Sync
