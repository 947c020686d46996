import Osaka.Sync.NotifyRuns

set_option autoImplicit false

namespace Osaka.Sync.Notify

open Transitions

variable {W : Type} {s t u : Notify W} {a : NotifyAction W} {i j : Nat} {wakers : List W} {answer : Option Bool}

section Watching

/-- What has been asked of the Notify, and which wakers it has woken. -/
structure Vigil (W : Type) where
  -- the calls of notify_waiters, so far and when a future was created
  calls : Nat
  born : Nat → Nat
  -- the waker given last to a future that has answered Pending and has not been ready since
  asked : Nat → Option W
  -- the wakers woken since that poll
  woken : Nat → List W

def Vigil.first : Vigil W := ⟨0, fun _ => 0, fun _ => none, fun _ => []⟩

def Vigil.note (v : Vigil W) (s : Notify W) : NotifyAction W → Option Bool → Vigil W
  | .notified, _ => { v with born := Function.update v.born s.created v.calls }
  | .pollNotified i (some waker), some false =>
    { v with asked := Function.update v.asked i (some waker), woken := Function.update v.woken i [] }
  | .pollNotified _ none, some false => v
  | .pollNotified i _, _ | .dropNotified i, _ => { v with asked := Function.update v.asked i none }
  | .notifyOne, _ => v
  | .notifyWaiters, _ => { v with calls := v.calls + 1 }

def Vigil.wake (v : Vigil W) (wakers : List W) : Vigil W := { v with woken := fun i => v.woken i ++ wakers }

def Vigil.observe [Wakers W] (v : Vigil W) (s : Notify W) (a : NotifyAction W) (_ : Notify W) : Vigil W :=
  match s.perform a with
  | .ok (answer, _, wakers) => (v.note s a answer).wake wakers
  | .error _ => v

/-- Who has been told to wait is in the list, with the waker given last, or has been woken. -/
structure Attended (s : Notify W) (v : Vigil W) (i : Nat) (waker : W) : Prop where
  made : i < s.created
  waiting : (s.notifieds i).state = .waiting
  attended : i ∈ s.waiters ∧ (s.notifieds i).waiter.waker = some waker ∨ waker ∈ v.woken i

def Watched (s : Notify W) (v : Vigil W) : Prop := ∀ i waker, v.asked i = some waker → Attended s v i waker

theorem Attended.moved {v : Vigil W} {waker : W} (attended : Attended s v i waker) (wf : s.WellFormed)
    (performed : Performed s t a answer wakers) (other : s.subject a ≠ some i) :
    Attended t (v.wake wakers) i waker := by
  obtain ⟨made, waiting, attended⟩ := attended
  have made' := made.trans_le performed.created
  cases performed.kept wf other with
  | same kept members =>
    refine ⟨made', by rw [kept]; exact waiting, ?_⟩
    rcases attended with ⟨listed, stored⟩ | woken
    · exact .inl ⟨members.mpr listed, by rw [kept]; exact stored⟩
    · exact .inr (List.mem_append_left _ woken)
  | notified listed gone notified kind woken =>
    refine ⟨made', by rw [notified]; exact waiting, .inr ?_⟩
    rcases attended with ⟨_, stored⟩ | before
    · exact List.mem_append_right _ (woken waker stored)
    · exact List.mem_append_left _ before

theorem Performed.watched {v : Vigil W} (wf : s.WellFormed) (performed : Performed s t a answer wakers)
    (watched : Watched s v) : Watched t ((v.note s a answer).wake wakers) := by
  intro j stored asked
  by_cases about : s.subject a = some j
  · cases performed with
    | notified same =>
      obtain rfl : s.created = j := Option.some.inj about
      have before := (watched s.created stored asked).made
      exact absurd before (lt_irrefl _)
    | @polled i waker ready alive polled =>
      obtain rfl : i = j := Option.some.inj about
      have made := wf.made alive
      cases ready with
      | true => cases waker <;> simp [Vigil.note, Vigil.wake] at asked
      | false =>
        cases polled with
        | joined state unstored same unlisted changed =>
          cases waker with
          | none =>
            have waiting := (watched i stored asked).waiting
            simp [state] at waiting
          | some given =>
            obtain rfl : given = stored := by simpa [Vigil.note, Vigil.wake] using asked
            refine ⟨by rw [changed.created]; exact made, ?_, .inl ⟨?_, ?_⟩⟩
            · rw [changed.notifieds, Function.update_self]
            · simp [changed.waiters]
            · rw [changed.notifieds, Function.update_self]
        | waits state member changed =>
          have own := congrFun changed.notifieds i
          rw [Function.update_self] at own
          cases waker with
          | none =>
            obtain ⟨_, waiting, attended⟩ := watched i stored asked
            refine ⟨by rw [changed.created]; exact made, by rw [own]; exact waiting, ?_⟩
            rcases attended with ⟨listed, kept⟩ | woken
            · exact .inl ⟨by rw [changed.waiters]; exact listed, by rw [own]; exact kept⟩
            · exact .inr (by simpa [Vigil.note, Vigil.wake] using woken)
          | some given =>
            obtain rfl : given = stored := by simpa [Vigil.note, Vigil.wake] using asked
            refine ⟨by rw [changed.created]; exact made, by rw [own]; exact state, .inl ⟨?_, ?_⟩⟩
            · rw [changed.waiters]
              exact member
            · rw [own]
              rfl
    | @dropped i wakers alive dropped =>
      obtain rfl : i = j := Option.some.inj about
      simp [Vigil.note, Vigil.wake] at asked
    | given given => simp [subject] at about
    | broadcast broadcast => simp [subject] at about
  · have apart (i : Nat) (is : s.subject a = some i) : j ≠ i := fun same => about (by rw [is, same])
    have before : v.asked j = some stored ∧ (v.note s a answer).woken j = v.woken j := by
      cases performed with
      | notified same | given given | broadcast broadcast => exact ⟨asked, rfl⟩
      | @polled i waker ready alive polled =>
        have other := apart i rfl
        cases ready <;> cases waker <;> simpa [Vigil.note, Vigil.wake, other] using asked
      | @dropped i wakers alive dropped =>
        have other := apart i rfl
        simpa [Vigil.note, Vigil.wake, other] using asked
    obtain ⟨made, waiting, attended⟩ := (watched j stored before.1).moved wf performed about
    refine ⟨made, waiting, ?_⟩
    simpa only [Vigil.wake, before.2] using attended

end Watching

section Counting

/-- What the count in the state, and the futures, know of the calls so far. -/
structure Counted (s : Notify W) (v : Vigil W) : Prop where
  count : PackedWord.count 2 s.state = v.calls
  init : ∀ i calls, (s.notifieds i).state = .init calls → calls.toNat = v.born i
  born : ∀ i < s.created, v.born i ≤ v.calls
  all : ∀ i, (s.notifieds i).waiter.notified = some .allWaiters → v.born i < v.calls

theorem Performed.own (wf : s.WellFormed) (performed : Performed s t a answer wakers) (old : a ≠ .notified)
    (about : s.subject a = some j) :
    (∀ calls, (t.notifieds j).state = .init calls → (s.notifieds j).state = .init calls) ∧
      ((t.notifieds j).waiter.notified = some .allWaiters → (s.notifieds j).waiter.notified = some .allWaiters) := by
  cases performed with
  | notified same => exact absurd rfl old
  | @polled i waker ready alive polled =>
    obtain rfl : i = j := Option.some.inj about
    have waiter := wf.fresh i
    cases polled with
    | done state same =>
      rw [same]
      exact ⟨fun _ => id, id⟩
    | permit state stored changed | passed state stored passed changed | joined state stored same unlisted changed
    | received state notified changed =>
      rw [changed.notifieds, Function.update_self]
      simp [state] at waiter ⊢
      try simp [waiter]
    | waits state member changed =>
      rw [changed.notifieds, Function.update_self]
      simp
  | @dropped i wakers alive dropped =>
    obtain rfl : i = j := Option.some.inj about
    cases dropped with
    | gone unnotified changed =>
      rw [changed.notifieds, Function.update_self]
      exact ⟨fun _ => id, id⟩
    | @passed u wakers waiting one unlisted changed given =>
      have self : u.notifieds i = { s.notifieds i with dropped := true } := by
        rw [changed.notifieds, Function.update_self]
      have list := changed.waiters
      cases given with
      | stored none changed' =>
        rw [changed'.notifieds, self]
        exact ⟨fun _ => id, id⟩
      | @handed k rest list' changed' =>
        have apart : i ≠ k := by
          rintro rfl
          exact unlisted (by rw [← list, list']; simp)
        rw [changed'.notifieds, Function.update_of_ne apart, self]
        exact ⟨fun _ => id, id⟩
  | given given => simp [subject] at about
  | broadcast broadcast => simp [subject] at about

theorem Given.calls (given : Given s t wakers) : PackedWord.count 2 t.state = PackedWord.count 2 s.state := by
  cases given with
  | stored none changed | handed list changed => exact changed.calls

theorem Performed.calls (performed : Performed s t a answer wakers) (other : a ≠ .notifyWaiters) :
    PackedWord.count 2 t.state = PackedWord.count 2 s.state := by
  cases performed with
  | notified same =>
    rw [same]
    rfl
  | polled alive polled =>
    cases polled with
    | done state same => rw [same]
    | permit state stored changed | passed state stored passed changed | joined state stored same unlisted changed
    | received state notified changed | waits state member changed => exact changed.calls
  | dropped alive dropped =>
    cases dropped with
    | gone unnotified changed => exact changed.calls
    | passed waiting one unlisted changed given => exact given.calls.trans changed.calls
  | given given => exact given.calls
  | broadcast broadcast => exact absurd rfl other

theorem Performed.counted {v : Vigil W} (wf : s.WellFormed) (performed : Performed s t a answer wakers)
    (few : (v.note s a answer).calls < 2 ^ 62) (counted : Counted s v) :
    Counted t ((v.note s a answer).wake wakers) := by
  by_cases new : a = .notified
  · subst new
    cases performed with
    | notified same =>
      have table (j : Nat) : t.notifieds j =
          if j = s.created then ⟨.init (s.state >>> NOTIFY_WAITERS_SHIFT), ⟨none, none⟩, false⟩
          else s.notifieds j := by
        rw [same]
        exact Function.update_apply ..
      have state : t.state = s.state := by rw [same]; rfl
      have born (j : Nat) : ((v.note s .notified none).wake []).born j = if j = s.created then v.calls else v.born j :=
        Function.update_apply ..
      constructor
      · rw [state]
        exact counted.count
      · intro j calls first
        rw [table] at first
        rw [born]
        split at first
        next here =>
          obtain rfl := State.init.inj first
          rw [if_pos here, shifted_toNat]
          exact counted.count
        next other =>
          rw [if_neg other]
          exact counted.init j calls first
      · intro j made
        rw [born]
        split
        next => exact le_refl _
        next other =>
          have more : t.created = s.created + 1 := by rw [same]; rfl
          exact counted.born j (by omega)
      · intro j all
        rw [table] at all
        rw [born]
        split at all
        next => simp at all
        next other =>
          rw [if_neg other]
          exact counted.all j all
  · have born : ((v.note s a answer).wake wakers).born = v.born := by
      cases performed with
      | notified same => exact absurd rfl new
      | @polled i waker ready alive polled => cases ready <;> cases waker <;> rfl
      | dropped alive dropped | given given | broadcast broadcast => rfl
    have more : v.calls ≤ ((v.note s a answer).wake wakers).calls := by
      cases performed with
      | notified same => exact le_refl _
      | @polled i waker ready alive polled => cases ready <;> cases waker <;> exact le_refl _
      | dropped alive dropped | given given => exact le_refl _
      | broadcast broadcast => exact Nat.le_succ _
    have states (j : Nat) : (∀ calls, (t.notifieds j).state = .init calls → (s.notifieds j).state = .init calls) ∧
        ((t.notifieds j).waiter.notified = some .allWaiters → (s.notifieds j).waiter.notified = some .allWaiters ∨
          a = .notifyWaiters ∧ j < s.created) := by
      by_cases about : s.subject a = some j
      · obtain ⟨init, all⟩ := performed.own wf new about
        exact ⟨init, fun now => .inl (all now)⟩
      · cases performed.kept wf about with
        | same kept members =>
          rw [kept]
          exact ⟨fun _ => id, .inl⟩
        | @notified kind listed gone notified which woken =>
          rw [notified]
          refine ⟨fun _ => id, fun now => .inr ?_⟩
          have made := wf.made (wf.listed j listed).1
          exact ⟨which.mp (by simpa using now), made⟩
    by_cases call : a = .notifyWaiters
    · subst call
      have room : PackedWord.count 2 s.state + 1 < 2 ^ 62 := by
        rw [counted.count]
        exact few
      cases performed with
      | broadcast broadcast =>
        constructor
        · rw [broadcast.calls, count_inc room, counted.count]
          rfl
        · intro j calls first
          rw [born]
          exact counted.init j calls ((states j).1 calls first)
        · intro j made
          rw [born]
          exact (counted.born j (broadcast.created ▸ made)).trans more
        · intro j all
          rw [born]
          rcases (states j).2 all with before | ⟨_, made⟩
          · exact (counted.all j before).trans_le more
          · exact Nat.lt_succ_of_le (counted.born j made)
    · constructor
      · rw [performed.calls call, counted.count]
        cases performed with
        | notified same => exact absurd rfl new
        | @polled i waker ready alive polled => cases ready <;> cases waker <;> rfl
        | dropped alive dropped | given given => rfl
        | broadcast broadcast => exact absurd rfl call
      · intro j calls first
        rw [born]
        exact counted.init j calls ((states j).1 calls first)
      · intro j made
        rw [born]
        exact (counted.born j (performed.created_eq new ▸ made)).trans more
      · intro j all
        rw [born]
        rcases (states j).2 all with before | ⟨is, _⟩
        · exact (counted.all j before).trans_le more
        · exact absurd is call

end Counting

section Audience

/-- The future is ready when it is polled next, and will be. -/
def Due (s : Notify W) (i : Nat) : Prop :=
  (s.notifieds i).state = .waiting ∧ (s.notifieds i).waiter.notified ≠ none ∨
    ∃ calls, (s.notifieds i).state = .init calls ∧ calls.toNat < PackedWord.count 2 s.state

theorem Due.moved (due : s.Due i) (wf : s.WellFormed) (performed : Performed s t a answer wakers)
    (other : s.subject a ≠ some i) (room : a = .notifyWaiters → PackedWord.count 2 s.state + 1 < 2 ^ 62) :
    t.Due i := by
  have more : PackedWord.count 2 s.state ≤ PackedWord.count 2 t.state := by
    by_cases call : a = .notifyWaiters
    · have enough := room call
      subst call
      cases performed with
      | broadcast broadcast =>
        rw [broadcast.calls, count_inc enough]
        exact Nat.le_succ _
    · exact (performed.calls call).ge
  cases performed.kept wf other with
  | same kept members =>
    unfold Due at due ⊢
    rw [kept]
    rcases due with seen | ⟨calls, init, behind⟩
    · exact .inl seen
    · exact .inr ⟨calls, init, behind.trans_le more⟩
  | notified listed gone notified kind woken =>
    unfold Due
    rw [notified]
    exact .inl ⟨(wf.listed i listed).2.1, by simp⟩

variable [Wakers W]

theorem Due.ready (due : s.Due i) (wf : s.WellFormed) (alive : (s.notifieds i).dropped = false)
    (waker : Option W) : ∃ t, s.pollNotified i waker = .ok (true, t) := by
  obtain ⟨ready, t, ran, polled⟩ := pollNotified_polled wf alive waker
  cases polled with
  | done state same | permit state stored changed | passed state stored passed changed
  | received state notified changed => exact ⟨t, ran⟩
  | joined state stored same unlisted changed =>
    exfalso
    rcases due with ⟨waiting, _⟩ | ⟨calls, init, behind⟩
    · simp [state] at waiting
    · obtain rfl := State.init.inj (state.symm.trans init)
      rw [← same, getNum_toNat] at behind
      exact absurd behind (lt_irrefl _)
  | waits state member changed =>
    exfalso
    rcases due with ⟨_, some⟩ | ⟨calls, init, behind⟩
    · exact some (wf.listed i member).2.2
    · simp [state] at init

def calls (actions : List (NotifyAction W)) : Nat :=
  actions.countP fun a => match a with
    | .notifyWaiters => true
    | _ => false

def touches (i : Nat) : NotifyAction W → Prop
  | .pollNotified j _ | .dropNotified j => j = i
  | _ => False

omit [Wakers W] in
theorem Performed.alive (performed : Performed s t a answer wakers) (wf : s.WellFormed)
    (alive : (s.notifieds i).dropped = false) (other : ¬touches i a) :
    s.subject a ≠ some i ∧ (t.notifieds i).dropped = false := by
  have apart : s.subject a ≠ some i := by
    intro about
    cases a with
    | notified => exact absurd (Option.some.inj about) (wf.made alive).ne'
    | pollNotified j waker | dropNotified j => exact other (Option.some.inj about)
    | notifyOne | notifyWaiters => simp [subject] at about
  refine ⟨apart, ?_⟩
  cases performed.kept wf apart with
  | same kept members =>
    rw [kept]
    exact alive
  | notified listed gone notified kind woken =>
    rw [notified]
    exact alive

theorem run_due {actions : List (NotifyAction W)} (wf : s.WellFormed) (alive : (s.notifieds i).dropped = false)
    (due : s.Due i) (ran : (machine W).run s actions = some t) (other : ∀ a ∈ actions, ¬touches i a)
    (few : PackedWord.count 2 s.state + calls actions < 2 ^ 62) :
    t.WellFormed ∧ (t.notifieds i).dropped = false ∧ t.Due i := by
  induction actions generalizing s with
  | nil =>
    obtain rfl : s = t := Option.some.inj ran
    exact ⟨wf, alive, due⟩
  | cons a rest ih =>
    obtain ⟨u, _, stepped, ran⟩ := (machine W).run_cons ran
    obtain ⟨answer, wakers, _, performed⟩ := (step_kept wf a).next stepped
    obtain ⟨apart, alive'⟩ := performed.alive wf alive (other a (by simp))
    rw [calls, List.countP_cons] at few
    have count : PackedWord.count 2 u.state + calls rest < 2 ^ 62 ∧
        (a = .notifyWaiters → PackedWord.count 2 s.state + 1 < 2 ^ 62) := by
      by_cases call : a = .notifyWaiters
      · subst call
        simp only [if_true] at few
        have room : PackedWord.count 2 s.state + 1 < 2 ^ 62 := by omega
        cases performed with
        | broadcast broadcast =>
          rw [broadcast.calls, count_inc room]
          exact ⟨by unfold calls; omega, fun _ => room⟩
      · rw [performed.calls call]
        exact ⟨by unfold calls; omega, fun is => absurd is call⟩
    exact ih (performed.wellFormed wf) alive' (due.moved wf performed apart count.2) ran
      (fun b member => other b (List.mem_cons_of_mem a member)) count.1

def watched (W : Type) [Wakers W] : System (Notify W × Vigil W) (NotifyAction W) Fault :=
  (machine W).observed .first Vigil.observe

instance : DecidablePred (watched W).within := fun _ => inferInstanceAs (Decidable True)

theorem watched_kept {r : Notify W × Vigil W} (reached : (watched W).Reachable r) :
    Watched r.1 r.2 ∧ (r.2.calls < 2 ^ 62 → Counted r.1 r.2) := by
  apply System.Reachable.watched (P := fun s v => Watched s v ∧ (v.calls < 2 ^ 62 → Counted s v)) _ _ reached
  · rintro _ rfl
    refine ⟨?_, fun _ => ⟨by simp [new, PackedWord.count, Vigil.first], ?_, ?_, ?_⟩⟩
    · intro i waker asked
      simp [Vigil.first] at asked
    · simp [new]
    · simp [new]
    · simp [new]
  · intro s v a t before holds _ stepped
    have wf := reachable_wellFormed before
    obtain ⟨answer, wakers, ran, performed⟩ := (step_kept wf a).next stepped
    have seen : v.observe s a t = (v.note s a answer).wake wakers := by simp only [Vigil.observe, ran]
    rw [seen]
    refine ⟨performed.watched wf holds.1, fun few => performed.counted wf few (holds.2 ?_)⟩
    have less : v.calls ≤ (v.note s a answer).calls := by
      unfold Vigil.note
      split <;> simp
    exact less.trans_lt few

/-- A call of notify_waiters is for the futures there are, and for no other. -/
theorem notify_waiters_exact {v : Vigil W} (reached : (watched W).Reachable (s, v)) (few : v.calls + 1 < 2 ^ 62) :
    (∃ t wakers, s.notifyWaiters = .ok (t, wakers) ∧ t.permit = s.permit ∧
      ∀ i, (s.notifieds i).dropped = false → (s.notifieds i).state ≠ .done →
        -- Who waits has been woken.
        (∀ waker, v.asked i = some waker → waker ∈ v.woken i ++ wakers) ∧
        -- The next poll is ready, whatever comes before it.
        ∀ actions u, (machine W).run t actions = some u → (∀ a ∈ actions, ¬touches i a) →
          v.calls + 1 + calls actions < 2 ^ 62 → ∀ waker, ∃ u', u.pollNotified i waker = .ok (true, u')) ∧
    -- A future that has been created since the last call is completed by a notification of notify_one.
    ∀ i waker t, (s.notifieds i).dropped = false → (s.notifieds i).state ≠ .done → v.born i = v.calls →
      s.pollNotified i waker = .ok (true, t) →
      s.permit = true ∧ t.permit = false ∨ (s.notifieds i).waiter.notified = some .oneWaiter := by
  have wf : s.WellFormed := reachable_wellFormed reached.of_observed
  obtain ⟨known, counted⟩ : Watched s v ∧ (v.calls < 2 ^ 62 → Counted s v) := watched_kept reached
  have counted := counted (by omega)
  have room : PackedWord.count 2 s.state + 1 < 2 ^ 62 := by
    rw [counted.count]
    exact few
  constructor
  · obtain ⟨t, wakers, ran, broadcast⟩ := notifyWaiters_broadcast wf
    refine ⟨t, wakers, ran, broadcast.permit, ?_⟩
    intro i alive unfinished
    constructor
    · intro waker asked
      obtain ⟨_, _, ⟨listed, stored⟩ | woken⟩ := known i waker asked
      · apply List.mem_append_right
        rw [broadcast.wakers]
        exact List.mem_filterMap.mpr ⟨i, listed, stored⟩
      · exact List.mem_append_left _ woken
    · intro actions u ran' other fewer waker
      have performed : Performed s t .notifyWaiters none wakers := .broadcast broadcast
      obtain ⟨_, alive'⟩ := performed.alive wf alive (by simp [touches])
      have count : PackedWord.count 2 t.state = v.calls + 1 := by
        rw [broadcast.calls, count_inc room, counted.count]
      have due : t.Due i := by
        unfold Due
        by_cases listed : i ∈ s.waiters
        · rw [broadcast.woken i listed]
          exact .inl ⟨(wf.listed i listed).2.1, by simp⟩
        · rw [broadcast.kept i listed]
          cases state : (s.notifieds i).state with
          | init calls =>
            right
            refine ⟨calls, rfl, ?_⟩
            rw [count, counted.init i calls state]
            exact Nat.lt_succ_of_le (counted.born i (wf.made alive))
          | waiting => exact .inl ⟨rfl, fun unset => listed (wf.unlisted i alive state unset)⟩
          | done => exact absurd state unfinished
      obtain ⟨wf', alive'', due'⟩ := run_due (performed.wellFormed wf) alive' due ran' other (by omega)
      exact due'.ready wf' alive'' waker
  · intro i waker t alive unfinished born ran
    obtain ⟨_, _, ran', polled⟩ := pollNotified_polled wf alive waker
    obtain ⟨rfl, rfl⟩ : true = _ ∧ t = _ := by simpa [ran] using ran'
    cases polled with
    | done state same => exact absurd state unfinished
    | permit state stored changed => exact .inl ⟨stored, by simp [changed.permit]⟩
    | passed state stored passed changed =>
      exfalso
      apply passed
      apply BitVec.eq_of_toNat_eq
      rw [getNum_toNat, counted.count, counted.init i _ state, born]
    | @received kind state notified changed =>
      cases kind with
      | oneWaiter => exact .inr notified
      | allWaiters =>
        have before := counted.all i notified
        omega

/-- One waits, one has not been polled, and one comes too late. -/
def exampleAudience : List (NotifyAction Nat) :=
  [.notified, .notified, .pollNotified 0 (some 7), .notifyWaiters, .notified, .pollNotified 2 (some 9)]

theorem exampleAudience_asked :
    ((watched Nat).run (new, .first) exampleAudience).map
      (fun r => (r.2.calls, r.2.asked 2, (r.1.notifieds 2).dropped, (r.1.notifieds 2).state)) =
        some (1, some 9, false, .waiting) := by
  decide +kernel

theorem notify_waiters_exact_run : ∃ (s t : Notify Nat) (v : Vigil Nat) (wakers : List Nat),
    s.notifyWaiters = .ok (t, wakers) ∧ 9 ∈ v.woken 2 ++ wakers := by
  have start : (watched Nat).Reachable (new, .first) := .initial ⟨rfl, rfl⟩
  obtain ⟨⟨s, v⟩, ran, facts⟩ := Option.map_eq_some_iff.mp exampleAudience_asked
  simp only [Prod.mk.injEq] at facts
  obtain ⟨calls, asked, alive, state⟩ := facts
  obtain ⟨⟨t, wakers, notified, _, each⟩, _⟩ := notify_waiters_exact (System.reachable_run _ start ran) (by omega)
  exact ⟨s, t, v, wakers, notified, (each 2 alive (by simp [state])).1 9 asked⟩

end Audience

end Osaka.Sync.Notify
