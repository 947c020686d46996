import Osaka.Sync.BroadcastClosing
import Osaka.Sync.BroadcastSlots

set_option autoImplicit false

namespace Osaka.Sync.Broadcast

open Transitions

variable {T W : Type} {s t : Broadcast T W} {r : Nat} {sent sent' : List T} {cursor cursor' : Nat → Nat}
variable {a : BroadcastAction T W} {answer : Answer T} {wakers : List W} {j : Journal T W}

section Telling

def advance : Except TryRecvError T → Nat
  | .ok _ => 1
  | .error (.lagged n) => n.toNat
  | .error .closed => 1
  | .error .empty => 0

def Fits (sent : List T) (c : Nat) : Except TryRecvError T → Prop
  | .ok value => sent[c]? = some value
  | .error (.lagged n) => 0 < n.toNat ∧ c + n.toNat ≤ sent.length
  | .error .closed => c = sent.length
  | .error .empty => True

/-- The values are those that were sent, in order and without a gap but for what is told to be missing. -/
def Told (sent : List T) : Nat → List (Except TryRecvError T) → Prop
  | _, [] => True
  | c, result :: rest => Fits sent c result ∧ Told sent (c + advance result) rest

theorem told_append (sent : List T) (c : Nat) (receipts : List (Except TryRecvError T)) (result : Except TryRecvError T) :
    Told sent c (receipts ++ [result]) ↔
      Told sent c receipts ∧ Fits sent (c + (receipts.map advance).sum) result := by
  induction receipts generalizing c with
  | nil => simp [Told]
  | cons first rest ih =>
    simp only [List.cons_append, Told, ih, List.map_cons, List.sum_cons, and_assoc, Nat.add_assoc]

theorem Told.extended {c : Nat} {receipts : List (Except TryRecvError T)} (told : Told sent c receipts)
    (opened : .error .closed ∉ receipts) (value : T) : Told (sent ++ [value]) c receipts := by
  induction receipts generalizing c with
  | nil => trivial
  | cons first rest ih =>
    obtain ⟨fits, told⟩ := told
    rw [List.mem_cons, not_or] at opened
    refine ⟨?_, ih told opened.2⟩
    match first with
    | .ok found =>
      have below : c < sent.length := (List.getElem?_eq_some_iff.mp fits).1
      change (sent ++ [value])[c]? = _
      rw [List.getElem?_append_left below]
      exact fits
    | .error (.lagged n) =>
      refine ⟨fits.1, ?_⟩
      rw [List.length_append]
      exact fits.2.trans (Nat.le_add_right _ _)
    | .error .closed => exact absurd rfl opened.1
    | .error .empty => trivial

theorem Told.within {c : Nat} {receipts : List (Except TryRecvError T)} (told : Told sent c receipts)
    (opened : .error .closed ∉ receipts) (below : c ≤ sent.length) : c + (receipts.map advance).sum ≤ sent.length := by
  induction receipts generalizing c with
  | nil => exact below
  | cons first rest ih =>
    obtain ⟨fits, told⟩ := told
    rw [List.mem_cons, not_or] at opened
    rw [List.map_cons, List.sum_cons, ← Nat.add_assoc]
    refine ih told opened.2 ?_
    match first with
    | .ok found => exact (List.getElem?_eq_some_iff.mp fits).1
    | .error (.lagged n) => exact fits.2
    | .error .closed => exact absurd rfl opened.1
    | .error .empty => exact below

theorem Told.past {c : Nat} {receipts : List (Except TryRecvError T)} (told : Told sent c receipts)
    (closed : .error .closed ∈ receipts) : sent.length < c + (receipts.map advance).sum := by
  induction receipts generalizing c with
  | nil => cases closed
  | cons first rest ih =>
    obtain ⟨fits, told⟩ := told
    rw [List.map_cons, List.sum_cons, ← Nat.add_assoc]
    rcases List.mem_cons.mp closed with rfl | later
    · have here : c = sent.length := fits
      simp only [advance]
      omega
    · exact ih told later

theorem Taken.advance {c after : Nat} {result : Except TryRecvError T} (positive : 0 < s.len) (taken : Taken s sent c result after) :
    after = c + Broadcast.advance result := by
  cases taken with
  | value _ _ _ => rfl
  | closed _ _ _ => rfl
  | empty _ => rfl
  | lagged near apart =>
    have bound : s.positions sent + s.len ≤ c + 2 ^ 64 := near
    have less : sent.length ≤ s.positions sent := Nat.le_add_right _ _
    simp only [Broadcast.advance, BitVec.toNat_ofNat]
    rw [Nat.mod_eq_of_lt (by omega)]
    omega

theorem Taken.fits {c after : Nat} {result : Except TryRecvError T} (positive : 0 < s.len) (taken : Taken s sent c result after) :
    Fits sent c result := by
  have advanced := taken.advance positive
  cases taken with
  | value _ _ found => exact found
  | closed _ _ here => exact here
  | empty _ => trivial
  | lagged near apart =>
    simp only [Broadcast.advance] at advanced
    simp only [Fits]
    omega

end Telling

section Journals

def Journal.place (j : Journal T W) (r : Nat) : Nat := j.since r + ((j.receipts r).map advance).sum

theorem Journal.place_received {result : Except TryRecvError T} {after : Nat}
    (advanced : after = j.place r + advance result) :
    (j.received r result).place = Function.update j.place r after := by
  funext i
  by_cases same : i = r
  · subst same
    rw [Function.update_self, advanced]
    simp [Journal.place, Journal.received, Nat.add_assoc]
  · rw [Function.update_of_ne same]
    simp [Journal.place, Journal.received, Function.update_of_ne same]

theorem Performed.told_place (positive : 0 < s.len) (fresh : j.receipts s.created = [])
    (performed : Performed s t j.sent j.place a answer wakers sent' cursor') :
    (j.told s a answer).place = cursor' := by
  cases performed with
  | joined about _ _ =>
    have joined : (j.joined s).place = Function.update j.place s.created (s.positions j.sent) := by
      funext i
      by_cases same : i = s.created
      · rw [same, Function.update_self]
        simp [Journal.place, Journal.joined, fresh]
      · rw [Function.update_of_ne same]
        simp [Journal.place, Journal.joined, Function.update_of_ne same]
    rcases about with rfl | ⟨_, rfl, _⟩
    · exact joined
    · exact joined
  | received _ _ taken _ _ _ _ _ => exact Journal.place_received (taken.advance positive)
  | polled _ taken _ _ _ _ => exact Journal.place_received (taken.advance positive)
  | _ => rfl

structure Known (s : Broadcast T W) (j : Journal T W) : Prop where
  fresh : ∀ r, s.created ≤ r → j.receipts r = []
  told : ∀ r, Told j.sent (j.since r) (j.receipts r)
  closed : ∀ r, .error .closed ∈ j.receipts r → s.tail.closed = true

theorem Known.received {result : Except TryRecvError T} {after : Nat} (known : Known s j)
    (alive : (s.receivers r).dropped = false) (ring : Ring s j.sent j.place)
    (taken : Taken s j.sent (j.place r) result after) (served : Served s t r) :
    Known t (j.received r result) := by
  constructor
  · intro i unmade
    rw [served.created] at unmade
    have made := ring.made alive
    simp only [Journal.received]
    rw [Function.update_of_ne (by omega)]
    exact known.fresh i unmade
  · intro i
    simp only [Journal.received]
    by_cases same : i = r
    · rw [same, Function.update_self, told_append]
      exact ⟨known.told r, taken.fits ring.positive⟩
    · rw [Function.update_of_ne same]
      exact known.told i
  · intro i answered
    rw [served.closed]
    simp only [Journal.received] at answered
    by_cases same : i = r
    · rw [same, Function.update_self, List.mem_append, List.mem_singleton] at answered
      rcases answered with before | rfl
      · exact known.closed r before
      · cases taken with
        | closed _ closed _ => exact closed
    · rw [Function.update_of_ne same] at answered
      exact known.closed i answered

theorem Performed.known (sound : Sound s j.sent j.place) (known : Known s j)
    (performed : Performed s t j.sent j.place a answer wakers sent' cursor') : Known t (j.told s a answer) := by
  cases performed with
  | sent some _ notified =>
    have opened := sound.opened some
    refine ⟨?_, ?_, ?_⟩
    · rw [notified.alike.created]
      exact known.fresh
    · intro r
      refine (known.told r).extended ?_ _
      intro answered
      rw [known.closed r answered] at opened
      exact absurd opened (by decide)
    · rw [notified.alike.closed]
      exact known.closed
  | unsent _ same =>
    subst same
    exact known
  | joined about _ same =>
    have joined : Known t (j.joined s) := by
      subst same
      refine ⟨fun r unmade => known.fresh r (Nat.le_of_succ_le unmade), ?_, known.closed⟩
      intro r
      by_cases new : r = s.created
      · rw [new]
        change Told _ _ (j.receipts s.created)
        rw [known.fresh s.created (le_refl _)]
        trivial
      · simp only [Journal.joined]
        rw [Function.update_of_ne new]
        exact known.told r
    rcases about with rfl | ⟨_, rfl, _⟩
    · exact joined
    · exact joined
  | cloned _ same =>
    subst same
    exact ⟨known.fresh, known.told, known.closed⟩
  | left _ _ same =>
    subst same
    exact ⟨known.fresh, known.told, known.closed⟩
  | closed _ _ notified =>
    refine ⟨?_, known.told, ?_⟩
    · rw [notified.alike.created]
      exact known.fresh
    · intro r _
      rw [notified.alike.closed]
      rfl
  | received alive _ taken _ _ served _ _ => exact known.received alive sound.ring taken served
  | polled alive taken _ _ served _ =>
    have kept := known.received alive sound.ring taken served
    exact ⟨kept.fresh, kept.told, kept.closed⟩
  | cancelled _ changed _ =>
    refine ⟨?_, known.told, ?_⟩
    · rw [changed.alike.created]
      exact known.fresh
    · rw [changed.alike.closed]
      exact known.closed
  | gone _ _ _ _ gone =>
    refine ⟨?_, known.told, ?_⟩
    · rw [gone.created]
      exact known.fresh
    · rw [gone.closed]
      exact known.closed

/-- A recv that is pending is listed with its waker, unless it has been woken. -/
def Awaited (s : Broadcast T W) (j : Journal T W) : Prop :=
  ∀ r waker, j.asked r = some waker → waker ∈ j.woken r ∨
    r ∈ s.tail.waiters ∧ (s.receivers r).waiter.waker = some waker ∧ j.place r = s.positions j.sent

def Journal.wakes (j : Journal T W) (wakers : List W) : Journal T W := { j with woken := fun r => j.woken r ++ wakers }

theorem Notified.awaited {u : Broadcast T W} {k : Journal T W} (notified : Notified u t wakers)
    (awaited : Awaited s j) (waiters : u.tail.waiters = s.tail.waiters) (receivers : u.receivers = s.receivers)
    (asked : k.asked = j.asked) (woken : ∀ r, k.woken r = j.woken r ++ wakers) : Awaited t k := by
  intro r waker asks
  rw [asked] at asks
  left
  rw [woken r]
  rcases awaited r waker asks with before | ⟨listed, stored, _⟩
  · exact List.mem_append_left _ before
  · apply List.mem_append_right
    rw [notified.wakers, waiters, receivers]
    exact List.mem_filterMap.mpr ⟨r, listed, stored⟩

@[simp]
theorem Journal.wakes_nil (j : Journal T W) : j.wakes [] = j := by simp [Journal.wakes]

theorem Awaited.keeps {k : Journal T W} {i : Nat} (awaited : Awaited s j) (asked : k.asked i = j.asked i)
    (woken : k.woken i = j.woken i) (place : i ∈ s.tail.waiters → k.place i = j.place i)
    (positions : t.positions k.sent = s.positions j.sent)
    (waits : i ∈ s.tail.waiters → i ∈ t.tail.waiters ∧ t.receivers i = s.receivers i) (waker : W)
    (asks : k.asked i = some waker) : waker ∈ k.woken i ∨
      i ∈ t.tail.waiters ∧ (t.receivers i).waiter.waker = some waker ∧ k.place i = t.positions k.sent := by
  rw [asked] at asks
  rw [woken, positions]
  rcases awaited i waker asks with before | ⟨listed, stored, level⟩
  · exact .inl before
  · obtain ⟨member, same⟩ := waits listed
    rw [same, place listed]
    exact .inr ⟨member, stored, level⟩

theorem Journal.place_other {k : Journal T W} {i : Nat} (since : k.since i = j.since i)
    (receipts : k.receipts i = j.receipts i) : k.place i = j.place i := by
  rw [Journal.place, Journal.place, since, receipts]

theorem Performed.awaited (sound : Sound s j.sent j.place) (near : ∀ r, (s.receivers r).dropped = false →
    s.Near j.sent (j.place r)) (awaited : Awaited s j)
    (performed : Performed s t j.sent j.place a answer wakers sent' cursor') :
    Awaited t ((j.wakes wakers).told s a answer) := by
  cases performed with
  | sent _ _ notified => exact notified.awaited awaited rfl rfl rfl fun _ => rfl
  | closed _ _ notified => exact notified.awaited awaited rfl rfl rfl fun _ => rfl
  | unsent _ same =>
    subst same
    rw [Journal.wakes_nil]
    exact awaited
  | cloned _ same =>
    subst same
    rw [Journal.wakes_nil]
    exact awaited
  | left _ _ same =>
    subst same
    rw [Journal.wakes_nil]
    exact awaited
  | joined about _ same =>
    have joined : Awaited t (j.joined s) := by
      intro i
      have other (listed : i ∈ s.tail.waiters) : i ≠ s.created := by
        have made := sound.ring.made (sound.listed.listed i listed).1
        omega
      refine awaited.keeps rfl rfl ?_ (by rw [same]; rfl) ?_
      · intro listed
        exact Journal.place_other (Function.update_of_ne (other listed) _ _) rfl
      · intro listed
        rw [same]
        exact ⟨listed, Function.update_of_ne (other listed) _ _⟩
    rw [Journal.wakes_nil]
    rcases about with rfl | ⟨_, rfl, _⟩
    · exact joined
    · exact joined
  | @received r result after _ idle _ _ _ served tail _ =>
    rw [Journal.wakes_nil]
    intro i
    have other (listed : i ∈ s.tail.waiters) : i ≠ r := by
      rintro rfl
      exact (sound.listed.idle idle).2 listed
    refine awaited.keeps rfl rfl ?_ (served.positions j.sent) ?_
    · intro listed
      exact Journal.place_other rfl (Function.update_of_ne (other listed) _ _)
    · intro listed
      exact ⟨(served.waits i (other listed)).mpr listed, served.others i (other listed)⟩
  | @polled r waker result after alive taken _ _ served waits =>
    rw [Journal.wakes_nil]
    intro i
    by_cases about : i = r
    · subst about
      intro given asks
      simp only [Journal.told, Function.update_self] at asks
      cases result with
      | some result => cases asks
      | none =>
        obtain rfl := Option.some.inj asks
        obtain ⟨member, stored⟩ := waits rfl
        refine .inr ⟨member, stored, ?_⟩
        have level : j.place i = s.positions j.sent := by
          cases taken with
          | empty level =>
            rcases level with here | far
            · exact here
            · exact absurd (near i alive) far
        have placed := congrFun (Journal.place_received (r := i) (taken.advance sound.ring.positive)) i
        rw [Function.update_self] at placed
        refine placed.trans ((taken.advance sound.ring.positive).trans ?_)
        change j.place i + 0 = t.positions j.sent
        rw [served.positions, level]
        rfl
    · refine awaited.keeps (Function.update_of_ne about _ _) (Function.update_of_ne about _ _) ?_
        (served.positions j.sent) ?_
      · intro _
        exact Journal.place_other rfl (Function.update_of_ne about _ _)
      · intro listed
        exact ⟨(served.waits i about).mpr listed, served.others i about⟩
  | @cancelled r _ changed _ =>
    rw [Journal.wakes_nil]
    intro i
    by_cases about : i = r
    · intro given asks
      subst about
      simp [Journal.told] at asks
    · refine awaited.keeps (Function.update_of_ne about _ _) rfl (fun _ => rfl) (changed.alike.positions j.sent) ?_
      intro listed
      rw [changed.waiters]
      exact ⟨(List.mem_erase_of_ne about).mpr listed, changed.others i about⟩
  | @gone r _ idle _ _ gone =>
    rw [Journal.wakes_nil]
    intro i
    refine awaited.keeps rfl rfl (fun _ => rfl) ?_ ?_
    · change t.positions j.sent = _
      rw [Broadcast.positions, gone.closed]
      rfl
    · intro listed
      have other : i ≠ r := by
        rintro rfl
        exact (sound.listed.idle idle).2 listed
      rw [gone.waits]
      exact ⟨listed, gone.others i other⟩

end Journals

section Delivering

variable [Wakers W]

def Within (r : Broadcast T W × Journal T W) : Prop :=
  ∀ i < r.1.created, (r.1.receivers i).dropped = false → r.1.Near r.2.sent (r.2.place i)

/-- No receiver falls so far behind that it cannot tell any more. -/
def bounded (T W : Type) [Wakers W] (capacity : Nat) :
    System (Broadcast T W × Journal T W) (BroadcastAction T W) Fault where
  initial := (journaled T W capacity).initial
  within := Within
  step := (journaled T W capacity).step

omit [Wakers W] in
theorem Within.near (sound : Sound s j.sent j.place) (within : Within (s, j)) (r : Nat)
    (alive : (s.receivers r).dropped = false) : s.Near j.sent (j.place r) :=
  within r (sound.ring.made alive) alive

omit [Wakers W] in
theorem Within.recent (sound : Sound s j.sent j.place) (within : Within (s, j)) : Recent s j.sent j.place := by
  intro r alive
  have near : s.positions j.sent + s.len ≤ j.place r + 2 ^ 64 := within.near sound r alive
  have positive := sound.ring.positive
  omega

theorem bounded_kept {capacity : Nat} (reached : (bounded T W capacity).Reachable (s, j)) :
    Sound s j.sent j.place ∧ Known s j ∧ Awaited s j := by
  apply System.Reachable.preserved
    (P := fun r : Broadcast T W × Journal T W => Sound r.1 r.2.sent r.2.place ∧ Known r.1 r.2 ∧ Awaited r.1 r.2) _ _ reached
  · rintro ⟨s, j⟩ ⟨made, rfl⟩
    refine ⟨(channel_made made).sound, ⟨fun _ _ => rfl, fun _ => trivial, ?_⟩, ?_⟩
    · intro r answered
      exact absurd answered (List.not_mem_nil)
    · intro r waker asks
      cases asks
  · rintro ⟨s, j⟩ a r ⟨sound, known, awaited⟩ within stepped
    have observed : (journaled T W capacity).step (s, j) a = .next r := stepped
    obtain ⟨t, step, rfl⟩ := System.observed_step observed
    obtain ⟨answer, wakers, sent', cursor', ran, performed⟩ := step_performs sound (within.recent sound) step
    have sent := Performed.told_sent (j := j.wakes wakers) performed
    have place := Performed.told_place (j := j.wakes wakers) sound.ring.positive
      (known.fresh s.created (le_refl _)) performed
    have kept := Performed.known (j := j.wakes wakers) sound ⟨known.fresh, known.told, known.closed⟩ performed
    have waits := performed.awaited sound (within.near sound) awaited
    have seen : j.observe s a t = (j.wakes wakers).told s a answer := by
      simp only [Journal.observe, ran]
      rfl
    change Sound t (j.observe s a t).sent (j.observe s a t).place ∧ Known t (j.observe s a t) ∧ Awaited t (j.observe s a t)
    rw [seen, sent, place]
    exact ⟨performed.sound sound, kept, waits⟩

/-- The answer that is due: how many of the next values have been overwritten, if some have, or the next value. -/
def Due (sent : List T) (len c : Nat) (result : Except TryRecvError T) : Prop :=
  (∀ n, result = .error (.lagged n) ↔ n ≠ 0#64 ∧ n.toNat = sent.length - len - c) ∧
    ∀ value, result = .ok value ↔ sent.length ≤ c + len ∧ sent[c]? = some value

omit [Wakers W] in
theorem Taken.due {c after : Nat} {result : Except TryRecvError T} (positive : 0 < s.len) (near : s.Near sent c)
    (taken : Taken s sent c result after) : Due sent s.len c result := by
  have bound : s.positions sent + s.len ≤ c + 2 ^ 64 := near
  have less : sent.length ≤ s.positions sent := Nat.le_add_right _ _
  have nothing (none : sent.length - s.len - c = 0) (n : BitVec 64) : ¬(n ≠ 0#64 ∧ n.toNat = sent.length - s.len - c) := by
    rintro ⟨some, same⟩
    rw [none] at same
    exact some (BitVec.eq_of_toNat_eq same)
  have beyond (past : sent.length ≤ c) (value : T) : ¬(sent.length ≤ c + s.len ∧ sent[c]? = some value) := by
    rintro ⟨_, found⟩
    rw [List.getElem?_eq_none past] at found
    cases found
  cases taken with
  | value _ retained found =>
    obtain ⟨below, within⟩ := retained
    refine ⟨fun n => ?_, fun value => ?_⟩
    · simp only [nothing (by omega) n, iff_false]
      exact fun same => nomatch same
    · simp only [within, found, true_and, Except.ok.injEq, Option.some.injEq]
  | lagged _ apart =>
    refine ⟨fun n => ?_, fun value => ?_⟩
    · have amount : (BitVec.ofNat 64 (sent.length - s.len - c)).toNat = sent.length - s.len - c := by
        rw [BitVec.toNat_ofNat, Nat.mod_eq_of_lt (by omega)]
      simp only [Except.error.injEq, TryRecvError.lagged.injEq]
      constructor
      · rintro rfl
        refine ⟨?_, amount⟩
        intro zero
        rw [zero] at amount
        have none : (0#64).toNat = 0 := rfl
        omega
      · rintro ⟨_, same⟩
        exact BitVec.eq_of_toNat_eq (amount.trans same.symm)
    · have early : ¬sent.length ≤ c + s.len := by omega
      simp [early]
  | closed _ _ here =>
    refine ⟨fun n => ?_, fun value => ?_⟩
    · simp only [nothing (by omega) n, iff_false]
      exact fun same => nomatch same
    · simp only [beyond here.ge value, iff_false]
      exact fun same => nomatch same
  | empty level =>
    have past : sent.length ≤ c := by
      rcases level with here | far
      · omega
      · exact absurd near far
    refine ⟨fun n => ?_, fun value => ?_⟩
    · simp only [nothing (by omega) n, iff_false]
      exact fun same => nomatch same
    · simp only [beyond past value, iff_false]
      exact fun same => nomatch same

omit [Wakers W] in
theorem Taken.resumed {c after : Nat} {result : Except TryRecvError T} (positive : 0 < s.len)
    (near : s.Near sent c) (some : s.len ≤ sent.length) (here : c = sent.length - s.len)
    (taken : Taken s sent c result after) : ∃ value, result = .ok value ∧ sent[sent.length - s.len]? = Option.some value := by
  cases taken with
  | @value value _ _ found => exact ⟨value, rfl, here ▸ found⟩
  | lagged _ apart => omega
  | closed _ _ past => omega
  | empty level =>
    rcases level with past | far
    · have less : sent.length ≤ s.positions sent := Nat.le_add_right _ _
      omega
    · exact absurd near far

/-- Each receiver gets what is sent, in order, and is told how much of it has been lost. -/
theorem delivered {capacity : Nat} (reached : (bounded T W capacity).Reachable (s, j)) :
    -- What a receiver has been told is what has been sent since it came, but for what it was told it missed.
    (∀ r, Told j.sent (j.since r) (j.receipts r)) ∧
    (∀ r a, Within (s, j) → receives r a → s.allowed a = true →
      ∃ answer t result, s.perform a = .ok (answer, t, []) ∧ answer.receipt = some result ∧
        Due j.sent s.len (j.place r) result ∧
        -- After Lagged the next answer is the oldest value that is retained.
        ∀ n, result = .error (.lagged n) → Within (t, j.observe s a t) → ∀ b, receives r b → t.allowed b = true →
          ∃ answer u value, t.perform b = .ok (answer, u, []) ∧ answer.receipt = some (.ok value) ∧
            j.sent[j.sent.length - s.len]? = some value) ∧
    -- A recv that is pending has been woken if something has been sent since.
    ∀ r waker, j.asked r = some waker → j.place r < s.positions j.sent → waker ∈ j.woken r := by
  obtain ⟨sound, known, awaited⟩ := bounded_kept reached
  refine ⟨known.told, ?_, ?_⟩
  · intro r a within receives allowed
    obtain ⟨alive, answer, t, result, after, ran, told, taken, served, performed⟩ :=
      receive_taken sound (within.recent sound) receives allowed
    have positive := sound.ring.positive
    refine ⟨answer, t, result, ran, told, taken.due positive (within.near sound r alive), ?_⟩
    rintro n rfl within' b receives' allowed'
    have stepped : s.step a = .next t := by
      rw [step, if_pos allowed, ran]
      rfl
    have reached' : (bounded T W capacity).Reachable (t, j.observe s a t) := by
      refine reached.step within (a := a) ?_
      simp [bounded, journaled, System.observed, machine, stepped]
    obtain ⟨sound', _, _⟩ := bounded_kept reached'
    obtain ⟨alive', answer', u, result', _, ran', told', taken', _, _⟩ :=
      receive_taken sound' (within'.recent sound') receives' allowed'
    have seen : j.observe s a t = j.told s a answer := by
      simp only [Journal.observe, ran, List.append_nil]
    have sent : (j.observe s a t).sent = j.sent := by
      rw [seen]
      exact performed.told_sent
    have place : (j.observe s a t).place r = after := by
      rw [seen, performed.told_place positive (known.fresh s.created (le_refl _)), Function.update_self]
    obtain ⟨fits, amount⟩ : s.len ≤ j.sent.length ∧ after = j.sent.length - s.len := by
      cases taken with
      | lagged _ apart => exact ⟨by omega, rfl⟩
    have near' := within'.near sound' r alive'
    rw [place, sent] at taken'
    rw [place, sent] at near'
    obtain ⟨value, rfl, oldest⟩ := taken'.resumed sound'.ring.positive near' (by rw [served.len]; exact fits)
      (by rw [served.len]; exact amount)
    rw [served.len] at oldest
    exact ⟨answer', u, value, ran', told', oldest⟩
  · intro r waker asks sent
    rcases awaited r waker asks with woken | ⟨_, _, level⟩
    · exact woken
    · omega

instance (s : Broadcast T W) (sent : List T) (c : Nat) : Decidable (s.Near sent c) :=
  inferInstanceAs (Decidable (_ ≤ _))

instance (capacity : Nat) : DecidablePred (bounded T W capacity).within := fun r =>
  inferInstanceAs (Decidable (∀ i < r.1.created, (r.1.receivers i).dropped = false → r.1.Near r.2.sent (r.2.place i)))

/-- With positions that are words of 64 bits, a receiver can be so far behind that nothing looks new to it. -/
theorem empty_though_overwritten : ∃ (s : Broadcast Unit Nat) (j : Journal Unit Nat),
    (journaled Unit Nat 2).Reachable (s, j) ∧ j.sent.length < 2 ^ 64 ∧ s.allowed (.tryRecv 0) = true ∧
      j.place 0 + s.len < j.sent.length ∧ ∃ t, s.tryRecv 0 = .ok (.error .empty, t) := by
  obtain ⟨s, j, flooded⟩ := flooded (2 ^ 64 - 1)
  obtain ⟨cursor, sound, recent⟩ := journaled_sound flooded.reached
  have alive : (s.receivers 0).dropped = false := by rw [flooded.receiver]
  have allowed : s.allowed (.tryRecv 0) = true := by simp [Broadcast.allowed, flooded.receiver]
  have place : j.place 0 = 0 := by simp [Journal.place, flooded.told]
  have closed := sound.opened (by rw [flooded.numTx]; decide)
  have positions : s.positions j.sent = 2 ^ 64 - 1 := by
    rw [Broadcast.positions, closed, flooded.sent]
    rfl
  obtain ⟨result, t, after, ran, taken, _⟩ := tryRecv_taken sound.ring sound.listed alive (recent 0 alive)
  have first : cursor 0 = 0 := by
    obtain ⟨next, least⟩ := sound.ring.next 0 alive
    rw [flooded.receiver] at next
    have words := congrArg BitVec.toNat next
    simp only [BitVec.toNat_ofNat] at words
    omega
  have far : ¬s.Near j.sent (cursor 0) := by
    rw [Near, positions, flooded.len, first]
    omega
  refine ⟨s, j, flooded.reached, ?_, allowed, ?_, ?_⟩
  · rw [flooded.sent]
    omega
  · rw [place, flooded.len, flooded.sent]
    omega
  · cases taken with
    | value near _ _ => exact absurd near far
    | lagged near _ => exact absurd near far
    | closed near _ _ => exact absurd near far
    | empty _ => exact ⟨t, ran⟩

/-- One receiver waits for the first value, the other lags by two, and the close marker takes the oldest slot. -/
def exampleDelivery : List (BroadcastAction Nat Nat) :=
  [.subscribe, .pollRecv 0 7, .send 1, .send 2, .send 3, .send 4, .dropSender, .tryRecv 1]

theorem exampleDelivery_told :
    ((channel 2).bind fun s => (bounded Nat Nat 2).run (s, .first) exampleDelivery).map (fun r =>
      (r.2.asked 0, decide (r.2.place 0 < r.1.positions r.2.sent), r.2.receipts 1)) =
        some (some 7, true, [.error (.lagged 2#64)]) := by
  decide +kernel

theorem delivered_run : ∃ j : Journal Nat Nat,
    Told j.sent (j.since 1) [.error (.lagged 2#64)] ∧ 7 ∈ j.woken 0 := by
  obtain ⟨⟨s, j⟩, ran, facts⟩ := Option.map_eq_some_iff.mp exampleDelivery_told
  obtain ⟨first, made, ran⟩ := Option.bind_eq_some_iff.mp ran
  simp only [Prod.mk.injEq, decide_eq_true_eq] at facts
  obtain ⟨asks, sent, receipts⟩ := facts
  have start : (bounded Nat Nat 2).Reachable (first, .first) := .initial ⟨made, rfl⟩
  obtain ⟨told, _, woken⟩ := delivered (System.reachable_run _ start ran)
  refine ⟨j, ?_, woken 0 7 asks sent⟩
  rw [← receipts]
  exact told 1

end Delivering

end Osaka.Sync.Broadcast
