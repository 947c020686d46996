import Osaka.Sync.OnceCellRuns

set_option autoImplicit false

namespace Osaka.Sync.OnceCell

open Transitions

variable {T W : Type}

section Accounts

structure Account (T W : Type) where
  -- what has been written into the cell, and what the accesses have returned
  written : List T
  accessed : List T
  -- the calls that have been told to wait, in the order in which they were first told so
  waiting : List Nat
  -- the waker that a call was polled with when it was last told to wait
  asked : Nat → Option W

def Account.note (r : Account T W) (m : OnceCell T W) (a : OnceAction T W) (answer : OnceAnswer T) : Account T W :=
  let r := { r with written := r.written ++ writes a answer, accessed := r.accessed ++ accesses answer }
  match a, answer with
  | .poll c waker, .pending =>
    { r with
      waiting := if m.calls c = .called then r.waiting ++ [c] else r.waiting
      asked := Function.update r.asked c (some waker) }
  | _, _ => r

variable {m t : OnceCell T W} {r : Account T W} {a : OnceAction T W} {answer : OnceAnswer T} {c d i : Nat}

structure Faithful (m : OnceCell T W) (r : Account T W) : Prop where
  written : r.written = m.value.toList
  accessed : ∀ value ∈ r.accessed, m.value = some value
  past : ∀ c ∈ r.waiting, c < m.made ∧ m.calls c ≠ .called
  order : r.waiting.Pairwise fun c d => ∀ i j, m.calls c = .acquiring i → m.calls d = .acquiring j → i < j
  listed : ∀ c i, m.calls c = .acquiring i → c ∈ r.waiting
  asked : ∀ c i, m.calls c = .acquiring i → i ∈ m.semaphore.waiters.list →
    (m.semaphore.acquires i).node.waker = r.asked c

theorem note_stays (told : ∀ c waker, a = .poll c waker → answer ≠ .pending) :
    r.note m a answer =
      { r with written := r.written ++ writes a answer, accessed := r.accessed ++ accesses answer } := by
  unfold Account.note
  split
  next c waker => exact absurd rfl (told c waker rfl)
  next => rfl

theorem Performed.stable (performed : Performed m t a answer) {value : T}
    (stored : m.value = some value) : t.value = some value := by
  have written := performed.value
  rw [stored, Option.toList_some, List.singleton_append] at written
  cases after : t.value with
  | none => simp [after] at written
  | some other =>
    rw [after, Option.toList_some] at written
    rw [(List.cons.inj written).1]

theorem Faithful.written_accessed (faithful : Faithful m r) (performed : Performed m t a answer) :
    r.written ++ writes a answer = t.value.toList ∧
      ∀ value ∈ r.accessed ++ accesses answer, t.value = some value := by
  have value := performed.value
  refine ⟨by rw [faithful.written, value], ?_⟩
  intro found member
  rcases List.mem_append.mp member with before | now
  · exact performed.stable (faithful.accessed found before)
  · exact performed.accesses found now

theorem Faithful.stays (faithful : Faithful m r) (performed : Performed m t a answer)
    (told : ∀ c waker, a = .poll c waker → answer ≠ .pending) (stays : Stays m t) :
    Faithful t (r.note m a answer) := by
  obtain ⟨written, accessed⟩ := faithful.written_accessed performed
  rw [note_stays told]
  constructor
  · exact written
  · exact accessed
  · intro c member
    obtain ⟨made, past⟩ := faithful.past c member
    refine ⟨made.trans_le stays.made, fun called => ?_⟩
    rcases stays.called c called with before | beyond
    · exact past before
    · omega
  · exact faithful.order.imp fun before i j first second =>
      before i j (stays.acquiring _ i first) (stays.acquiring _ j second)
  · exact fun c i waiting => faithful.listed c i (stays.acquiring c i waiting)
  · intro c i waiting listed
    rw [stays.stored i listed]
    exact faithful.asked c i (stays.acquiring c i waiting) (stays.list i listed)

theorem Faithful.waits (sound : Sound m) (faithful : Faithful m r) {waker : W}
    (performed : Performed m t (.poll c waker) .pending) (waits : Waits m t c i waker) :
    Faithful t (r.note m (.poll c waker) .pending) := by
  obtain ⟨written, accessed⟩ := faithful.written_accessed performed
  have self : t.calls c = .acquiring i := by rw [waits.calls, Function.update_self]
  have other (d : Nat) (apart : d ≠ c) : t.calls d = m.calls d := by rw [waits.calls, Function.update_of_ne apart]
  have going : c < m.made := by
    by_contra beyond
    have finished := sound.unmade c (by omega)
    rcases waits.before with waiting | ⟨called, _⟩ <;> simp_all
  have began (d : Nat) : d ∈ (r.note m (.poll c waker) .pending).waiting ↔ d ∈ r.waiting ∨ d = c := by
    change d ∈ (if m.calls c = .called then r.waiting ++ [c] else r.waiting) ↔ _
    rcases waits.before with waiting | ⟨called, _⟩
    · have member := faithful.listed c i waiting
      rw [waiting, if_neg (by simp)]
      grind -linarith
    · rw [if_pos called]
      simp
  constructor
  · exact written
  · exact accessed
  · intro d member
    rw [waits.made]
    by_cases same : d = c
    · exact ⟨same ▸ going, by simp [same, self]⟩
    · rw [other d same]
      exact faithful.past d (((began d).mp member).resolve_right same)
  · change (if m.calls c = .called then r.waiting ++ [c] else r.waiting).Pairwise _
    rcases waits.before with waiting | ⟨called, new⟩
    · have same : t.calls = m.calls := by rw [waits.calls, ← waiting, Function.update_eq_self]
      rw [waiting, if_neg (by simp), same]
      exact faithful.order
    · rw [if_pos called, List.pairwise_append]
      have apart (d : Nat) (member : d ∈ r.waiting) : d ≠ c := by
        rintro rfl
        exact (faithful.past d member).2 called
      refine ⟨?_, List.pairwise_singleton _ c, ?_⟩
      · apply faithful.order.imp_of_mem
        intro d e first second before j k
        rw [other d (apart d first), other e (apart e second)]
        exact before j k
      · intro d member e same j k first second
        obtain rfl := List.mem_singleton.mp same
        rw [other d (apart d member)] at first
        rw [self, OnceCall.acquiring.injEq] at second
        rw [← second, new]
        exact Semaphore.made_of sound.wellFormed.formed (sound.waits d j first).1
  · intro d j waiting
    rw [began]
    by_cases same : d = c
    · exact .inr same
    · rw [other d same] at waiting
      exact .inl (faithful.listed d j waiting)
  · intro d j waiting listed
    change _ = Function.update r.asked c (some waker) d
    by_cases same : d = c
    · rw [same, self, OnceCall.acquiring.injEq] at waiting
      rw [same, Function.update_self, ← waiting]
      exact waits.waker
    · have apart : j ≠ i := by
        rintro rfl
        exact same (performed.sound.own d c j waiting self)
      rw [Function.update_of_ne same, waits.others j apart]
      rw [other d same] at waiting
      exact faithful.asked d j waiting ((waits.list j listed).resolve_right apart)

theorem note_faithful (sound : Sound m) (faithful : Faithful m r) (performed : Performed m t a answer) :
    Faithful t (r.note m a answer) := by
  rcases performed.waits with ⟨told, stays⟩ | ⟨c, i, waker, rfl, rfl, waits⟩
  · exact faithful.stays performed told stays
  · exact faithful.waits sound performed waits

variable [Wakers W]

def Account.observe (r : Account T W) (m : OnceCell T W) (a : OnceAction T W) (_ : OnceCell T W) : Account T W :=
  match m.perform a with
  | .ok (answer, _, _) => r.note m a answer
  | .error _ => r

def recorded (T W : Type) [Wakers W] (value : Option T) :
    System (OnceCell T W × Account T W) (OnceAction T W) OnceFault :=
  (machine T W value).observed ⟨value.toList, [], [], fun _ => none⟩ Account.observe

instance (value : Option T) : DecidablePred (recorded T W value).within := fun _ => inferInstanceAs (Decidable True)

theorem recorded_faithful {value : Option T} (reached : (recorded T W value).Reachable (m, r)) : Faithful m r := by
  apply System.Reachable.watched (P := Faithful) _ _ reached
  · rintro _ rfl
    cases value <;> constructor <;> simp [newWith, new, fromValue]
  · intro m r a t before faithful _ stepped
    obtain ⟨sound, queued⟩ := reachable_sound before
    obtain ⟨answer, wakers, ran, performed⟩ := (step_kept sound queued a).next stepped
    rw [Account.observe, ran]
    exact note_faithful sound faithful performed

end Accounts

section Turns

variable {m t : OnceCell T W} {r : Account T W} {a : OnceAction T W} {c d i : Nat}

/-- The ways in which a call with the permit ends without a value. -/
inductive Yields (m : OnceCell T W) : OnceAction T W → Nat → Prop where
  | failed {c : Nat} : m.calls c = .initialising → m.fallible c = true → Yields m (.initialise c .failed) c
  | panicked {c : Nat} : m.calls c = .initialising → Yields m (.initialise c .panicked) c
  | cancelled {c : Nat} : m.calls c = .initialising → Yields m (.cancel c) c
  -- The permit is its own, but it has not been polled yet.
  | unpolled {c i : Nat} : m.calls c = .acquiring i → 0 < m.semaphore.assigned i → Yields m (.cancel c) c

/-- The other calls that wait, the one that has waited longest first. -/
def Account.others (r : Account T W) (m : OnceCell T W) (c : Nat) : List Nat :=
  r.waiting.filter fun d => decide (d ≠ c) &&
    match m.calls d with
    | .acquiring _ => true
    | .called | .initialising | .finished => false

/-- The permit is with the one that has waited longest, which is woken, or it is free. -/
def Passed (t : OnceCell T W) (r : Account T W) (wakers : List W) : List Nat → Prop
  | [] => t.semaphore.availablePermits = 1
  | d :: _ => ∃ i waker, t.calls d = .acquiring i ∧ 0 < t.semaphore.assigned i ∧ r.asked d = some waker ∧
    wakers = [waker]

theorem mem_others : d ∈ r.others m c ↔ d ∈ r.waiting ∧ d ≠ c ∧ ∃ i, m.calls d = .acquiring i := by
  unfold Account.others
  cases phase : m.calls d <;> simp [phase]

theorem Faithful.others (faithful : Faithful m r) (c : Nat) : (r.others m c).Pairwise fun d e =>
    ∀ i j, m.calls d = .acquiring i → m.calls e = .acquiring j → i < j :=
  faithful.order.filter _

theorem passes_turn (sound : Sound m) (queued : Queued m) (faithful : Faithful m r) {n : Semaphore W} {wakers : List W}
    {served rest : List Nat} (wf : n.WellFormed) (none : n.balance = 0) (opened : n.isClosed = false)
    (same : ∀ d j, d ≠ c → m.calls d = .acquiring j → n.acquires j = m.semaphore.acquires j)
    (list : n.waiters.list = m.semaphore.waiters.list) (apart : ∀ i, m.calls c = .acquiring i → i ∉ n.waiters.list)
    (released : n.Released 1 served rest t.semaphore wakers)
    (kept : ∀ d i, d ≠ c → m.calls d = .acquiring i → t.calls d = .acquiring i) :
    Passed t r wakers (r.others m c) := by
  have owner (j : Nat) (listed : j ∈ n.waiters.list) : ∃ d ∈ r.others m c, m.calls d = .acquiring j := by
    rw [list] at listed
    obtain ⟨d, waiting⟩ := sound.owned j (sound.wellFormed.waiting j listed).2.1
    refine ⟨d, mem_others.mpr ⟨faithful.listed d j waiting, ?_, j, waiting⟩, waiting⟩
    rintro rfl
    exact apart j waiting (list ▸ listed)
  have unit (j : Nat) (listed : j ∈ n.waiters.list) : (n.acquires j).numPermits = 1 := by
    obtain ⟨d, member, waiting⟩ := owner j listed
    rw [same d j (mem_others.mp member).2.1 waiting]
    exact (sound.waits d j waiting).2
  obtain ⟨oldest, free⟩ := released.passes wf none unit
  cases others : r.others m c with
  | nil =>
    apply free
    rw [List.eq_nil_iff_forall_not_mem]
    intro j listed
    obtain ⟨d, member, _⟩ := owner j listed
    simp [others] at member
  | cons d later =>
    have member : d ∈ r.others m c := by simp [others]
    obtain ⟨_, other, i, waiting⟩ := mem_others.mp member
    have stays := same d i other waiting
    have listed : i ∈ n.waiters.list := by
      have held : (n.acquires i).held = 0 := by
        unfold Semaphore.balance at none
        have made : i < n.created := by
          apply Semaphore.made_of wf.formed
          rw [stays]
          exact (sound.waits d i waiting).1
        have sum : n.heldSum = 0 := by omega
        exact (Finset.sum_eq_zero_iff.mp sum) i (Finset.mem_range.mpr made)
      rw [stays] at held
      have asked := (sound.waits d i waiting).2
      have queues := queued d i waiting
      have missing : 0 < (m.semaphore.acquires i).node.state := by
        simp only [Acquire.held, queues, if_true] at held
        omega
      rw [← stays] at queues missing
      exact (wf.unserved i queues missing).resolve_right (by rw [← wf.closed, opened]; decide)
    obtain ⟨first, more, cons⟩ := List.exists_cons_of_ne_nil (List.ne_nil_of_mem listed)
    have front : first = i := by
      have turn : (first :: more).Pairwise (· < ·) := by
        rw [← cons, list]
        exact sound.turn
      have least : first ≤ i := by
        rw [cons] at listed
        rcases List.mem_cons.mp listed with rfl | behind
        · exact le_refl _
        · exact (List.rel_of_pairwise_cons turn behind).le
      obtain ⟨e, member', waiting'⟩ := owner first (by simp [cons])
      rw [others] at member'
      rcases List.mem_cons.mp member' with rfl | behind
      · rw [waiting, OnceCall.acquiring.injEq] at waiting'
        exact waiting'.symm
      · have order := faithful.others c
        rw [others] at order
        have younger := List.rel_of_pairwise_cons order behind i first waiting waiting'
        omega
    obtain ⟨assigned, woken⟩ := oldest i more (front ▸ cons)
    rw [list] at listed
    have asked := faithful.asked d i waiting listed
    obtain ⟨waker, stored⟩ := Option.ne_none_iff_exists'.mp (sound.wellFormed.waker i listed)
    rw [stays, stored] at woken
    exact ⟨i, waker, kept d i other waiting, assigned, by rw [← asked, stored], woken⟩

variable [Wakers W]

theorem yields_passed (sound : Sound m) (queued : Queued m) (faithful : Faithful m r) (yields : Yields m a c) :
    ∃ answer t wakers, m.perform a = .ok (answer, t, wakers) ∧ t.calls c = .finished ∧
      Passed t r wakers (r.others m c) := by
  have wf := sound.wellFormed
  have kept (u : Semaphore W) (d i : Nat) (other : d ≠ c) (waiting : m.calls d = .acquiring i) :
      ({ m with semaphore := u }.setCall c .finished).calls d = .acquiring i := by
    change Function.update m.calls c .finished d = _
    rw [Function.update_of_ne other]
    exact waiting
  have initialising (runs : m.calls c = .initialising) : ∃ t wakers, m.giveUp c = .ok (t, wakers) ∧
      t.calls c = .finished ∧ Passed t r wakers (r.others m c) := by
    obtain ⟨unset, none, _⟩ := sound.initialising runs
    obtain ⟨u, wakers, served, rest, ran, released, _, _⟩ := giveUp_ok sound runs
    refine ⟨_, _, ran, Function.update_self .., ?_⟩
    exact passes_turn sound queued faithful wf none (sound.closed.trans unset) (fun _ _ _ _ => rfl) rfl
      (by simp [runs]) released (kept u)
  cases yields with
  | failed runs fallible | panicked runs =>
    obtain ⟨t, wakers, ran, finished, passed⟩ := initialising runs
    exact ⟨_, t, wakers, by rw [perform, initialise, ran]; rfl, finished, passed⟩
  | cancelled runs =>
    obtain ⟨t, wakers, ran, finished, passed⟩ := initialising runs
    exact ⟨_, t, wakers, by rw [perform, cancel, runs]; dsimp only; rw [ran]; rfl, finished, passed⟩
  | @unpolled _ i waiting assigned =>
    rw [Semaphore.assigned_eq wf] at assigned
    obtain ⟨unfinished, asked⟩ := sound.waits c i waiting
    have made := Semaphore.made_of wf.formed unfinished
    have back := Semaphore.cancelled_balance made
    have most : (m.semaphore.acquires i).held ≤ 1 := by
      unfold Acquire.held
      split <;> omega
    obtain ⟨unset, one⟩ : m.valueSet = false ∧ m.semaphore.balance = 1 := by
      cases sound.permit with
      | there unset one idle => exact ⟨unset, one⟩
      | taken d unset none only | gone set none idle => omega
    obtain ⟨u, wakers, served, rest, ran, released, _, _⟩ := dropAcquire_ok sound waiting
    have held : (m.semaphore.acquires i).held = 1 := by omega
    rw [held] at released
    have changed := Semaphore.cancelled_changed m.semaphore i
    have unlisted : i ∉ m.semaphore.waiters.list := by
      intro listed
      have missing := (wf.waiting i listed).2.2.1
      simp only [Acquire.held, asked] at held
      split at held <;> omega
    have list : (m.semaphore.cancelled i).waiters.list = m.semaphore.waiters.list := by
      rw [changed.waiters]
      exact List.erase_of_not_mem unlisted
    refine ⟨.nothing, { m with semaphore := u }.setCall c .finished, wakers, ?_, Function.update_self .., ?_⟩
    · rw [perform, cancel, waiting]
      dsimp only
      rw [ran]
      rfl
    · apply passes_turn sound queued faithful (Semaphore.cancelled_wellFormed wf) (by omega)
        (changed.closed.trans (sound.closed.trans unset)) _ list _ released (kept u)
      · intro d j other waits
        have apart : j ≠ i := by
          rintro rfl
          exact other (sound.own d c j waits waiting)
        rw [changed.apply, if_neg apart]
      · intro j waits
        rw [waiting, OnceCall.acquiring.injEq] at waits
        rw [list, ← waits]
        exact unlisted

theorem assigned_begins (sound : Sound m) (queued : Queued m) (waiting : m.calls c = .acquiring i)
    (assigned : 0 < m.semaphore.assigned i) (waker : W) :
    ∃ t wakers, m.poll c waker = .ok (.begun, t, wakers) ∧ t.calls c = .initialising := by
  rw [Semaphore.assigned_eq sound.wellFormed] at assigned
  obtain ⟨answer, t, wakers, ran, _, _, reached⟩ := pollAcquire_ok sound waiting
    (fun unqueued => absurd (queued c i waiting) (by simp [unqueued])) waker
  cases reached with
  | waits unheld => omega
  | finds value unheld => omega
  | begins goes begun => exact ⟨t, wakers, by rw [poll, waiting]; exact ran, begun⟩

omit [Wakers W] in
/-- Someone holds the permit or has been assigned it, as long as it is not forgotten. -/
theorem Sound.taken_iff (sound : Sound m) :
    (∃ c, m.calls c = .initialising ∨ ∃ i, m.calls c = .acquiring i ∧ 0 < m.semaphore.assigned i) ↔
      m.valueSet = false ∧ m.semaphore.availablePermits = 0 := by
  have wf := sound.wellFormed
  have unassigned (none : m.semaphore.heldSum = 0) (i : Nat) : m.semaphore.assigned i = 0 := by
    rw [Semaphore.assigned_eq wf]
    by_cases made : i < m.semaphore.created
    · exact (Finset.sum_eq_zero_iff.mp none) i (Finset.mem_range.mpr made)
    · simp [Acquire.held, wf.done i (wf.unmade i (by omega))]
  cases permit : sound.permit with
  | there unset one idle =>
    unfold Semaphore.balance at one
    constructor
    · rintro ⟨c, runs | ⟨i, _, assigned⟩⟩
      · exact absurd runs (idle c)
      · refine ⟨unset, ?_⟩
        by_contra some
        have none := unassigned (by omega) i
        omega
    · rintro ⟨_, none⟩
      have some : m.semaphore.heldSum ≠ 0 := by omega
      obtain ⟨i, _, held⟩ := Finset.exists_ne_zero_of_sum_ne_zero some
      have queued : (m.semaphore.acquires i).queued = true := by
        by_contra unqueued
        simp [Acquire.held, unqueued] at held
      obtain ⟨c, waiting⟩ := sound.owned i queued
      refine ⟨c, .inr ⟨i, waiting, ?_⟩⟩
      rw [Semaphore.assigned_eq wf]
      omega
  | taken c unset none only =>
    unfold Semaphore.balance at none
    exact ⟨fun _ => ⟨unset, by omega⟩, fun _ => ⟨c, .inl ((only c).mpr rfl)⟩⟩
  | gone set none idle =>
    unfold Semaphore.balance at none
    constructor
    · rintro ⟨c, runs | ⟨i, _, assigned⟩⟩
      · exact absurd runs (idle c)
      · have none := unassigned (by omega) i
        omega
    · rintro ⟨unset, _⟩
      rw [set] at unset
      exact absurd unset (by decide)

omit [Wakers W] in
theorem set_fails_iff (sound : Sound m) (given : T) :
    ∃ result t wakers, m.set given = .ok (result, t, wakers) ∧
      (result = .error (.alreadyInitializedError given) ↔ m.value.isSome = true) ∧
      (result = .error (.initializingError given) ↔
        ∃ c, m.calls c = .initialising ∨ ∃ i, m.calls c = .acquiring i ∧ 0 < m.semaphore.assigned i) ∧
      (result = .ok () ↔ t.value = some given ∧ m.value = none) := by
  obtain ⟨result, t, wakers, ran, _, came⟩ := set_ok sound given
  refine ⟨result, t, wakers, ran, ?_⟩
  rw [sound.taken_iff, sound.present, ← Option.isNone_iff_eq_none, ← Option.not_isSome, sound.present]
  cases came with
  | present set same => simp [set]
  | busy unset none same => simp [unset, none, same, sound.empty unset]
  | set unset available one goes stored => simp [unset, available, stored]

theorem set_once {value : Option T} (reached : (recorded T W value).Reachable (m, r)) :
    -- the cell is written at most once, and each access that has succeeded has returned what is written
    r.written.length ≤ 1 ∧ r.written = m.value.toList ∧ (∀ found ∈ r.accessed, r.written = [found]) ∧
    (∀ a t, m.step a = .next t → ∀ found, m.value = some found → t.value = some found) ∧
    (∀ c d, m.calls c = .initialising → m.calls d = .initialising → c = d) ∧
    (m.semaphore.isClosed = true → m.initialized = true) ∧
    -- no debug_assert fails, and what is read is initialised
    (∀ a fault, m.step a ≠ .failed fault) ∧
    (∀ given, ∃ result t wakers, m.set given = .ok (result, t, wakers) ∧
      (result = .error (.alreadyInitializedError given) ↔ m.value.isSome = true) ∧
      (result = .error (.initializingError given) ↔
        ∃ c, m.calls c = .initialising ∨ ∃ i, m.calls c = .acquiring i ∧ 0 < m.semaphore.assigned i) ∧
      (result = .ok () ↔ t.value = some given ∧ m.value = none)) ∧
    -- a call that ends without a value passes its turn on, and the next one takes it when it is polled
    (∀ a c, Yields m a c → ∃ answer t wakers, m.perform a = .ok (answer, t, wakers) ∧ t.calls c = .finished ∧
      Passed t r wakers (r.others m c)) ∧
    (∀ c i waker, m.calls c = .acquiring i → 0 < m.semaphore.assigned i →
      ∃ t wakers, m.poll c waker = .ok (.begun, t, wakers) ∧ t.calls c = .initialising) := by
  obtain ⟨sound, queued⟩ := reachable_sound reached.of_observed
  have faithful := recorded_faithful reached
  refine ⟨?_, faithful.written, ?_, ?_, ?_, ?_, ?_, set_fails_iff sound, ?_, ?_⟩
  · rw [faithful.written]
    cases m.value <;> simp
  · intro found member
    rw [faithful.written, faithful.accessed found member]
    rfl
  · intro a t stepped found stored
    obtain ⟨answer, wakers, _, performed⟩ := (step_kept sound queued a).next stepped
    exact performed.stable stored
  · intro c d first second
    exact (((sound.initialising first).2.2 d).mp second).symm
  · intro closed
    rw [sound.closed] at closed
    exact closed
  · intro a
    exact (step_kept sound queued a).sound
  · exact fun a c yields => yields_passed sound queued faithful yields
  · exact fun c i waker waiting assigned => assigned_begins sound queued waiting assigned waker

/-- The initialiser of a first call fails, and that of the second is dropped. The third sets the cell. -/
def exampleTurns : List (OnceAction Nat Nat) :=
  [.getOrTryInit, .getOrInit, .getOrInit, .poll 0 7, .poll 1 8, .poll 2 9, .initialise 0 .failed, .poll 1 8,
    .cancel 1, .poll 2 9, .initialise 2 (.value 5), .get]

theorem exampleTurns_accessed :
    ((recorded Nat Nat none).run (new, ⟨[], [], [], fun _ => none⟩) exampleTurns).map (fun s => s.2.accessed) =
      some [5, 5] := by
  decide +kernel

theorem set_once_run : ∃ r : Account Nat Nat, r.accessed = [5, 5] ∧ r.written = [5] := by
  have start : (recorded Nat Nat none).Reachable (new, ⟨[], [], [], fun _ => none⟩) := .initial ⟨rfl, rfl⟩
  obtain ⟨⟨m, r⟩, ran, accessed⟩ := Option.map_eq_some_iff.mp exampleTurns_accessed
  have returned := (set_once (System.reachable_run _ start ran)).2.2.1
  have member : 5 ∈ r.accessed := by
    rw [show r.accessed = [5, 5] from accessed]
    simp
  exact ⟨r, accessed, returned 5 member⟩

end Turns

end Osaka.Sync.OnceCell
