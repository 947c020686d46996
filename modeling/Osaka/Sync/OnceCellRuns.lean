import Osaka.Sync.OnceCellSteps

set_option autoImplicit false

namespace Osaka.Sync

open Transitions

variable {T W : Type}

namespace OnceCell

variable {m t : OnceCell T W} {c i : Nat} {gone : List Nat} {waker : W} {a : OnceAction T W} {answer : OnceAnswer T}

section Performing

def writes : OnceAction T W → OnceAnswer T → List T
  | .set value, .set (.ok ()) => [value]
  | .initialise _ (.value value), .value _ => [value]
  | _, _ => []

def accesses : OnceAnswer T → List T
  | .got (some value) | .value value => [value]
  | _ => []

structure Stays (m t : OnceCell T W) : Prop where
  acquiring : ∀ d j, t.calls d = .acquiring j → m.calls d = .acquiring j
  called : ∀ d, t.calls d = .called → m.calls d = .called ∨ m.made ≤ d
  made : m.made ≤ t.made
  list : ∀ j ∈ t.semaphore.waiters.list, j ∈ m.semaphore.waiters.list
  stored : ∀ j ∈ t.semaphore.waiters.list,
    (t.semaphore.acquires j).node.waker = (m.semaphore.acquires j).node.waker

structure Waits (m t : OnceCell T W) (c i : Nat) (waker : W) : Prop where
  before : m.calls c = .acquiring i ∨ m.calls c = .called ∧ i = m.semaphore.created
  calls : t.calls = Function.update m.calls c (.acquiring i)
  made : t.made = m.made
  waker : (t.semaphore.acquires i).node.waker = some waker
  others : ∀ j, j ≠ i → t.semaphore.acquires j = m.semaphore.acquires j
  list : ∀ j ∈ t.semaphore.waiters.list, j ∈ m.semaphore.waiters.list ∨ j = i

structure Performed (m t : OnceCell T W) (a : OnceAction T W) (answer : OnceAnswer T) : Prop where
  sound : Sound t
  queued : Queued t
  value : t.value.toList = m.value.toList ++ writes a answer
  accesses : ∀ value ∈ accesses answer, t.value = some value
  waits : (∀ c waker, a = .poll c waker → answer ≠ .pending) ∧ Stays m t ∨
    ∃ c i waker, a = .poll c waker ∧ answer = .pending ∧ Waits m t c i waker

theorem Goes.stays (goes : Goes m t gone) : Stays m t :=
  ⟨fun d j waiting => ((goes.calls d j).mp waiting).1, fun d called => .inl (goes.called d called), goes.made.ge,
    fun _ => (goes.eased.list.subset ·), goes.eased.stored⟩

theorem Performed.same (sound : Sound m) (queued : Queued m) (nothing : writes a answer = [])
    (found : ∀ value ∈ OnceCell.accesses answer, m.value = some value)
    (told : ∀ c waker, a = .poll c waker → answer ≠ .pending) : Performed m m a answer := by
  constructor
  · exact sound
  · exact queued
  · rw [nothing, List.append_nil]
  · exact found
  · exact .inl ⟨told, fun _ _ => id, fun _ => .inl, le_refl _, fun _ => id, fun _ _ => rfl⟩

theorem getUnchecked_ok {value : T} (stored : m.value = some value) : m.getUnchecked = .ok value := by
  rw [getUnchecked, stored]

theorem get_ok (sound : Sound m) : m.get = .ok m.value := by
  unfold get initialized
  cases set : m.valueSet with
  | true =>
    obtain ⟨value, stored⟩ := sound.value_iff.mp set
    rw [if_pos rfl, getUnchecked_ok stored, stored]
    rfl
  | false =>
    have empty := sound.empty set
    rw [if_neg (by decide), empty]

/-- Whether a set fails, and how, is decided by where the permit is. -/
inductive SetTo (m t : OnceCell T W) (value : T) : Except (SetError T) Unit → Prop where
  | present : m.valueSet = true → t = m → SetTo m t value (.error (.alreadyInitializedError value))
  | busy : m.valueSet = false → m.semaphore.availablePermits = 0 → t = m →
      SetTo m t value (.error (.initializingError value))
  | set : m.valueSet = false → m.semaphore.availablePermits = 1 → m.semaphore.balance = 1 → Goes m t [] →
      t.value = some value → SetTo m t value (.ok ())

theorem set_ok (sound : Sound m) (value : T) :
    ∃ result t wakers, m.set value = .ok (result, t, wakers) ∧ Sound t ∧ SetTo m t value result := by
  have one : 1 < MAX_PERMIT := by decide
  have wf := sound.wellFormed
  unfold set
  rcases Bool.eq_false_or_eq_true m.valueSet with set | set
  next =>
    have full : m.initialized = true := set
    rw [if_pos full]
    exact ⟨_, _, _, rfl, sound, .present set rfl⟩
  next =>
    have empty : ¬m.initialized = true := by simp [initialized, set]
    rw [if_neg empty]
    obtain ⟨result, s, ran, tried⟩ := Semaphore.tryAcquire_tried (s := m.semaphore) one
    have balance := tried.balance
    have eased := tried.eased
    have wf' := tried.wellFormed wf
    rw [ran]
    cases tried with
    | closed closed same =>
      rw [sound.closed, set] at closed
      exact absurd closed (by decide)
    | noPermits opened short same =>
      rw [same]
      exact ⟨_, _, _, rfl, sound, .busy set (by omega) rfl⟩
    | taken opened opened' waiters acquires created available =>
      obtain ⟨one, idle⟩ : m.semaphore.balance = 1 ∧ ∀ d, m.calls d ≠ .initialising := by
        unfold Semaphore.balance
        cases sound.permit with
        | there unset one idle => exact ⟨one, idle⟩
        | taken d unset none only =>
          unfold Semaphore.balance at none
          omega
        | gone set none idle =>
          unfold Semaphore.balance at none
          omega
      have none : s.balance = 0 := by
        simp only [if_true] at balance
        omega
      have last : m.semaphore.availablePermits = 1 := by
        unfold Semaphore.balance at one
        omega
      obtain ⟨u, wakers, wrote, shut⟩ := setValue_ok (m := { m with semaphore := s }) wf' value
      obtain ⟨goes, sound'⟩ := shut_sound sound wf' none eased shut (fun _ _ => Iff.rfl) (fun _ => id) (fun _ => id) idle value
      have empty' : ¬initialized { m with semaphore := s } = true := empty
      dsimp only
      rw [if_neg empty', wrote]
      exact ⟨_, _, _, rfl, sound', .set set last one goes rfl⟩

theorem Reached.performed (reached : Reached m t c i waker answer) (value : t.value = m.value)
    (queued : ∀ d j, m.calls d = .acquiring j → j ≠ i →
      (m.semaphore.acquires j).queued = true) :
    Queued t ∧ t.value.toList = m.value.toList ++ writes (.poll c waker) answer ∧
      (∀ value ∈ OnceCell.accesses answer, t.value = some value) := by
  refine ⟨?_, ?_, ?_⟩
  · cases reached with
    | waits unheld calls made now stored others list =>
      intro d j waits
      by_cases same : j = i
      · exact same ▸ now
      · rw [others j same]
        exact queued d j (calls ▸ waits) same
    | begins goes begun => exact goes.queued fun d j waits apart => queued d j waits (by simpa using apart)
    | finds value unheld goes found => exact goes.queued fun d j waits apart => queued d j waits (by simpa using apart)
  · rw [value]
    cases reached <;> simp [writes]
  · cases reached with
    | waits | begins => simp [OnceCell.accesses]
    | finds value unheld goes found => simpa [OnceCell.accesses] using found

theorem quit_sound (sound : Sound m) (phase : m.calls c = .called) :
    Goes m (m.setCall c .finished) [] ∧ Sound (m.setCall c .finished) := by
  have goes : Goes m (m.setCall c .finished) [] :=
    sound.goes (by simp [phase]) (by simp) (by simp [phase]) (.refl _) m.value m.valueSet
  refine ⟨goes, goes.sound sound sound.wellFormed sound.present sound.closed ?_⟩
  refine sound.permit.same rfl rfl fun d => ?_
  change Function.update m.calls c .finished d = _ ↔ _
  by_cases same : d = c
  · simp [same, phase]
  · rw [Function.update_of_ne same]

variable [Wakers W]

theorem poll_ok (sound : Sound m) (queued : Queued m) (allowed : m.allowed (.poll c waker) = true) :
    ∃ answer t wakers, m.poll c waker = .ok (answer, t, wakers) ∧ Performed m t (.poll c waker) answer := by
  unfold poll
  cases phase : m.calls c with
  | called =>
    rcases Bool.eq_false_or_eq_true m.valueSet with set | set
    next =>
      obtain ⟨value, stored⟩ := sound.value_iff.mp set
      obtain ⟨goes, sound'⟩ := quit_sound sound phase
      have full : m.initialized = true := set
      dsimp only
      rw [if_pos full, getUnchecked_ok stored]
      refine ⟨_, _, _, rfl, sound', goes.queued fun d j waits _ => queued d j waits, ?_, ?_, .inl ⟨by simp, goes.stays⟩⟩
      · simp [writes, setCall]
      · simpa [OnceCell.accesses, setCall] using stored
    next =>
      have empty : ¬m.initialized = true := by simp [initialized, set]
      have begun := called_sound sound phase
      have wf := sound.wellFormed
      dsimp only
      rw [if_neg empty]
      have waiting : Function.update m.calls c (.acquiring m.semaphore.created) c = .acquiring m.semaphore.created :=
        Function.update_self ..
      have older (j : Nat) (listed : j ∈ m.semaphore.waiters.list) : j < m.semaphore.created := (wf.waiting j listed).1
      obtain ⟨answer, t, wakers, ran, sound', value, reached⟩ :=
        pollAcquire_ok begun waiting (fun _ => older) waker
      obtain ⟨queued', written, found⟩ := reached.performed value (by
        intro d j waits apart
        change Function.update m.calls c _ d = _ at waits
        change ((m.semaphore.acquire 1).acquires j).queued = true
        rw [Semaphore.acquire_acquires, if_neg apart]
        by_cases same : d = c
        · rw [same, Function.update_self, OnceCall.acquiring.injEq] at waits
          exact absurd waits.symm apart
        · rw [Function.update_of_ne same] at waits
          exact queued d j waits)
      have left (goes : Goes ({ m with semaphore := m.semaphore.acquire 1 }.setCall c (.acquiring m.semaphore.created)) t
          [m.semaphore.created]) : Stays m t := by
        obtain ⟨acquiring, called, made, list, stored⟩ := goes.stays
        refine ⟨?_, ?_, made, list, ?_⟩
        · intro d j waits
          have before := acquiring d j waits
          change Function.update m.calls c _ d = _ at before
          by_cases same : d = c
          · rw [same, Function.update_self, OnceCall.acquiring.injEq] at before
            have apart := ((goes.calls d j).mp waits).2
            simp [before] at apart
          · rwa [Function.update_of_ne same] at before
        · intro d begins
          refine (called d begins).imp_left fun before => ?_
          change Function.update m.calls c _ d = _ at before
          rw [Function.update_apply] at before
          split at before
          next => simp at before
          next => exact before
        · intro j listed
          rw [stored j listed]
          change ((m.semaphore.acquire 1).acquires j).node.waker = _
          rw [Semaphore.acquire_acquires, if_neg (older j (list j listed)).ne]
      refine ⟨answer, t, wakers, ran, sound', queued', written, found, ?_⟩
      cases reached with
      | waits unheld calls made now stored others list =>
        refine .inr ⟨c, _, waker, rfl, rfl, .inr ⟨phase, rfl⟩, calls, made, stored, ?_, list⟩
        intro j apart
        rw [others j apart]
        exact (Semaphore.acquire_acquires m.semaphore 1 j).trans (if_neg apart)
      | begins goes begun => exact .inl ⟨by simp, left goes⟩
      | finds value unheld goes found => exact .inl ⟨by simp, left goes⟩
  | acquiring i =>
    obtain ⟨answer, t, wakers, ran, sound', value, reached⟩ := pollAcquire_ok sound phase
      (fun unqueued => absurd (queued c i phase) (by simp [unqueued])) waker
    obtain ⟨queued', written, found⟩ := reached.performed value fun d j waits _ => queued d j waits
    refine ⟨answer, t, wakers, ran, sound', queued', written, found, ?_⟩
    cases reached with
    | waits unheld calls made now stored others list =>
      refine .inr ⟨c, i, waker, rfl, rfl, .inl phase, ?_, made, stored, others, list⟩
      rw [calls, ← phase, Function.update_eq_self]
    | begins goes begun => exact .inl ⟨by simp, goes.stays⟩
    | finds value unheld goes found => exact .inl ⟨by simp, goes.stays⟩
  | initialising | finished => simp [OnceCell.allowed, phase] at allowed

omit [Wakers W] in
theorem initialise_ok (sound : Sound m) (queued : Queued m) (runs : m.calls c = .initialising)
    (outcome : Initialiser T) :
    ∃ answer t wakers, m.initialise c outcome = .ok (answer, t, wakers) ∧
      Performed m t (.initialise c outcome) answer := by
  have kept (t : OnceCell T W) (goes : Goes m t []) : Queued t ∧ Stays m t :=
    ⟨goes.queued fun d j waits _ => queued d j waits, goes.stays⟩
  obtain ⟨unset, none, only⟩ := sound.initialising runs
  have ended (d : Nat) : Function.update m.calls c .finished d ≠ .initialising := by
    by_cases same : d = c
    · simp [same]
    · rw [Function.update_of_ne same]
      exact (only d).not.mpr same
  cases outcome with
  | pending => exact ⟨_, _, _, rfl, .same sound queued rfl (by simp [OnceCell.accesses]) (by simp)⟩
  | value value =>
    have empty := sound.empty unset
    have own (i : Nat) : m.calls c = .acquiring i ↔ i ∈ [] := by simp [runs]
    obtain ⟨u, wakers, ran, shut⟩ := setValue_ok sound.wellFormed value
    obtain ⟨goes, sound'⟩ := shut_sound sound sound.wellFormed none (.refl _) shut
      (by simpa using setCall_calls sound (.inr rfl) own) (setCall_finished (by simp [runs])) (setCall_called (.inr rfl)) ended
      value
    obtain ⟨queued', stays⟩ := kept _ goes
    refine ⟨_, _, _, by rw [initialise, ran]; rfl, sound', queued', ?_, ?_, .inl ⟨by simp, stays⟩⟩
    · simp [writes, empty]
    · simp [OnceCell.accesses]
  | failed | panicked =>
    obtain ⟨u, wakers, served, rest, ran, released, goes, sound'⟩ := giveUp_ok sound runs
    obtain ⟨queued', stays⟩ := kept _ goes
    refine ⟨_, _, _, by rw [initialise, ran]; rfl, sound', queued', ?_, ?_, .inl ⟨by simp, stays⟩⟩
    · simp [writes, setCall]
    · simp [OnceCell.accesses]

omit [Wakers W] in
theorem cancel_ok (sound : Sound m) (queued : Queued m) (alive : m.calls c ≠ .finished) :
    ∃ t wakers, m.cancel c = .ok (t, wakers) ∧ Performed m t (.cancel c) .nothing := by
  have done (t : OnceCell T W) (gone : List Nat) (goes : Goes m t gone) (sound' : Sound t) (value : t.value = m.value) :
      Performed m t (.cancel c) .nothing := by
    refine ⟨sound', goes.queued fun d j waits _ => queued d j waits, ?_, ?_, .inl ⟨by simp, goes.stays⟩⟩
    · simp [writes, value]
    · simp [OnceCell.accesses]
  unfold cancel
  cases phase : m.calls c with
  | called =>
    obtain ⟨goes, sound'⟩ := quit_sound sound phase
    exact ⟨_, _, rfl, done _ [] goes sound' rfl⟩
  | acquiring i =>
    obtain ⟨u, wakers, served, rest, ran, released, goes, sound'⟩ := dropAcquire_ok sound phase
    exact ⟨_, wakers, by dsimp only; rw [ran], done _ [i] goes sound' rfl⟩
  | initialising =>
    obtain ⟨u, wakers, served, rest, ran, released, goes, sound'⟩ := giveUp_ok sound phase
    exact ⟨_, _, ran, done _ [] goes sound' rfl⟩
  | finished => exact absurd phase alive

omit [Wakers W] in
theorem getOrInit_sound (sound : Sound m) (fallible : Bool) : Sound (m.getOrInit fallible) := by
  have calls (d : Nat) : (m.getOrInit fallible).calls d = if d = m.made then .called else m.calls d :=
    Function.update_apply ..
  have same (d i : Nat) : (m.getOrInit fallible).calls d = .acquiring i ↔ m.calls d = .acquiring i := by
    rw [calls]
    split
    next new => simp [new, sound.unmade m.made (le_refl _)]
    next => rfl
  constructor
  · exact sound.wellFormed
  · exact sound.present
  · exact sound.closed
  · refine sound.permit.same rfl rfl fun d => ?_
    rw [calls]
    split
    next new => simp [new, sound.unmade m.made (le_refl _)]
    next => rfl
  · exact fun d i waiting => sound.waits d i ((same d i).mp waiting)
  · exact fun d e i first second => sound.own d e i ((same d i).mp first) ((same e i).mp second)
  · intro i queued
    obtain ⟨d, waiting⟩ := sound.owned i queued
    exact ⟨d, (same d i).mpr waiting⟩
  · exact sound.turn
  · intro d beyond
    change m.made + 1 ≤ d at beyond
    rw [calls, if_neg (by omega)]
    exact sound.unmade d (by omega)

omit [Wakers W] in
theorem getOrInit_performed (sound : Sound m) (queued : Queued m) (fallible : Bool)
    (a : OnceAction T W) (nothing : writes a .nothing = []) : Performed m (m.getOrInit fallible) a .nothing := by
  have same (d i : Nat) (waiting : (m.getOrInit fallible).calls d = .acquiring i) : m.calls d = .acquiring i := by
    change Function.update m.calls m.made .called d = _ at waiting
    rw [Function.update_apply] at waiting
    split at waiting
    next => simp at waiting
    next => exact waiting
  refine ⟨getOrInit_sound sound fallible, fun d i waiting => queued d i (same d i waiting), ?_, ?_, .inl ⟨by simp, ?_⟩⟩
  · rw [nothing, List.append_nil]
    rfl
  · simp [OnceCell.accesses]
  · refine ⟨same, fun d called => ?_, Nat.le_succ _, fun _ => id, fun _ _ => rfl⟩
    change Function.update m.calls m.made .called d = _ at called
    rw [Function.update_apply] at called
    split at called
    next new => exact .inr new.ge
    next => exact .inl called

theorem perform_ok (sound : Sound m) (queued : Queued m) (allowed : m.allowed a = true) :
    ∃ answer t wakers, m.perform a = .ok (answer, t, wakers) ∧ Performed m t a answer := by
  cases a with
  | get =>
    refine ⟨.got m.value, m, [], by rw [perform, get_ok sound]; rfl, .same sound queued rfl ?_ (by simp)⟩
    cases stored : m.value <;> simp [OnceCell.accesses]
  | set value =>
    obtain ⟨result, t, wakers, ran, sound', came⟩ := set_ok sound value
    refine ⟨.set result, t, wakers, by rw [perform, ran]; rfl, ?_⟩
    cases came with
    | present set same | busy unset none same =>
      rw [same]
      exact .same sound queued rfl (by simp [OnceCell.accesses]) (by simp)
    | set unset available one goes stored =>
      have empty := sound.empty unset
      refine ⟨sound', goes.queued fun d j waits _ => queued d j waits, ?_, ?_, .inl ⟨by simp, goes.stays⟩⟩
      · simp [writes, empty, stored]
      · simp [OnceCell.accesses]
  | getOrInit => exact ⟨_, _, _, rfl, getOrInit_performed sound queued false _ rfl⟩
  | getOrTryInit => exact ⟨_, _, _, rfl, getOrInit_performed sound queued true _ rfl⟩
  | poll c waker => exact poll_ok sound queued allowed
  | initialise c outcome =>
    have runs : m.calls c = .initialising := by
      simp only [OnceCell.allowed, Bool.and_eq_true, decide_eq_true_eq] at allowed
      exact allowed.1
    exact initialise_ok sound queued runs outcome
  | cancel c =>
    obtain ⟨t, wakers, ran, performed⟩ := cancel_ok sound queued (of_decide_eq_true allowed)
    exact ⟨_, _, _, by rw [perform, ran]; rfl, performed⟩

theorem step_kept (sound : Sound m) (queued : Queued m) (a : OnceAction T W) :
    (m.step a).Kept fun t => ∃ answer wakers, m.perform a = .ok (answer, t, wakers) ∧ Performed m t a answer := by
  unfold step
  split
  next allowed =>
    obtain ⟨answer, t, wakers, ran, performed⟩ := perform_ok sound queued allowed
    rw [ran]
    exact ⟨answer, wakers, rfl, performed⟩
  next => trivial

omit [Wakers W] in
theorem newWith_sound (value : Option T) : Sound (newWith value : OnceCell T W) ∧ Queued (newWith value : OnceCell T W) := by
  have one : 1 ≤ MAX_PERMIT := by decide
  have none : 0 ≤ MAX_PERMIT := by decide
  cases value with
  | none =>
    refine ⟨?_, fun c i waits => by simp [newWith, new] at waits⟩
    constructor
    · exact Semaphore.new_wellFormed 1 one
    · rfl
    · exact (Semaphore.new_word 1 one).2
    · exact .there rfl (Semaphore.new_balance 1 one) (by simp [newWith, new])
    all_goals simp [newWith, new, Semaphore.new]
  | some value =>
    have wf : (Semaphore.new 0 : Semaphore W).WellFormed := Semaphore.new_wellFormed 0 none
    have shut := Semaphore.close_shut wf.formed
    refine ⟨?_, fun c i waits => by simp [newWith, fromValue] at waits⟩
    constructor
    · exact shut.wellFormed wf
    · rfl
    · exact shut.closed
    · exact .gone rfl (shut.balance.trans (Semaphore.new_balance 0 none)) (by simp [newWith, fromValue])
    all_goals simp [newWith, fromValue, Semaphore.new, Semaphore.close, Semaphore.wakeAll]

theorem reachable_sound {value : Option T} (reached : (machine T W value).Reachable m) : Sound m ∧ Queued m := by
  apply System.Reachable.invariant _ _ reached
  · rintro _ rfl
    exact newWith_sound value
  · rintro m a ⟨sound, queued⟩ _
    exact (step_kept sound queued a).mono fun t ⟨_, _, _, performed⟩ => ⟨performed.sound, performed.queued⟩

end Performing

end OnceCell

end Osaka.Sync
