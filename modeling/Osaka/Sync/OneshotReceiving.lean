import Osaka.Sync.OneshotSoundness

set_option autoImplicit false

namespace Osaka.Sync.Oneshot

open GuardedCell Transitions

variable {T W : Type} {s t : Oneshot T W} {j : Journal T W}

section Turns

theorem Sound.turns {rx : Receiver W} {state : State} {task : Option W} {due : Option T} {book book' : Book W} (sound : Sound s j)
    (held : s.rx.holds = true) (holds : rx.holds = true)
    (others : ∀ other, other ≠ .rxTaskSet → State.has state other = State.has s.state other)
    (awaits : Awaits due s.value (State.has s.state .valueSent) rx)
    (kept : (∃ dropping, rx = .release dropping) →
      State.has s.state .closed = true ∨ State.has s.state .valueSent = true)
    (spent : Spent s.value (State.has s.state .valueSent) rx) :
    Sound { s with state := state, rxTask := task, rx := rx } { j with due := due, rx := book, tx := book' } := by
  have closed := others .closed (by decide)
  have complete := others .valueSent (by decide)
  have alive : s.freed = false := by rw [sound.freed, held]; simp
  have closed' := sound.closed
  have complete' := sound.complete
  rw [← closed] at closed' kept
  rw [← complete] at complete' awaits kept spent
  exact
    { sound with
      closed := closed'
      complete := complete'
      awaits := awaits
      left := by
        rintro (gone | leaving)
        · rw [holds] at gone
          cases gone
        · exact kept leaving
      spent := spent
      freed := by simp [alive, holds]
      emptied := fun freed => by simp [alive] at freed }

theorem Sound.passes {rx : Receiver W} (sound : Sound s j) (held : s.rx.holds = true) (holds : rx.holds = true)
    (awaits : Awaits j.due s.value (State.has s.state .valueSent) rx)
    (kept : (∃ dropping, rx = .release dropping) →
      State.has s.state .closed = true ∨ State.has s.state .valueSent = true)
    (spent : Spent s.value (State.has s.state .valueSent) rx) : Sound { s with rx := rx } j :=
  sound.turns held holds (fun _ _ => rfl) awaits kept spent

theorem Sound.closes {rx : Receiver W} {dropping : Bool} (sound : Sound s j) (here : s.rx = .close dropping)
    (next : rx = .wake dropping ∨ rx = .release true ∨ rx = .idle true) :
    Sound { s with state := s.state.setClosed, rx := rx } { j with closed := true } := by
  have alive : s.freed = false := by rw [sound.freed, here]; simp [Receiver.holds]
  have holds : rx.holds = true := by rcases next with rfl | rfl | rfl <;> rfl
  exact
    { sound with
      closed := by simp [State.setClosed]
      complete := by simpa [State.setClosed] using sound.complete
      refused := fun _ => rfl
      awaits := by rcases next with rfl | rfl | rfl <;> trivial
      left := fun _ => .inl (by simp [State.setClosed])
      spent := by rcases next with rfl | rfl | rfl <;> trivial
      freed := by simp [alive, holds]
      emptied := fun freed => by simp [alive] at freed }

theorem Sound.consumes {rx : Receiver W} {polling : Bool} (sound : Sound s j) (here : s.rx = .consume polling)
    (next : rx = .release false ∨ rx = .idle true) :
    Sound { s with value := none, rx := rx } { j with returned := j.returned ++ s.value.toList } := by
  have alive : s.freed = false := by rw [sound.freed, here]; simp [Receiver.holds]
  have holds : rx.holds = true := by rcases next with rfl | rfl <;> rfl
  have awaits := sound.awaits
  rw [here] at awaits
  have decided := sound.complete.mp awaits.1
  have final : s.tx.hand = [] ∧ ∀ value, Carries j.passed value s.tx := by
    have undecided := sound.undecided
    have takes := sound.takes
    cases tx : s.tx <;> rw [tx] at undecided takes <;> simp_all [Sender.undecided, Sender.hand, Carries]
  have placed := sound.placed
  exact
    { sound with
      placed := by
        cases stored : s.value with
        | none => simpa [stored] using placed
        | some value =>
          obtain ⟨returned, givenBack, discarded⟩ := sound.alone stored
          simpa [stored, returned, givenBack, discarded] using placed
      carries := final.2 none
      back := fun _ => .inr rfl
      awaits := by rcases next with rfl | rfl <;> trivial
      left := fun _ => .inr awaits.1
      spent := .of_imp fun _ => rfl
      returned := fun _ => decided
      freed := by simp [alive, holds]
      emptied := fun freed => by simp [alive] at freed }

end Turns

section Receiving

variable [Wakers W]

def Progress.receives : Progress W → Receiver W
  | .next stage => .poll stage
  | .pending => .idle true
  | .ready => .consume true

def Progress.polls : Progress W → Option (Reply T)
  | .pending => some (.polled none)
  | .next _ | .ready => none

theorem pollRecv_sound {stage : Stage W} (sound : Sound s j) (guarded : Guarded s) (here : s.rx = .poll stage)
    (opened : ∀ waker, stage = .load waker → State.has s.state .valueSent = false) :
    ∃ reply t, s.pollRecv stage = .ok (reply, t) ∧ Sound t (j.receiver s t reply) ∧
      Changes s t j (j.receiver s t reply) := by
  have alive : s.freed = false := by rw [sound.freed, here]; simp [Receiver.holds]
  have safe := (guarded alive).1
  simp only [rxView, here, Receiver.stage] at safe
  obtain ⟨progress, state, task, ran, others, finished, move⟩ :=
    register_ok .rxTaskSet .valueSent (by decide) safe opened j.rx
  have nothing : j.due = none := by
    have awaits := sound.awaits
    rw [here] at awaits
    cases stage with
    | load waker =>
      cases due : j.due with
      | none => rfl
      | some given =>
        have complete := (awaits given due).1
        rw [opened waker rfl] at complete
        cases complete
    | _ => exact awaits
  let t : Oneshot T W :=
    { s with
      state := state
      rxTask := task
      rx := progress.receives }
  let reply : Option (Reply T) := progress.polls
  have told : j.receiver s t reply = { j with rx := j.rx.after s.rxTask progress.asks stage } := by
    simp only [Journal.receiver, here]
    cases progress <;> rfl
  refine ⟨reply, t, ?_, ?_, ?_⟩
  · change (register .rxTaskSet .valueSent s.state s.rxTask stage).map _ = _
    rw [ran]
    cases progress <;> rfl
  · rw [told]
    refine sound.turns (by rw [here]; rfl) ?_ others ?_ ?_ ?_
    · cases progress <;> rfl
    · rw [nothing]
      cases progress with
      | next stage =>
        cases stage with
        | load waker =>
          intro given none
          cases none
        | _ => exact rfl
      | pending => trivial
      | ready =>
        refine ⟨finished rfl, ?_⟩
        intro given none
        cases none
    · cases progress <;> simp [Progress.receives]
    · cases progress <;> trivial
  · rw [told]
    have closed := others .closed (by decide)
    have complete := others .valueSent (by decide)
    have txFlag := others .txTaskSet (by decide)
    refine .moves alive alive ?_ ?_
    · have before : s.rxView = ⟨State.has s.state .rxTaskSet, State.has s.state .valueSent, s.rxTask, some stage, s.tx.waking⟩ := by
        simp [rxView, here, Receiver.stage]
      have after : t.rxView = ⟨State.has state .rxTaskSet, State.has s.state .valueSent, task, progress.stage, s.tx.waking⟩ := by
        cases progress <;> simp [rxView, t, Progress.receives, complete, Receiver.stage, Progress.stage]
      rw [before, after]
      exact move
    · have same : t.txView = s.txView := by
        have waking : t.rx.waking = s.rx.waking := by
          rw [here]
          cases progress <;> rfl
        change (⟨State.has state _, State.has state _ && !State.has state _, s.txTask, s.tx.stage, t.rx.waking⟩ : View W) = _
        rw [txFlag, closed, complete, waking]
        rfl
      rw [same]
      exact .same

omit [Wakers W] in
theorem Changes.closes {rx : Receiver W} {dropping : Bool} (sound : Sound s j) (here : s.rx = .close dropping)
    (waking : rx.waking = (s.state.isTxTaskSet && !s.state.isComplete)) (rests : rx.stage = none) :
    Changes s { s with state := s.state.setClosed, rx := rx } j { j with closed := true } := by
  have alive : s.freed = false := by rw [sound.freed, here]; simp [Receiver.holds]
  have before : s.rx.waking = false ∧ s.rx.stage = none := by rw [here]; exact ⟨rfl, rfl⟩
  refine .moves alive alive ?_ ?_
  · have same : rxView { s with state := s.state.setClosed, rx := rx } = s.rxView := by
      simp [rxView, State.setClosed, before, rests]
    rw [same]
    exact .same
  · have moved : txView { s with state := s.state.setClosed, rx := rx } =
        { s.txView with done := !State.has s.state .valueSent, reading := rx.waking } := by
      simp [txView, State.setClosed]
    rw [moved, waking, State.isTxTaskSet, State.isComplete]
    cases complete : State.has s.state .valueSent with
    | false =>
      rw [Bool.not_false, Bool.and_true]
      exact .finish
    | true =>
      have same : s.txView = { s.txView with done := false, reading := false } := by simp [txView, complete, before]
      rw [Bool.not_true, Bool.and_false, ← same]
      exact .same

theorem poll_sound {waker : W} (sound : Sound s j) (guarded : Guarded s) (here : s.rx = .poll (.load waker)) :
    ∃ reply t, s.stepReceiver = .ok (reply, t) ∧ Sound t (j.receiver s t reply) ∧
      Changes s t j (j.receiver s t reply) := by
  have alive : s.freed = false := by rw [sound.freed, here]; simp [Receiver.holds]
  have awaits := sound.awaits
  rw [here] at awaits
  have told (t : Oneshot T W) (reply : Option (Reply T)) : j.receiver s t reply = j := by
    simp [Journal.receiver, here, Book.after]
  have leaves {rx : Receiver W} (waking : rx.waking = false) (rests : rx.stage = none) :
      Changes s { s with rx := rx } j j := by
    refine .moves alive alive ?_ ?_
    · have moved : rxView { s with rx := rx } = { s.rxView with stage := none } := by simp [rxView, rests]
      rw [moved]
      have loaded : s.rxView.stage = some (.load waker) := by simp [rxView, here, Receiver.stage]
      exact .leave loaded
    · have before : s.rx.waking = false := by rw [here]; rfl
      have same : txView { s with rx := rx } = s.txView := by simp [txView, before, waking]
      rw [same]
      exact .same
  have held : s.rx.holds = true := by rw [here]; rfl
  cases complete : s.state.isComplete with
  | true =>
    refine ⟨none, { s with rx := .consume true }, by simp [Oneshot.stepReceiver, here, complete], ?_⟩
    rw [told]
    exact ⟨sound.passes held rfl ⟨complete, fun given due => (awaits given due).2⟩ (by simp) trivial, leaves rfl rfl⟩
  | false =>
    cases closed : s.state.isClosed with
    | true =>
      refine ⟨some (.polled (some (.error .closed))), { s with rx := .idle true },
        by simp [Oneshot.stepReceiver, here, complete, closed], ?_⟩
      rw [told]
      exact ⟨sound.passes held rfl trivial (by simp) trivial, leaves rfl rfl⟩
    | false =>
      obtain ⟨reply, t, ran, rest⟩ := pollRecv_sound sound guarded here fun _ _ => complete
      exact ⟨reply, t, by simpa [Oneshot.stepReceiver, here, complete, closed] using ran, rest⟩

theorem stepReceiver_sound (sound : Sound s j) (guarded : Guarded s) (allowed : s.allowed .stepReceiver = true) :
    ∃ reply t, s.stepReceiver = .ok (reply, t) ∧ Sound t (j.receiver s t reply) ∧
      Changes s t j (j.receiver s t reply) := by
  cases here : s.rx with
  | idle | gone => simp [Oneshot.allowed, here] at allowed
  | poll stage =>
    have polled := pollRecv_sound sound guarded here
    cases stage with
    | load waker => exact poll_sound sound guarded here
    | _ =>
      obtain ⟨reply, t, ran, rest⟩ := polled (by simp)
      exact ⟨reply, t, by simpa [Oneshot.stepReceiver, here] using ran, rest⟩
  | tryRecv =>
    have alive : s.freed = false := by rw [sound.freed, here]; simp [Receiver.holds]
    have before : s.rx.waking = false ∧ s.rx.stage = none := by rw [here]; exact ⟨rfl, rfl⟩
    have awaits := sound.awaits
    rw [here] at awaits
    have told (t : Oneshot T W) (reply : Option (Reply T)) : j.receiver s t reply = j := by
      simp [Journal.receiver, here]
    have held : s.rx.holds = true := by rw [here]; rfl
    cases complete : s.state.isComplete with
    | true =>
      refine ⟨none, { s with rx := .consume false }, by simp [Oneshot.stepReceiver, here, complete], ?_⟩
      rw [told]
      refine ⟨sound.passes held rfl ⟨complete, fun given due => (awaits given due).2⟩ (by simp) trivial, ?_⟩
      exact .aside alive ⟨rfl, rfl⟩ before ⟨rfl, rfl⟩
    | false =>
      cases closed : s.state.isClosed with
      | true =>
        refine ⟨some (.tried (.error .closed)), { s with rx := .release false },
          by simp [Oneshot.stepReceiver, here, complete, closed], ?_⟩
        have unsent : Spent s.value (State.has s.state .valueSent) (.release false : Receiver W) := by
          intro sent
          rw [State.isComplete, sent] at complete
          cases complete
        rw [told]
        exact ⟨sound.passes held rfl trivial (fun _ => .inl closed) unsent, .aside alive ⟨rfl, rfl⟩ before ⟨rfl, rfl⟩⟩
      | false =>
        refine ⟨some (.tried (.error .empty)), { s with rx := .idle true },
          by simp [Oneshot.stepReceiver, here, complete, closed], ?_⟩
        rw [told]
        exact ⟨sound.passes held rfl trivial (by simp) trivial, .aside alive ⟨rfl, rfl⟩ before ⟨rfl, rfl⟩⟩
  | consume polling =>
    have alive : s.freed = false := by rw [sound.freed, here]; simp [Receiver.holds]
    have before : s.rx.waking = false ∧ s.rx.stage = none := by rw [here]; exact ⟨rfl, rfl⟩
    refine ⟨(s.consumeValue polling).1, (s.consumeValue polling).2, by simp [Oneshot.stepReceiver, here], ?_⟩
    have told (t : Oneshot T W) (reply : Option (Reply T)) :
        j.receiver s t reply = { j with returned := j.returned ++ s.value.toList } := by
      simp [Journal.receiver, here]
    obtain ⟨rx, next, consumed⟩ : ∃ rx, (rx = .release false ∨ rx = .idle true) ∧
        (s.consumeValue polling).2 = { s with value := none, rx := rx } := by
      unfold consumeValue
      split <;> simp
    rw [told, consumed]
    refine ⟨sound.consumes here next, .aside alive ⟨rfl, rfl⟩ ?_ ⟨rfl, rfl⟩⟩
    rcases next with rfl | rfl <;> exact before
  | close dropping =>
    have told (t : Oneshot T W) (reply : Option (Reply T)) : j.receiver s t reply = { j with closed := true } := by
      simp [Journal.receiver, here]
    cases woken : (s.state.isTxTaskSet && !s.state.isComplete) with
    | true =>
      refine ⟨none, { s with state := s.state.setClosed, rx := .wake dropping },
        by simp [Oneshot.stepReceiver, here, woken], ?_⟩
      rw [told]
      exact ⟨sound.closes here (.inl rfl), .closes sound here woken.symm rfl⟩
    | false =>
      refine ⟨none, { s with state := s.state.setClosed, rx := if dropping then .release true else .idle true },
        by simp [Oneshot.stepReceiver, here, woken, Oneshot.closed], ?_⟩
      rw [told]
      cases dropping with
      | true => exact ⟨sound.closes here (.inr (.inl rfl)), .closes sound here woken.symm rfl⟩
      | false => exact ⟨sound.closes here (.inr (.inr rfl)), .closes sound here woken.symm rfl⟩
  | wake dropping =>
    have alive : s.freed = false := by rw [sound.freed, here]; simp [Receiver.holds]
    have reading : s.txView.reading = true := by simp [txView, here, Receiver.waking]
    have safe := (guarded alive).2
    obtain ⟨current, held⟩ := safe.readable reading
    have task : s.txTask = some current := held
    have closed : State.has s.state .closed = true := by
      have done := (safe.reading reading).1
      simp only [txView, Bool.and_eq_true] at done
      exact done.1
    refine ⟨none, s.closed dropping, by simp [Oneshot.stepReceiver, here, task, withTask, Except.map], ?_⟩
    have told (t : Oneshot T W) (reply : Option (Reply T)) :
        j.receiver s t reply = { j with tx := { j.tx with read := j.tx.read ++ [current] } } := by
      simp [Journal.receiver, here, task]
    rw [told]
    refine ⟨sound.turns (by rw [here]; rfl) ?_ (fun _ _ => rfl) ?_ (fun _ => .inl closed) ?_, .moves alive alive ?_ ?_⟩
    · cases dropping <;> rfl
    · cases dropping <;> trivial
    · cases dropping <;> trivial
    · have same : (s.closed dropping).rxView = s.rxView := by cases dropping <;> simp [rxView, Oneshot.closed, here, Receiver.stage]
      rw [same]
      exact .same
    · have moved : (s.closed dropping).txView = { s.txView with reading := false } := by
        cases dropping <;> simp [txView, Oneshot.closed, Receiver.waking]
      rw [moved]
      exact .read reading held
  | release dropping =>
    have next : (if dropping then .gone else .idle false : Receiver W) = .gone ∨
        (if dropping then .gone else .idle false : Receiver W) = .idle false ∧ dropping = false := by
      cases dropping <;> simp
    obtain ⟨t, ran, rest⟩ := releaseRx_sound sound guarded here next
    refine ⟨none, t, by simp [Oneshot.stepReceiver, here, ran, Except.map], ?_⟩
    have told : j.receiver s t none = if t.freed then j.freed s else j := by simp [Journal.receiver, here]
    rw [told]
    exact rest

end Receiving

end Osaka.Sync.Oneshot
