import Osaka.Sync.OneshotSoundness

set_option autoImplicit false

namespace Osaka.Sync.Oneshot

open GuardedCell Transitions

variable {T W : Type} {s t : Oneshot T W}

section Sending

variable [Wakers W] {j : Journal T W}

omit [Wakers W] in
theorem Sound.resting {tx : Sender T W} {state : State} {task : Option W} {book : Book W}
    (sound : Sound s j) (here : s.tx = .idle ∨ ∃ stage, s.tx = .pollClosed stage)
    (rests : tx = .idle ∨ ∃ stage, tx = .pollClosed stage)
    (others : ∀ other, other ≠ .txTaskSet → State.has state other = State.has s.state other) :
    Sound { s with state := state, txTask := task, tx := tx } { j with tx := book } := by
  have closed := others .closed (by decide)
  have complete := others .valueSent (by decide)
  obtain ⟨undecided, hand, alive, passed, empty⟩ : j.decided = none ∧ s.tx.hand = [] ∧ s.freed = false ∧
      j.passed = [] ∧ s.value = none := by
    have undecided := sound.undecided
    have alive := sound.freed
    have carries := sound.carries
    rcases here with here | ⟨_, here⟩
    all_goals
      rw [here] at undecided alive carries ⊢
      exact ⟨undecided.mp rfl, rfl, alive, carries⟩
  have placed := sound.placed
  have awaits := sound.awaits
  have left := sound.left
  have spent := sound.spent
  have decided := sound.complete
  rw [hand] at placed
  rw [← complete] at awaits decided spent
  rw [← closed, ← complete] at left
  rcases rests with rfl | ⟨stage, rfl⟩
  all_goals exact
    { sound with
      closed := closed.trans sound.closed
      complete := decided
      undecided := by simp [undecided, Sender.undecided]
      seen := by simp
      wakes := by simp
      takes := by simp
      placed := placed
      carries := ⟨passed, empty⟩
      back := fun _ => .inr empty
      awaits := awaits
      left := left
      spent := spent
      freed := by simp [alive, Sender.holds]
      emptied := fun freed => by simp [alive] at freed }

def Progress.sends : Progress W → Sender T W
  | .next stage => .pollClosed stage
  | .pending | .ready => .idle

def Progress.closes : Progress W → Option (Reply T)
  | .next _ => none
  | .pending => some (.closed false)
  | .ready => some (.closed true)

theorem pollClosed_sound {stage : Stage W} (sound : Sound s j) (guarded : Guarded s) (here : s.tx = .pollClosed stage)
    (opened : ∀ waker, stage = .load waker → State.has s.state .closed = false) :
    ∃ reply t, s.pollClosed stage = .ok (reply, t) ∧ Sound t (j.sender s t reply) ∧ Changes s t j (j.sender s t reply) := by
  have undone : State.has s.state .valueSent = false := sound.uncompleted (by rw [here]; rfl)
  have safe := (guarded (by rw [sound.freed, here]; rfl)).2
  simp only [txView, undone, Bool.not_false, Bool.and_true, here, Sender.stage] at safe
  obtain ⟨progress, state, task, ran, others, _, move⟩ := register_ok .txTaskSet .closed (by decide) safe opened j.tx
  have closed := others .closed (by decide)
  have complete := others .valueSent (by decide)
  have rxFlag := others .rxTaskSet (by decide)
  let t : Oneshot T W :=
    { s with
      state := state
      txTask := task
      tx := progress.sends }
  let reply : Option (Reply T) := progress.closes
  have rests : t.tx = .idle ∨ ∃ stage, t.tx = .pollClosed stage := by
    cases progress with
    | next stage => exact .inr ⟨stage, rfl⟩
    | _ => exact .inl rfl
  have told : j.sender s t reply = { j with tx := j.tx.after s.txTask progress.asks stage } := by
    simp only [Journal.sender, here]
    cases progress <;> rfl
  refine ⟨reply, t, ?_, ?_, ?_⟩
  · change (register .txTaskSet .closed s.state s.txTask stage).map _ = _
    rw [ran]
    cases progress <;> rfl
  · rw [told]
    exact sound.resting (.inr ⟨stage, here⟩) rests others
  · rw [told]
    have alive : s.freed = false := by rw [sound.freed, here]; rfl
    refine .moves alive alive ?_ ?_
    · have same : t.rxView = s.rxView := by
        have waking : t.tx.waking = s.tx.waking := by
          rw [here]
          rcases rests with rest | ⟨_, rest⟩
          all_goals
            rw [rest]
            rfl
        change (⟨State.has state _, State.has state _, s.rxTask, s.rx.stage, t.tx.waking⟩ : View W) = _
        rw [rxFlag, complete, waking]
        rfl
      rw [same]
      exact .same
    · have before : s.txView = ⟨State.has s.state .txTaskSet, State.has s.state .closed, s.txTask, some stage, s.rx.waking⟩ := by
        simp [txView, undone, here, Sender.stage]
      have after : t.txView = ⟨State.has state .txTaskSet, State.has s.state .closed, task, progress.stage, s.rx.waking⟩ := by
        cases progress <;> simp [txView, t, Progress.sends, closed, complete, undone, Sender.stage, Progress.stage]
      rw [before, after]
      exact move

omit [Wakers W] in
theorem Sound.refuses {tx : Sender T W} (sound : Sound s j) (undecided : s.tx.undecided = true) (hand : s.tx.hand = [])
    (closed : State.has s.state .closed = true)
    (next : tx = .takeBack ∧ (∃ given, j.passed = [given] ∧ s.value = some given) ∨ tx = .release ∧ s.value = none) :
    Sound { s with tx := tx } { j with decided := some true } := by
  have complete := sound.uncompleted undecided
  have placed := sound.placed
  rw [hand] at placed
  obtain ⟨returned, givenBack, discarded⟩ := sound.undelivered undecided
  have alive : s.freed = false := by
    rw [sound.freed]
    cases tx : s.tx <;> simp_all [Sender.undecided, Sender.holds]
  obtain ⟨carries, back, final, holds⟩ : Carries j.passed s.value tx ∧ (tx = .takeBack ∨ s.value = none) ∧
      (tx.undecided = false ∧ tx.hand = []) ∧ tx.holds = true := by
    rcases next with ⟨rfl, carries⟩ | ⟨rfl, empty⟩
    · exact ⟨carries, .inl rfl, ⟨rfl, rfl⟩, rfl⟩
    · exact ⟨trivial, .inr empty, ⟨rfl, rfl⟩, rfl⟩
  exact
    { sound with
      complete := by simp [complete]
      undecided := by simp [final.1]
      refused := fun _ => sound.closed.symm.trans closed
      seen := by rcases next with ⟨rfl, _⟩ | ⟨rfl, _⟩ <;> simp
      wakes := by rcases next with ⟨rfl, _⟩ | ⟨rfl, _⟩ <;> simp
      takes := fun _ => rfl
      placed := by rw [final.2]; exact placed
      carries := carries
      back := fun _ => back
      returned := fun some => absurd returned some
      givenBack := fun _ => rfl
      discarded := fun some => absurd discarded some
      freed := by simp [alive, holds]
      emptied := fun freed => by simp [alive] at freed }

omit [Wakers W] in
theorem Sound.tries {sending : Bool} (sound : Sound s j)
    (here : s.tx = .complete sending ∨ ∃ seen, s.tx = .exchange sending seen) (opened : s.state.isClosed = false) :
    Sound { s with tx := .exchange sending s.state } j := by
  have undecided : s.tx.undecided = true := by rcases here with here | ⟨_, here⟩ <;> rw [here] <;> rfl
  have alive : s.freed = false := by
    rw [sound.freed]
    rcases here with here | ⟨_, here⟩ <;> rw [here] <;> rfl
  have placed := sound.placed
  have carries := sound.carries
  have same : s.tx.hand = [] ∧ (Carries j.passed s.value s.tx →
      Carries j.passed s.value (.exchange sending s.state : Sender T W)) := by
    rcases here with here | ⟨_, here⟩
    all_goals
      rw [here]
      exact ⟨rfl, fun carries => by cases sending <;> exact carries⟩
  rw [same.1] at placed
  have pending := sound.undecided.mp undecided
  exact
    { sound with
      undecided := by simp [Sender.undecided, pending]
      seen := by
        intro _ seen at_exchange
        cases at_exchange
        exact opened
      wakes := nofun
      takes := nofun
      placed := placed
      carries := same.2 carries
      back := by simp [pending]
      freed := by simp [alive, Sender.holds]
      emptied := fun freed => by simp [alive] at freed }

omit [Wakers W] in
theorem Sound.completes {sending : Bool} {tx : Sender T W} (sound : Sound s j)
    (here : s.tx = .exchange sending s.state) (next : tx = .wake sending ∨ tx = .release) :
    Sound { s with state := State.set s.state .valueSent, tx := tx } { j with decided := some j.closed } := by
  have undecided : s.tx.undecided = true := by rw [here]; rfl
  have complete := sound.uncompleted undecided
  have opened : j.closed = false := sound.closed.symm.trans (sound.seen sending s.state here)
  have alive : s.freed = false := by rw [sound.freed, here]; rfl
  obtain ⟨returned, givenBack, discarded⟩ := sound.undelivered undecided
  have placed := sound.placed
  rw [here] at placed
  have awaits := sound.awaits
  rw [complete] at awaits
  obtain ⟨carries, final, holds⟩ :
      Carries j.passed s.value tx ∧ (tx.undecided = false ∧ tx.hand = []) ∧ tx.holds = true := by
    rcases next with rfl | rfl <;> exact ⟨trivial, ⟨rfl, rfl⟩, rfl⟩
  exact
    { sound with
      closed := by simpa using sound.closed
      complete := by simp [opened]
      undecided := by simp [final.1]
      refused := by simp
      seen := by rcases next with rfl | rfl <;> exact nofun
      wakes := by simp [opened]
      takes := by rcases next with rfl | rfl <;> exact nofun
      placed := by rw [final.2]; exact placed
      carries := carries
      back := by simp [opened]
      awaits := awaits.early
      left := by simp
      spent := by
        -- A receiver that has let go of the channel has closed it.
        have closed : ¬State.has s.state .closed = true := by simp [sound.closed, opened]
        have left := sound.left
        cases rx : s.rx with
        | idle inner =>
          cases inner with
          | true => trivial
          | false => exact absurd (left (.inl (by rw [rx]; rfl))) (by simp [closed, complete])
        | release dropping => exact absurd (left (.inr ⟨dropping, rx⟩)) (by simp [closed, complete])
        | _ => trivial
      returned := fun some => absurd returned some
      givenBack := fun some => absurd givenBack some
      discarded := fun some => absurd discarded some
      freed := by simp [alive, holds]
      emptied := fun freed => by simp [alive] at freed }

omit [Wakers W] in
theorem Sound.sends {given : T} (sound : Sound s j) (here : s.tx = .send given) :
    Sound { s with value := some given, tx := .complete true } j := by
  have undecided : s.tx.undecided = true := by rw [here]; rfl
  have complete := sound.uncompleted undecided
  have pending := sound.undecided.mp undecided
  have alive : s.freed = false := by rw [sound.freed, here]; rfl
  obtain ⟨returned, givenBack, discarded⟩ := sound.undelivered undecided
  have carries := sound.carries
  rw [here] at carries
  obtain ⟨passed, _⟩ := carries
  have awaits := sound.awaits
  rw [complete] at awaits
  exact
    { sound with
      undecided := by simp [Sender.undecided, pending]
      seen := nofun
      wakes := nofun
      takes := nofun
      placed := by simp [passed, Sender.hand, returned, givenBack, discarded]
      carries := ⟨given, passed, rfl⟩
      back := by simp [pending]
      awaits := awaits.early
      spent := .of_imp (by simp [complete])
      freed := by simp [alive, Sender.holds]
      emptied := fun freed => by simp [alive] at freed }

omit [Wakers W] in
theorem Sound.wakesUp {sending : Bool} {book : Book W} (sound : Sound s j) (here : s.tx = .wake sending) :
    Sound { s with tx := .release } { j with rx := book } := by
  have decided := sound.wakes sending here
  have alive : s.freed = false := by rw [sound.freed, here]; rfl
  have placed := sound.placed
  rw [here] at placed
  exact
    { sound with
      undecided := by simp [Sender.undecided, decided]
      seen := nofun
      wakes := nofun
      takes := nofun
      placed := placed
      carries := trivial
      back := by simp [decided]
      freed := by simp [alive, Sender.holds]
      emptied := fun freed => by simp [alive] at freed }

omit [Wakers W] in
theorem Sound.takesBack (sound : Sound s j) (here : s.tx = .takeBack) :
    ∃ given, s.value = some given ∧ j.passed = [given] ∧
      Sound { s with value := none, tx := .release } { j with givenBack := j.givenBack ++ [given] } := by
  have decided := sound.takes here
  have alive : s.freed = false := by rw [sound.freed, here]; rfl
  have carries := sound.carries
  rw [here] at carries
  obtain ⟨given, passed, held⟩ := carries
  obtain ⟨returned, givenBack, discarded⟩ := sound.alone held
  have complete : State.has s.state .valueSent = false := by
    cases complete : State.has s.state .valueSent with
    | false => rfl
    | true =>
      have accepted := sound.complete.mp complete
      rw [decided] at accepted
      cases accepted
  have awaits := sound.awaits
  rw [complete] at awaits
  refine ⟨given, held, passed, ?_⟩
  exact
    { sound with
      undecided := by simp [Sender.undecided, decided]
      seen := nofun
      wakes := nofun
      takes := nofun
      placed := by simp [passed, Sender.hand, returned, givenBack, discarded]
      carries := trivial
      back := fun _ => .inr rfl
      awaits := awaits.early
      spent := .of_imp fun _ => rfl
      givenBack := fun _ => decided
      freed := by simp [alive, Sender.holds]
      emptied := fun freed => by simp [alive] at freed }

omit [Wakers W] in
theorem see_sound {sending : Bool} (sound : Sound s j)
    (here : s.tx = .complete sending ∨ ∃ seen, s.tx = .exchange sending seen) :
    Sound (s.see sending s.state).2 (j.sender s (s.see sending s.state).2 (s.see sending s.state).1) ∧
      Changes s (s.see sending s.state).2 j (j.sender s (s.see sending s.state).2 (s.see sending s.state).1) := by
  have alive : s.freed = false := by
    rw [sound.freed]
    rcases here with here | ⟨_, here⟩ <;> rw [here] <;> rfl
  have before : s.tx.waking = false ∧ s.tx.stage = none := by
    rcases here with here | ⟨_, here⟩ <;> rw [here] <;> exact ⟨rfl, rfl⟩
  cases closed : s.state.isClosed with
  | false =>
    have told : j.sender s { s with tx := .exchange sending s.state } none = j := by
      rcases here with here | ⟨_, here⟩ <;> simp [Journal.sender, here]
    simp only [see, closed, Bool.false_eq_true, if_false]
    rw [told]
    exact ⟨sound.tries here closed, .aside alive before ⟨rfl, rfl⟩ ⟨rfl, rfl⟩⟩
  | true =>
    have shut : j.closed = true := sound.closed.symm.trans closed
    have undecided : s.tx.undecided = true := by rcases here with here | ⟨_, here⟩ <;> rw [here] <;> rfl
    have hand : s.tx.hand = [] := by rcases here with here | ⟨_, here⟩ <;> rw [here] <;> rfl
    have carries := sound.carries
    simp only [see, closed, if_true]
    cases sending with
    | true =>
      have told : j.sender s { s with tx := .takeBack } none = { j with decided := some true } := by
        rcases here with here | ⟨_, here⟩ <;> simp [Journal.sender, here, shut]
      have carried : ∃ given, j.passed = [given] ∧ s.value = some given := by
        rcases here with here | ⟨_, here⟩
        all_goals
          rw [here] at carries
          exact carries
      rw [if_pos rfl, told]
      exact ⟨sound.refuses undecided hand closed (.inl ⟨rfl, carried⟩), .aside alive before ⟨rfl, rfl⟩ ⟨rfl, rfl⟩⟩
    | false =>
      have told : j.sender s { s with tx := .release } none = { j with decided := some true } := by
        rcases here with here | ⟨_, here⟩ <;> simp [Journal.sender, here, shut]
      have empty : s.value = none := by
        rcases here with here | ⟨_, here⟩
        all_goals
          rw [here] at carries
          exact carries.2
      rw [if_neg (by simp), told]
      exact ⟨sound.refuses undecided hand closed (.inr ⟨rfl, empty⟩), .aside alive before ⟨rfl, rfl⟩ ⟨rfl, rfl⟩⟩

omit [Wakers W] in
theorem Changes.completes {sending : Bool} {tx : Sender T W} (sound : Sound s j) (here : s.tx = .exchange sending s.state)
    (next : tx = if s.state.isRxTaskSet then .wake sending else .release) :
    Changes s { s with state := State.set s.state .valueSent, tx := tx } j { j with decided := some j.closed } := by
  have alive : s.freed = false := by rw [sound.freed, here]; rfl
  have complete := sound.uncompleted (by rw [here]; rfl)
  have opened := sound.seen sending s.state here
  refine .moves alive alive ?_ ?_
  · have moved : rxView { s with state := State.set s.state .valueSent, tx := tx } =
        { s.rxView with done := true, reading := s.rxView.flag } := by
      have waking : tx.waking = State.has s.state .rxTaskSet := by
        rw [next, State.isRxTaskSet]
        cases State.has s.state .rxTaskSet <;> rfl
      simp [rxView, waking]
    rw [moved]
    exact .finish
  · have same : txView { s with state := State.set s.state .valueSent, tx := tx } = s.txView := by
      have stage : tx.stage = none := by
        rw [next]
        split
        next => rfl
        next => rfl
      have before : s.tx.stage = none := by rw [here]; rfl
      have unclosed : State.has s.state .closed = false := opened
      simp [txView, stage, before, unclosed]
    rw [same]
    exact .same

theorem stepSender_sound {spurious : Bool} (sound : Sound s j) (guarded : Guarded s)
    (allowed : s.allowed (.stepSender spurious) = true) :
    ∃ reply t, s.stepSender spurious = .ok (reply, t) ∧ Sound t (j.sender s t reply) ∧
      Changes s t j (j.sender s t reply) := by
  cases here : s.tx with
  | idle | gone => simp [Oneshot.allowed, here] at allowed
  | pollClosed stage =>
    have polled := pollClosed_sound sound guarded here
    cases stage with
    | load waker =>
      cases closed : s.state.isClosed with
      | false =>
        obtain ⟨reply, t, ran, rest⟩ := polled fun _ _ => closed
        exact ⟨reply, t, by simpa [Oneshot.stepSender, here, closed] using ran, rest⟩
      | true =>
        refine ⟨some (.closed true), { s with tx := .idle }, by simp [Oneshot.stepSender, here, closed], ?_⟩
        have alive : s.freed = false := by rw [sound.freed, here]; rfl
        have told : j.sender s { s with tx := .idle } (some (.closed true)) = j := by
          simp [Journal.sender, here, Book.after]
        rw [told]
        refine ⟨sound.resting (.inr ⟨_, here⟩) (.inl rfl) fun _ _ => rfl, .moves alive alive ?_ ?_⟩
        · have same : rxView { s with tx := .idle } = s.rxView := by simp [rxView, here, Sender.waking]
          rw [same]
          exact .same
        · have loaded : s.txView.stage = some (.load waker) := by simp [txView, here, Sender.stage]
          exact .leave loaded
    | _ =>
      obtain ⟨reply, t, ran, rest⟩ := polled (by simp)
      exact ⟨reply, t, by simpa [Oneshot.stepSender, here] using ran, rest⟩
  | send given =>
    refine ⟨none, { s with value := some given, tx := .complete true }, by simp [Oneshot.stepSender, here], ?_⟩
    have told : j.sender s { s with value := some given, tx := .complete true } none = j := by
      simp [Journal.sender, here]
    rw [told]
    refine ⟨sound.sends here, .aside (by rw [sound.freed, here]; rfl) ?_ ⟨rfl, rfl⟩ ⟨rfl, rfl⟩⟩
    rw [here]
    exact ⟨rfl, rfl⟩
  | complete sending => exact ⟨_, _, by simp [Oneshot.stepSender, here], see_sound sound (.inl here)⟩
  | exchange sending seen =>
    by_cases exchanged : s.state = seen ∧ spurious = false
    · obtain ⟨rfl, rfl⟩ := exchanged
      cases set : s.state.isRxTaskSet with
      | true =>
        refine ⟨none, { s with state := State.set s.state .valueSent, tx := .wake sending },
          by simp [Oneshot.stepSender, here, set], ?_⟩
        have told : j.sender s { s with state := State.set s.state .valueSent, tx := .wake sending } none =
            { j with decided := some j.closed } := by
          simp [Journal.sender, here]
        rw [told]
        exact ⟨sound.completes here (.inl rfl), .completes sound here (by simp [set])⟩
      | false =>
        refine ⟨if sending then some (.sent (.ok ())) else none, { s with state := State.set s.state .valueSent, tx := .release },
          by simp [Oneshot.stepSender, here, set, completed], ?_⟩
        have told (reply : Option (Reply T)) :
            j.sender s { s with state := State.set s.state .valueSent, tx := .release } reply =
              { j with decided := some j.closed } := by
          simp [Journal.sender, here]
        rw [told]
        exact ⟨sound.completes here (.inr rfl), .completes sound here (by simp [set])⟩
    · exact ⟨_, _, by simp [Oneshot.stepSender, here, exchanged], see_sound sound (.inr ⟨seen, here⟩)⟩
  | wake sending =>
    have alive : s.freed = false := by rw [sound.freed, here]; rfl
    obtain ⟨current, held⟩ := (guarded alive).1.readable (by simp [rxView, here, Sender.waking])
    have task : s.rxTask = some current := held
    refine ⟨if sending then some (.sent (.ok ())) else none, { s with tx := .release },
      by simp [Oneshot.stepSender, here, task, withTask, Except.map, completed], ?_⟩
    have told (reply : Option (Reply T)) :
        j.sender s { s with tx := .release } reply = { j with rx := { j.rx with read := j.rx.read ++ [current] } } := by
      simp [Journal.sender, here, task]
    rw [told]
    refine ⟨sound.wakesUp here, .moves alive alive ?_ ?_⟩
    · exact .read (by simp [rxView, here, Sender.waking]) held
    · have same : txView { s with tx := .release } = s.txView := by simp [txView, here, Sender.stage]
      rw [same]
      exact .same
  | takeBack =>
    obtain ⟨given, held, passed, after⟩ := sound.takesBack here
    refine ⟨some (.sent (.error given)), { s with value := none, tx := .release }, by simp [Oneshot.stepSender, here, held], ?_⟩
    have told : j.sender s { s with value := none, tx := .release } (some (.sent (.error given))) =
        { j with givenBack := j.givenBack ++ [given] } := by
      simp [Journal.sender, here, held]
    rw [told]
    refine ⟨after, .aside (by rw [sound.freed, here]; rfl) ?_ ⟨rfl, rfl⟩ ⟨rfl, rfl⟩⟩
    rw [here]
    exact ⟨rfl, rfl⟩
  | release =>
    obtain ⟨t, ran, rest⟩ := releaseTx_sound sound guarded here
    refine ⟨none, t, by simp [Oneshot.stepSender, here, ran, Except.map], ?_⟩
    have told : j.sender s t none = if t.freed then j.freed s else j := by simp [Journal.sender, here]
    rw [told]
    exact rest

end Sending

end Osaka.Sync.Oneshot
