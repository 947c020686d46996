import Osaka.Sync.OneshotRuns

set_option autoImplicit false

namespace Osaka.Sync.Oneshot

open GuardedCell Transitions

variable {T W : Type} {s t : Oneshot T W} {j k : Journal T W}

section Replies

def Reply.received : Reply T → Option T
  | .polled (some (.ok value)) | .tried (.ok value) => some value
  | _ => none

def Reply.refused : Reply T → Option T
  | .sent (.error value) => some value
  | _ => none

/-- No value that has been sent is waiting, and none can be sent any more. -/
def Shut (s : Oneshot T W) (j : Journal T W) : Prop :=
  (j.closed = true ∨ j.decided ≠ none) ∧ (j.decided = some false → s.value = none)

def Fits (s : Oneshot T W) (j : Journal T W) : Option (Reply T) → Prop
  | none | some (.closed _) => True
  | some (.sent (.ok _)) => j.decided = some false
  | some (.sent (.error _)) => j.decided = some true
  | some (.polled none) => j.due = none
  | some (.polled (some (.ok value))) | some (.tried (.ok value)) =>
    j.decided = some false ∧ ∀ given, j.due = some given → given = value
  | some (.polled (some (.error _))) | some (.tried (.error .closed)) => j.due = none ∧ Shut s j
  | some (.tried (.error .empty)) => j.due = none ∧ j.closed = false ∧ j.decided = none

/-- What is returned is booked as returned, and what is given back as given back. -/
def Booked (j k : Journal T W) (reply : Option (Reply T)) : Prop :=
  k.returned = j.returned ++ (reply.bind Reply.received).toList ∧
    k.givenBack = j.givenBack ++ (reply.bind Reply.refused).toList

theorem Booked.still (returned : k.returned = j.returned) (givenBack : k.givenBack = j.givenBack)
    {reply : Option (Reply T)} (received : reply.bind Reply.received = none) (refused : reply.bind Reply.refused = none) :
    Booked j k reply := by
  rw [Booked, returned, givenBack, received, refused]
  simp

theorem Sound.untaken (sound : Sound s j) (uncompleted : State.has s.state .valueSent = false) :
    j.decided ≠ some false := by
  intro accepted
  rw [sound.complete.mpr accepted] at uncompleted
  cases uncompleted

theorem Sound.unsent (sound : Sound s j) (uncompleted : State.has s.state .valueSent = false)
    (opened : State.has s.state .closed = false) : j.decided = none := by
  cases decided : j.decided with
  | none => rfl
  | some refused =>
    cases refused with
    | false => exact absurd decided (sound.untaken uncompleted)
    | true =>
      have closed := sound.refused decided
      rw [← sound.closed, opened] at closed
      cases closed

theorem Sound.shut (sound : Sound s j) (uncompleted : State.has s.state .valueSent = false)
    (closed : State.has s.state .closed = true) : Shut s j :=
  ⟨.inl (sound.closed.symm.trans closed), fun accepted => absurd accepted (sound.untaken uncompleted)⟩

variable [Wakers W]

theorem pollClosed_fits {stage : Stage W} {reply : Option (Reply T)} (here : s.tx = .pollClosed stage)
    (ran : s.pollClosed stage = .ok (reply, t)) :
    Fits t (j.sender s t reply) reply ∧ Booked j (j.sender s t reply) reply := by
  obtain ⟨ready, replied⟩ : ∃ ready, reply = none ∨ reply = some (.closed ready) := by
    unfold pollClosed at ran
    cases registered : registerTx s.state s.txTask stage with
    | error fault => simp [registered, Except.map] at ran
    | ok result =>
      obtain ⟨progress, state, task⟩ := result
      rw [registered] at ran
      cases progress <;> simp only [Except.map, Except.ok.injEq, Prod.mk.injEq] at ran
      · exact ⟨false, .inl ran.1.symm⟩
      · exact ⟨false, .inr ran.1.symm⟩
      · exact ⟨true, .inr ran.1.symm⟩
  have told : j.sender s t reply = { j with tx := j.tx.after s.txTask (Reply.pends reply) stage } := by
    simp [Journal.sender, here]
  rw [told]
  rcases replied with rfl | rfl
  · exact ⟨trivial, .still rfl rfl rfl rfl⟩
  · exact ⟨trivial, .still rfl rfl rfl rfl⟩

omit [Wakers W] in
theorem sender_books (reply : Option (Reply T)) (other : s.tx ≠ .takeBack) :
    (j.sender s t reply).returned = j.returned ∧ (j.sender s t reply).givenBack = j.givenBack := by
  unfold Journal.sender
  split
  next => exact ⟨rfl, rfl⟩
  next => exact ⟨rfl, rfl⟩
  next => exact ⟨rfl, rfl⟩
  next => exact ⟨rfl, rfl⟩
  next => exact ⟨rfl, rfl⟩
  next => exact ⟨rfl, rfl⟩
  next here => exact absurd here other
  next => split <;> exact ⟨rfl, rfl⟩
  next => exact ⟨rfl, rfl⟩

omit [Wakers W] in
theorem silent_fits {reply : Option (Reply T)} (other : s.tx ≠ .takeBack)
    (replied : reply = none ∨ reply = some (.sent (.ok ())) ∧ (j.sender s t reply).decided = some false) :
    Fits t (j.sender s t reply) reply ∧ Booked j (j.sender s t reply) reply := by
  obtain ⟨returned, givenBack⟩ := sender_books (t := t) (j := j) reply other
  rcases replied with rfl | ⟨rfl, accepted⟩
  · exact ⟨trivial, .still returned givenBack rfl rfl⟩
  · exact ⟨accepted, .still returned givenBack rfl rfl⟩

theorem sender_fits {spurious : Bool} {reply : Option (Reply T)} (kept : Kept s j)
    (ran : s.stepSender spurious = .ok (reply, t)) :
    Fits t (j.sender s t reply) reply ∧ Booked j (j.sender s t reply) reply := by
  have sound := kept.sound
  cases here : s.tx with
  | pollClosed stage =>
    cases stage with
    | load waker =>
      cases closed : s.state.isClosed with
      | false => exact pollClosed_fits here (by simpa [Oneshot.stepSender, here, closed] using ran)
      | true =>
        simp only [Oneshot.stepSender, here, closed, if_true, Except.ok.injEq, Prod.mk.injEq] at ran
        obtain ⟨rfl, rfl⟩ := ran
        have told : j.sender s { s with tx := .idle } (some (.closed true)) = j := by
          simp [Journal.sender, here, Book.after]
        rw [told]
        exact ⟨trivial, .still rfl rfl rfl rfl⟩
    | _ => exact pollClosed_fits here (by simpa [Oneshot.stepSender, here] using ran)
  | complete sending =>
    have silent : reply = none := by
      simp only [Oneshot.stepSender, here, see] at ran
      split at ran <;> simp_all
    exact silent_fits (by simp [here]) (.inl silent)
  | exchange sending seen =>
    refine silent_fits (by simp [here]) ?_
    by_cases exchanged : s.state = seen ∧ spurious = false
    · have opened : j.closed = false := by
        rw [← sound.closed, exchanged.1]
        exact sound.seen sending seen here
      simp only [Oneshot.stepSender, here, exchanged, and_self, if_true, completed] at ran
      split at ran
      next =>
        obtain ⟨rfl, rfl⟩ : none = reply ∧ _ = t := by simpa using ran
        exact .inl rfl
      next =>
        obtain ⟨rfl, rfl⟩ : _ = reply ∧ _ = t := by simpa using ran
        cases sending with
        | false => exact .inl rfl
        | true => exact .inr ⟨rfl, by simp [Journal.sender, here, opened]⟩
    · have silent : reply = none := by
        simp only [Oneshot.stepSender, here, exchanged, if_false, see] at ran
        split at ran <;> simp_all
      exact .inl silent
  | wake sending =>
    refine silent_fits (by simp [here]) ?_
    simp only [Oneshot.stepSender, here] at ran
    cases task : withTask s.rxTask with
    | error fault => simp [task, Except.map] at ran
    | ok current =>
      obtain ⟨rfl, rfl⟩ : _ = reply ∧ _ = t := by simpa [task, Except.map, completed] using ran
      cases sending with
      | false => exact .inl rfl
      | true => exact .inr ⟨rfl, by simpa [Journal.sender, here] using sound.wakes true here⟩
  | takeBack =>
    cases held : s.value with
    | none => simp [Oneshot.stepSender, here, held] at ran
    | some value =>
      simp only [Oneshot.stepSender, here, held, Except.ok.injEq, Prod.mk.injEq] at ran
      obtain ⟨rfl, rfl⟩ := ran
      have told : j.sender s { s with value := none, tx := .release } (some (.sent (.error value))) =
          { j with givenBack := j.givenBack ++ [value] } := by
        simp [Journal.sender, here, held]
      rw [told]
      exact ⟨sound.takes here, by simp [Booked, Reply.received, Reply.refused]⟩
  | release =>
    refine silent_fits (by simp [here]) (.inl ?_)
    simp only [Oneshot.stepSender, here] at ran
    cases released : release { s with tx := .gone } with
    | error fault => simp [released, Except.map] at ran
    | ok u =>
      simp only [released, Except.map, Except.ok.injEq, Prod.mk.injEq] at ran
      exact ran.1.symm
  | _ =>
    refine silent_fits (by simp [here]) (.inl ?_)
    simp only [Oneshot.stepSender, here, Except.ok.injEq, Prod.mk.injEq] at ran
    exact ran.1.symm

omit [Wakers W] in
theorem receiver_books (reply : Option (Reply T)) (other : ∀ polling, s.rx ≠ .consume polling) :
    (j.receiver s t reply).returned = j.returned ∧ (j.receiver s t reply).givenBack = j.givenBack := by
  unfold Journal.receiver
  split
  next => exact ⟨rfl, rfl⟩
  next polling here => exact absurd here (other polling)
  next => exact ⟨rfl, rfl⟩
  next => exact ⟨rfl, rfl⟩
  next => split <;> exact ⟨rfl, rfl⟩
  next => exact ⟨rfl, rfl⟩

omit [Wakers W] in
theorem quiet_fits {reply : Option (Reply T)} (other : ∀ polling, s.rx ≠ .consume polling) (silent : reply = none) :
    Fits t (j.receiver s t reply) reply ∧ Booked j (j.receiver s t reply) reply := by
  obtain ⟨returned, givenBack⟩ := receiver_books (t := t) (j := j) reply other
  subst silent
  exact ⟨trivial, .still returned givenBack rfl rfl⟩

omit [Wakers W] in
theorem Sound.notDue (sound : Sound s j) (uncompleted : State.has s.state .valueSent = false)
    (here : s.rx = .tryRecv ∨ ∃ waker, s.rx = .poll (.load waker)) : j.due = none := by
  cases due : j.due with
  | none => rfl
  | some given =>
    have awaits := sound.awaits
    have complete : State.has s.state .valueSent = true := by
      rcases here with here | ⟨waker, here⟩
      all_goals
        rw [here] at awaits
        exact (awaits given due).1
    rw [uncompleted] at complete
    cases complete

theorem pollRecv_fits {stage : Stage W} {reply : Option (Reply T)} (here : s.rx = .poll stage) (due : j.due = none)
    (ran : s.pollRecv stage = .ok (reply, t)) :
    Fits t (j.receiver s t reply) reply ∧ Booked j (j.receiver s t reply) reply := by
  have replied : reply = none ∨ reply = some (.polled none) := by
    unfold pollRecv at ran
    cases registered : registerRx s.state s.rxTask stage with
    | error fault => simp [registered, Except.map] at ran
    | ok result =>
      obtain ⟨progress, state, task⟩ := result
      rw [registered] at ran
      cases progress <;> simp only [Except.map, Except.ok.injEq, Prod.mk.injEq] at ran
      · exact .inl ran.1.symm
      · exact .inr ran.1.symm
      · exact .inl ran.1.symm
  have told : j.receiver s t reply = { j with rx := j.rx.after s.rxTask (Reply.pends reply) stage } := by
    simp [Journal.receiver, here]
  rw [told]
  rcases replied with rfl | rfl
  · exact ⟨trivial, .still rfl rfl rfl rfl⟩
  · exact ⟨due, .still rfl rfl rfl rfl⟩

omit [Wakers W] in
theorem consume_fits {polling : Bool} (sound : Sound s j) (here : s.rx = .consume polling) (reply : Option (Reply T))
    (ran : s.consumeValue polling = (reply, t)) :
    Fits t (j.receiver s t reply) reply ∧ Booked j (j.receiver s t reply) reply := by
  have awaits := sound.awaits
  rw [here] at awaits
  have accepted := sound.complete.mp awaits.1
  have told : j.receiver s t reply = { j with returned := j.returned ++ s.value.toList } := by
    simp [Journal.receiver, here]
  rw [told]
  cases held : s.value with
  | none =>
    have due : j.due = none := by
      cases due : j.due with
      | none => rfl
      | some given =>
        have waiting := awaits.2 given due
        rw [held] at waiting
        cases waiting
    have shut (rx : Receiver W) : Shut { s with value := none, rx := rx } j := ⟨.inr (by simp [accepted]), fun _ => rfl⟩
    have same : { j with returned := j.returned ++ (none : Option T).toList } = j := by simp
    rw [same]
    cases polling
    all_goals
      simp only [consumeValue, held, Prod.mk.injEq] at ran
      obtain ⟨rfl, rfl⟩ := ran
      exact ⟨⟨due, shut _⟩, .still rfl rfl rfl rfl⟩
  | some value =>
    have same (given : T) (due : j.due = some given) : given = value := by
      have waiting := awaits.2 given due
      rw [held] at waiting
      exact (Option.some.inj waiting).symm
    cases polling
    all_goals
      simp only [consumeValue, held, Prod.mk.injEq] at ran
      obtain ⟨rfl, rfl⟩ := ran
      exact ⟨⟨accepted, same⟩, by simp [Booked, Reply.received, Reply.refused]⟩

theorem receiver_fits {reply : Option (Reply T)} (kept : Kept s j) (ran : s.stepReceiver = .ok (reply, t)) :
    Fits t (j.receiver s t reply) reply ∧ Booked j (j.receiver s t reply) reply := by
  have sound := kept.sound
  cases here : s.rx with
  | poll stage =>
    cases stage with
    | load waker =>
      cases complete : s.state.isComplete with
      | true =>
        simp only [Oneshot.stepReceiver, here, complete, if_true, Except.ok.injEq, Prod.mk.injEq] at ran
        exact quiet_fits (by simp [here]) ran.1.symm
      | false =>
        have due := sound.notDue complete (.inr ⟨waker, here⟩)
        cases closed : s.state.isClosed with
        | true =>
          simp only [Oneshot.stepReceiver, here, complete, closed, if_true, Bool.false_eq_true, if_false,
            Except.ok.injEq, Prod.mk.injEq] at ran
          obtain ⟨rfl, rfl⟩ := ran
          have told : j.receiver s { s with rx := .idle true } (some (.polled (some (.error .closed)))) = j := by
            simp [Journal.receiver, here, Book.after]
          rw [told]
          exact ⟨⟨due, sound.shut complete closed⟩, .still rfl rfl rfl rfl⟩
        | false =>
          exact pollRecv_fits here due (by simpa [Oneshot.stepReceiver, here, complete, closed] using ran)
    | _ =>
      have due := sound.awaits
      rw [here] at due
      exact pollRecv_fits here due (by simpa [Oneshot.stepReceiver, here] using ran)
  | tryRecv =>
    have told (reply : Option (Reply T)) : j.receiver s t reply = j := by simp [Journal.receiver, here]
    cases complete : s.state.isComplete with
    | true =>
      simp only [Oneshot.stepReceiver, here, complete, if_true, Except.ok.injEq, Prod.mk.injEq] at ran
      exact quiet_fits (by simp [here]) ran.1.symm
    | false =>
      have due := sound.notDue complete (.inl here)
      rw [told]
      cases closed : s.state.isClosed with
      | true =>
        simp only [Oneshot.stepReceiver, here, complete, closed, if_true, Bool.false_eq_true, if_false,
          Except.ok.injEq, Prod.mk.injEq] at ran
        obtain ⟨rfl, rfl⟩ := ran
        exact ⟨⟨due, sound.shut complete closed⟩, .still rfl rfl rfl rfl⟩
      | false =>
        simp only [Oneshot.stepReceiver, here, complete, closed, Bool.false_eq_true, if_false, Except.ok.injEq,
          Prod.mk.injEq] at ran
        obtain ⟨rfl, rfl⟩ := ran
        exact ⟨⟨due, sound.closed.symm.trans closed, sound.unsent complete closed⟩, .still rfl rfl rfl rfl⟩
  | consume polling =>
    simp only [Oneshot.stepReceiver, here, Except.ok.injEq] at ran
    exact consume_fits sound here reply ran
  | close dropping =>
    refine quiet_fits (by simp [here]) ?_
    simp only [Oneshot.stepReceiver, here] at ran
    split at ran <;> simp_all
  | wake dropping =>
    refine quiet_fits (by simp [here]) ?_
    simp only [Oneshot.stepReceiver, here] at ran
    cases task : withTask s.txTask with
    | error fault => simp [task, Except.map] at ran
    | ok current =>
      simp only [task, Except.map, Except.ok.injEq, Prod.mk.injEq] at ran
      exact ran.1.symm
  | release dropping =>
    refine quiet_fits (by simp [here]) ?_
    simp only [Oneshot.stepReceiver, here] at ran
    cases released : release { s with rx := if dropping then .gone else .idle false } with
    | error fault => simp [released, Except.map] at ran
    | ok u =>
      simp only [released, Except.map, Except.ok.injEq, Prod.mk.injEq] at ran
      exact ran.1.symm
  | _ =>
    refine quiet_fits (by simp [here]) ?_
    simp only [Oneshot.stepReceiver, here, Except.ok.injEq, Prod.mk.injEq] at ran
    exact ran.1.symm

omit [Wakers W] in
theorem Sound.letGo (sound : Sound s j) (here : s.rx = .idle false) : (if s.state.isComplete then s.value else none) = none ∧
    Shut s j := by
  have spent := sound.spent
  have left := sound.left (.inl (by rw [here]; rfl))
  rw [here] at spent
  refine ⟨?_, ?_, fun accepted => spent (sound.complete.mpr accepted)⟩
  · split
    next complete => exact spent complete
    next => rfl
  · rcases left with closed | complete
    · exact .inl (sound.closed.symm.trans closed)
    · exact .inr (by simp [sound.complete.mp complete])

theorem perform_fits {a : OneshotAction T W} {reply : Option (Reply T)} (kept : Kept s j) (allowed : s.allowed a = true)
    (ran : s.perform a = .ok (reply, t)) : Fits t (j.observe s a t) reply ∧ Booked j (j.observe s a t) reply := by
  have silent (k : Journal T W) (none : reply = none) (returned : k.returned = j.returned)
      (givenBack : k.givenBack = j.givenBack) : Fits t k reply ∧ Booked j k reply := by
    subst none
    exact ⟨trivial, .still returned givenBack rfl rfl⟩
  cases a with
  | stepSender spurious =>
    have told : j.observe s (.stepSender spurious) t = j.sender s t reply := by simp only [Journal.observe, ran]
    rw [told]
    exact sender_fits kept ran
  | stepReceiver =>
    have told : j.observe s .stepReceiver t = j.receiver s t reply := by simp only [Journal.observe, ran]
    rw [told]
    exact receiver_fits kept ran
  | tryRecv =>
    have told : j.observe s .tryRecv t = j.asks s := by simp only [Journal.observe, ran]
    rw [told]
    obtain ⟨inner, here⟩ := idle_rx allowed
    cases inner with
    | false =>
      obtain ⟨due, shut⟩ := kept.sound.letGo here
      simp only [perform, here, Receiver.holds, Bool.false_eq_true, if_false, Except.ok.injEq, Prod.mk.injEq] at ran
      obtain ⟨rfl, rfl⟩ := ran
      exact ⟨⟨due, shut⟩, .still rfl rfl rfl rfl⟩
    | true =>
      simp only [perform, here, Receiver.holds, if_true, Except.ok.injEq, Prod.mk.injEq] at ran
      exact silent _ ran.1.symm rfl rfl
  | close =>
    have told : j.observe s .close t = j := by simp only [Journal.observe, ran]
    rw [told]
    refine silent _ ?_ rfl rfl
    simp only [perform] at ran
    split at ran <;> simp_all
  | pollClosed _ | send _ | dropSender | poll _ | dropReceiver =>
    simp only [perform, Except.ok.injEq, Prod.mk.injEq] at ran
    exact silent _ ran.1.symm rfl rfl

end Replies

section Shutting

structure Grows (j k : Journal T W) : Prop where
  closed : j.closed = true → k.closed = true
  decided : k.decided = j.decided ∨ j.decided = none ∧ k.decided = some j.closed
  discarded : j.discarded.length ≤ k.discarded.length

theorem sender_grows (sound : Sound s j) (reply : Option (Reply T)) :
    Grows j (j.sender s t reply) ∧ (j.sender s t reply).passed = j.passed := by
  unfold Journal.sender
  split
  next => exact ⟨⟨id, .inl rfl, le_refl _⟩, rfl⟩
  next => exact ⟨⟨id, .inl rfl, le_refl _⟩, rfl⟩
  next => exact ⟨⟨id, .inl rfl, le_refl _⟩, rfl⟩
  next here _ =>
    exact ⟨⟨id, .inr ⟨sound.undecided.mp (by rw [here]; rfl), rfl⟩, le_refl _⟩, rfl⟩
  next here _ =>
    exact ⟨⟨id, .inr ⟨sound.undecided.mp (by rw [here]; rfl), rfl⟩, le_refl _⟩, rfl⟩
  next => exact ⟨⟨id, .inl rfl, le_refl _⟩, rfl⟩
  next => exact ⟨⟨id, .inl rfl, le_refl _⟩, rfl⟩
  next =>
    split
    next => exact ⟨⟨id, .inl rfl, by simp [Journal.freed]⟩, rfl⟩
    next => exact ⟨⟨id, .inl rfl, le_refl _⟩, rfl⟩
  next => exact ⟨⟨id, .inl rfl, le_refl _⟩, rfl⟩

theorem receiver_grows (reply : Option (Reply T)) :
    Grows j (j.receiver s t reply) ∧ (j.receiver s t reply).passed = j.passed := by
  unfold Journal.receiver
  split
  next => exact ⟨⟨id, .inl rfl, le_refl _⟩, rfl⟩
  next => exact ⟨⟨id, .inl rfl, le_refl _⟩, rfl⟩
  next => exact ⟨⟨fun _ => rfl, .inl rfl, le_refl _⟩, rfl⟩
  next => exact ⟨⟨id, .inl rfl, le_refl _⟩, rfl⟩
  next =>
    split
    next => exact ⟨⟨id, .inl rfl, by simp [Journal.freed]⟩, rfl⟩
    next => exact ⟨⟨id, .inl rfl, le_refl _⟩, rfl⟩
  next => exact ⟨⟨id, .inl rfl, le_refl _⟩, rfl⟩

variable [Wakers W]

theorem observe_grows {a : OneshotAction T W} (sound : Sound s j) :
    Grows j (j.observe s a t) ∧ ((∀ given, a ≠ .send given) → (j.observe s a t).passed = j.passed) := by
  unfold Journal.observe
  split
  next => exact ⟨⟨id, .inl rfl, le_refl _⟩, fun _ => rfl⟩
  next reply u _ =>
    split
    next => exact ⟨⟨id, .inl rfl, le_refl _⟩, fun _ => rfl⟩
    next given _ => exact ⟨⟨id, .inl rfl, le_refl _⟩, fun other => absurd rfl (other given)⟩
    next => exact ⟨⟨id, .inl rfl, le_refl _⟩, fun _ => rfl⟩
    next => exact ⟨⟨id, .inl rfl, le_refl _⟩, fun _ => rfl⟩
    next => exact ⟨⟨id, .inl rfl, le_refl _⟩, fun _ => rfl⟩
    next => exact ⟨⟨id, .inl rfl, le_refl _⟩, fun _ => rfl⟩
    next => exact ⟨⟨id, .inl rfl, le_refl _⟩, fun _ => rfl⟩
    next =>
      obtain ⟨grows, passed⟩ := sender_grows (t := u) sound reply
      exact ⟨grows, fun _ => passed⟩
    next =>
      obtain ⟨grows, passed⟩ := receiver_grows (s := s) (t := u) (j := j) reply
      exact ⟨grows, fun _ => passed⟩

theorem Shut.step {a : OneshotAction T W} {reply : Option (Reply T)} (kept : Kept s j) (shut : Shut s j)
    (allowed : s.allowed a = true) (ran : s.perform a = .ok (reply, t)) : Shut t (j.observe s a t) := by
  obtain ⟨_, booked⟩ := perform_fits kept allowed ran
  obtain ⟨_, u, ran', after⟩ := perform_kept kept allowed
  obtain rfl : t = u := by
    rw [ran] at ran'
    simp only [Except.ok.injEq, Prod.mk.injEq] at ran'
    exact ran'.2
  obtain ⟨grows, passes⟩ := observe_grows (t := t) (a := a) kept.sound
  obtain ⟨sealed, empty⟩ := shut
  constructor
  · rcases sealed with closed | decided
    · exact .inl (grows.closed closed)
    · rcases grows.decided with same | ⟨pending, _⟩
      · exact .inr (by rw [same]; exact decided)
      · exact absurd pending decided
  · intro accepted
    have before : j.decided = some false := by
      rcases grows.decided with same | ⟨pending, now⟩
      · rw [← same]
        exact accepted
      · rcases sealed with closed | decided
        · rw [now, closed] at accepted
          cases accepted
        · exact absurd pending decided
    have late : s.tx.undecided ≠ true := by
      intro undecided
      rw [kept.sound.undecided.mp undecided] at before
      cases before
    have hand : s.tx.hand = [] := by
      cases tx : s.tx with
      | send given => exact absurd (by rw [tx]; rfl) late
      | _ => rfl
    have passed := passes fun given calls => by
      subst calls
      exact late (by rw [idle_tx allowed]; rfl)
    have placed := congrArg List.length kept.sound.placed
    have placed' := congrArg List.length after.sound.placed
    have discarded := grows.discarded
    rw [hand, empty before] at placed
    rw [passed, booked.1, booked.2] at placed'
    cases held : t.value with
    | none => rfl
    | some value =>
      simp only [held, List.length_append, List.length_nil, Option.toList_none, Option.toList_some,
        List.length_singleton] at placed placed'
      omega

theorem run_keeps {P : Oneshot T W → Journal T W → Prop} {actions : List (OneshotAction T W)}
    (each : ∀ s j a reply t, Kept s j → P s j → s.allowed a = true → s.perform a = .ok (reply, t) →
      P t (j.observe s a t))
    (reached : (journaled T W).Reachable (s, j)) (holds : P s j)
    (ran : (journaled T W).run (s, j) actions = some (t, k)) : P t k := by
  induction actions generalizing s j with
  | nil =>
    obtain ⟨rfl, rfl⟩ : s = t ∧ j = k := by simpa [System.run] using ran
    exact holds
  | cons a rest ih =>
    obtain ⟨⟨u, l⟩, within, stepped, ran⟩ := System.run_cons _ ran
    have next := reached.step within stepped
    obtain ⟨u, taken, same⟩ := System.observed_step stepped
    obtain ⟨rfl, rfl⟩ : _ = u ∧ l = _ := by simpa using same
    obtain ⟨allowed, reply, performed⟩ := step_taken taken
    exact ih next (each s j a reply u (reachable_kept reached) holds allowed performed) ran

/-- Once the channel is shut, no value that has been sent waits ever again. -/
theorem Shut.run {actions : List (OneshotAction T W)} (reached : (journaled T W).Reachable (s, j)) (shut : Shut s j)
    (ran : (journaled T W).run (s, j) actions = some (t, k)) : Shut t k := by
  apply run_keeps (P := Shut) _ reached shut ran
  intro s j a reply t kept shut allowed ran
  exact shut.step kept allowed ran

theorem closed_refuses {actions : List (OneshotAction T W)} (reached : (journaled T W).Reachable (s, j))
    (closed : j.closed = true) (undecided : j.decided = none)
    (ran : (journaled T W).run (s, j) actions = some (t, k)) : k.decided ≠ some false := by
  have refuses : k.closed = true ∧ k.decided ≠ some false := by
    apply run_keeps (P := fun _ j => j.closed = true ∧ j.decided ≠ some false) _ reached _ ran
    · intro s j a reply t kept refuses _ _
      obtain ⟨grows, _⟩ := observe_grows (t := t) (a := a) kept.sound
      refine ⟨grows.closed refuses.1, ?_⟩
      rcases grows.decided with same | ⟨_, now⟩
      · rw [same]
        exact refuses.2
      · rw [now, refuses.1]
        simp
    · exact ⟨closed, by simp [undecided]⟩
  exact refuses.2

end Shutting

section Delivering

variable [Wakers W]

/-- A value that had been sent when the receive was called is found by it, and returned. -/
theorem due_received {given : T} (kept : Kept s j) (due : j.due = some given) :
    (s.rx = .tryRecv ∨ (∃ waker, s.rx = .poll (.load waker)) →
      ∃ polling t, s.perform .stepReceiver = .ok (none, t) ∧ t.rx = .consume polling) ∧
    ∀ polling, s.rx = .consume polling →
      ∃ reply t, s.perform .stepReceiver = .ok (some reply, t) ∧ reply.received = some given := by
  have awaits := kept.sound.awaits
  constructor
  · rintro (here | ⟨waker, here⟩)
    all_goals
      rw [here] at awaits
      have complete : s.state.isComplete = true := (awaits given due).1
    · exact ⟨false, _, by simp only [perform, Oneshot.stepReceiver, here, complete, if_true]; rfl, rfl⟩
    · exact ⟨true, _, by simp only [perform, Oneshot.stepReceiver, here, complete, if_true]; rfl, rfl⟩
  · intro polling here
    rw [here] at awaits
    have held : s.value = some given := awaits.2 given due
    cases polling with
    | true =>
      refine ⟨.polled (some (.ok given)), { s with value := none, rx := .release false }, ?_, rfl⟩
      simp [perform, Oneshot.stepReceiver, here, consumeValue, held]
    | false =>
      refine ⟨.tried (.ok given), { s with value := none, rx := .release false }, ?_, rfl⟩
      simp [perform, Oneshot.stepReceiver, here, consumeValue, held]

/-- The value is delivered exactly once. -/
theorem delivered_once (reached : (journaled T W).Reachable (s, j)) :
    -- what is passed to send is in exactly one place, and no more on its way when the channel has been dropped
    (j.passed.length ≤ 1 ∧ j.passed = s.tx.hand ++ s.value.toList ++ j.returned ++ j.givenBack ++ j.discarded ∧
      (s.freed = true → s.tx.hand = [] ∧ s.value = none)) ∧
    (j.discarded ≠ [] → j.decided = some false) ∧
    -- every reply fits the channel as it is then, and is booked
    (∀ a reply t, s.allowed a = true → s.perform a = .ok (reply, t) →
      Fits t (j.observe s a t) reply ∧ Booked j (j.observe s a t) reply) ∧
    -- a value is refused only when the receiver has closed, and always when it has before
    (j.decided = some true → j.closed = true) ∧
    (∀ actions t k, (journaled T W).run (s, j) actions = some (t, k) →
      (j.closed = true → j.decided = none → k.decided ≠ some false) ∧
      (Shut s j → ¬(k.decided = some false ∧ t.value ≠ none))) ∧
    -- a value that had been sent when the receive was called is returned by it
    (∀ given, j.due = some given →
      (s.rx = .tryRecv ∨ (∃ waker, s.rx = .poll (.load waker)) →
        ∃ polling t, s.perform .stepReceiver = .ok (none, t) ∧ t.rx = .consume polling) ∧
      ∀ polling, s.rx = .consume polling →
        ∃ reply t, s.perform .stepReceiver = .ok (some reply, t) ∧ reply.received = some given) := by
  have kept := reachable_kept reached
  have sound := kept.sound
  refine ⟨⟨sound.few, sound.placed, ?_⟩, sound.discarded, ?_, sound.refused, ?_, fun given => due_received kept⟩
  · intro freed
    refine ⟨?_, (sound.emptied freed).1⟩
    have gone := sound.freed
    rw [freed] at gone
    cases tx : s.tx with
    | send given =>
      rw [tx] at gone
      cases gone
    | _ => rfl
  · intro a reply t allowed ran
    exact perform_fits kept allowed ran
  · intro actions t k ran
    refine ⟨fun closed undecided => closed_refuses reached closed undecided ran, ?_⟩
    rintro shut ⟨accepted, waits⟩
    exact waits ((shut.run reached ran).2 accepted)

/-- The receiver waits, the value is sent, and the receiver closes and polls again. -/
def exampleDelivery : List (OneshotAction Nat Nat) :=
  [.poll 7, .stepReceiver, .stepReceiver, .stepReceiver, .send 5, .stepSender false, .stepSender false,
    .stepSender false, .stepSender false, .close, .stepReceiver, .poll 7, .stepReceiver]

theorem exampleDelivery_due : ((journaled Nat Nat).run (channel, .first) exampleDelivery).map
    (fun r => (r.2.due, r.2.closed, match r.1.rx with | .consume polling => some polling | _ => none)) =
      some (some 5, true, some true) := by
  decide +kernel

theorem delivered_once_run : ∃ (s t : Oneshot Nat Nat) (reply : Reply Nat),
    s.perform .stepReceiver = .ok (some reply, t) ∧ reply.received = some 5 := by
  obtain ⟨⟨s, j⟩, ran, facts⟩ := Option.map_eq_some_iff.mp exampleDelivery_due
  simp only [Prod.mk.injEq] at facts
  obtain ⟨due, _, here⟩ := facts
  have consuming : s.rx = .consume true := by
    split at here
    next polling at_consume => rw [at_consume, Option.some.inj here]
    next => cases here
  have start : (journaled Nat Nat).Reachable (channel, .first) := .initial ⟨rfl, rfl⟩
  obtain ⟨_, _, _, _, _, received⟩ := delivered_once (System.reachable_run _ start ran)
  obtain ⟨reply, t, performed, value⟩ := (received 5 due).2 true consuming
  exact ⟨s, t, reply, performed, value⟩

end Delivering

end Osaka.Sync.Oneshot
