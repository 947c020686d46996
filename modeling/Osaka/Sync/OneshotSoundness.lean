import Osaka.Sync.OneshotSteps

set_option autoImplicit false

namespace Osaka.Sync.Oneshot

open GuardedCell Transitions

variable {T W : Type} {s t : Oneshot T W}

section Journals

/-- Where the values have gone, and what has gone through the tasks. -/
structure Journal (T W : Type) where
  passed : List T
  returned : List T
  givenBack : List T
  -- dropped with the channel
  discarded : List T
  -- whether the receiver has closed, and whether it had when set_complete came to its end
  closed : Bool
  decided : Option Bool
  -- the value that had been sent when the receiver last asked for one
  due : Option T
  rx : Book W
  tx : Book W

def Journal.first : Journal T W := ⟨[], [], [], [], false, none, none, ⟨[], [], [], none⟩, ⟨[], [], [], none⟩⟩

def Journal.asks (j : Journal T W) (s : Oneshot T W) : Journal T W :=
  { j with due := if s.state.isComplete then s.value else none }

def Journal.freed (j : Journal T W) (s : Oneshot T W) : Journal T W :=
  { j with
    discarded := j.discarded ++ s.value.toList
    rx := { j.rx with dropped := j.rx.dropped ++ if s.state.isRxTaskSet then s.rxTask.toList else [] }
    tx := { j.tx with dropped := j.tx.dropped ++ if s.state.isTxTaskSet then s.txTask.toList else [] } }

def Reply.pends : Option (Reply T) → Bool
  | some (.closed false) | some (.polled none) => true
  | _ => false

def Journal.sender (j : Journal T W) (s t : Oneshot T W) (reply : Option (Reply T)) : Journal T W :=
  match s.tx, t.tx with
  | .pollClosed stage, _ => { j with tx := j.tx.after s.txTask (Reply.pends reply) stage }
  | .complete _, .exchange _ _ | .exchange _ _, .exchange _ _ => j
  | .complete _, _ | .exchange _ _, _ => { j with decided := some j.closed }
  | .wake _, _ => { j with rx := { j.rx with read := j.rx.read ++ s.rxTask.toList } }
  | .takeBack, _ => { j with givenBack := j.givenBack ++ s.value.toList }
  | .release, _ => if t.freed then j.freed s else j
  | _, _ => j

def Journal.receiver (j : Journal T W) (s t : Oneshot T W) (reply : Option (Reply T)) : Journal T W :=
  match s.rx with
  | .poll stage => { j with rx := j.rx.after s.rxTask (Reply.pends reply) stage }
  | .consume _ => { j with returned := j.returned ++ s.value.toList }
  | .close _ => { j with closed := true }
  | .wake _ => { j with tx := { j.tx with read := j.tx.read ++ s.txTask.toList } }
  | .release _ => if t.freed then j.freed s else j
  | _ => j

variable [Wakers W]

def Journal.observe (j : Journal T W) (s : Oneshot T W) (a : OneshotAction T W) (_ : Oneshot T W) : Journal T W :=
  match s.perform a with
  | .error _ => j
  | .ok (reply, t) =>
    match a with
    | .pollClosed _ => { j with tx := { j.tx with read := [], asked := none } }
    | .send value => { j with passed := j.passed ++ [value] }
    | .dropSender => j
    | .poll _ => { j.asks s with rx := { j.rx with read := [], asked := none } }
    | .tryRecv => j.asks s
    | .close => j
    | .dropReceiver => j
    | .stepSender _ => j.sender s t reply
    | .stepReceiver => j.receiver s t reply

def journaled (T W : Type) [Wakers W] : System (Oneshot T W × Journal T W) (OneshotAction T W) Fault :=
  (machine T W).observed .first Journal.observe

instance : DecidablePred (journaled T W).within := fun _ => inferInstanceAs (Decidable True)

end Journals

section Views

def Sender.stage : Sender T W → Option (Stage W)
  | .pollClosed stage => some stage
  | _ => none

def Receiver.stage : Receiver W → Option (Stage W)
  | .poll stage => some stage
  | _ => none

def Sender.waking : Sender T W → Bool
  | .wake _ => true
  | _ => false

def Receiver.waking : Receiver W → Bool
  | .wake _ => true
  | _ => false

def rxView (s : Oneshot T W) : View W :=
  ⟨State.has s.state .rxTaskSet, State.has s.state .valueSent, s.rxTask, s.rx.stage, s.tx.waking⟩

/-- The sender leaves its task for the receiver, which does not wake it when it has completed. -/
def txView (s : Oneshot T W) : View W :=
  ⟨State.has s.state .txTaskSet, State.has s.state .closed && !State.has s.state .valueSent, s.txTask, s.tx.stage,
    s.rx.waking⟩

end Views

section Soundness

/-- The sender has not come to the end of set_complete. -/
def Sender.undecided : Sender T W → Bool
  | .idle | .pollClosed _ | .send _ | .complete _ | .exchange _ _ => true
  | _ => false

def Sender.hand : Sender T W → List T
  | .send value => [value]
  | _ => []

def Carries (passed : List T) (value : Option T) : Sender T W → Prop
  | .idle | .pollClosed _ | .complete false | .exchange false _ => passed = [] ∧ value = none
  | .send given => passed = [given] ∧ value = none
  | .complete true | .exchange true _ | .takeBack => ∃ given, passed = [given] ∧ value = some given
  | _ => True

/-- What has been sent is there for a receive that has been called since. -/
def Awaits (due value : Option T) (complete : Bool) : Receiver W → Prop
  | .poll (.load _) | .tryRecv => ∀ given, due = some given → complete = true ∧ value = some given
  | .poll _ => due = none
  | .consume _ => complete = true ∧ ∀ given, due = some given → value = some given
  | _ => True

/-- A receiver that has let go of the channel, and not to be dropped, leaves nothing behind that has been sent. -/
def Spent (value : Option T) (complete : Bool) : Receiver W → Prop
  | .idle false | .release false => complete = true → value = none
  | _ => True

structure Sound (s : Oneshot T W) (j : Journal T W) : Prop where
  closed : State.has s.state .closed = j.closed
  complete : State.has s.state .valueSent = true ↔ j.decided = some false
  undecided : s.tx.undecided = true ↔ j.decided = none
  refused : j.decided = some true → j.closed = true
  seen : ∀ sending seen, s.tx = .exchange sending seen → seen.isClosed = false
  wakes : ∀ sending, s.tx = .wake sending → j.decided = some false
  takes : s.tx = .takeBack → j.decided = some true
  few : j.passed.length ≤ 1
  placed : j.passed = s.tx.hand ++ s.value.toList ++ j.returned ++ j.givenBack ++ j.discarded
  carries : Carries j.passed s.value s.tx
  back : j.decided = some true → s.tx = .takeBack ∨ s.value = none
  awaits : Awaits j.due s.value (State.has s.state .valueSent) s.rx
  left : s.rx.holds = false ∨ (∃ dropping, s.rx = .release dropping) →
    State.has s.state .closed = true ∨ State.has s.state .valueSent = true
  spent : Spent s.value (State.has s.state .valueSent) s.rx
  returned : j.returned ≠ [] → j.decided = some false
  givenBack : j.givenBack ≠ [] → j.decided = some true
  discarded : j.discarded ≠ [] → j.decided = some false
  freed : s.freed = (!s.tx.holds && !s.rx.holds)
  emptied : s.freed = true → s.value = none ∧ s.rxTask = none ∧ s.txTask = none

def Guarded (s : Oneshot T W) : Prop := s.freed = false → Safe s.rxView ∧ Safe s.txView

inductive Changes (s t : Oneshot T W) (j k : Journal T W) : Prop where
  | moves : s.freed = false → t.freed = false → Move s.rxView j.rx t.rxView k.rx → Move s.txView j.tx t.txView k.tx →
      Changes s t j k
  | frees : t.freed = true → t.state = s.state → t.rxTask = none ∧ t.txTask = none →
      s.tx.waking = false ∧ s.rx.waking = false →
      k.rx = { j.rx with dropped := j.rx.dropped ++ s.rxTask.toList } →
      k.tx = { j.tx with dropped := j.tx.dropped ++ s.txTask.toList } → Changes s t j k

variable {j : Journal T W}

theorem channel_sound : Sound (channel : Oneshot T W) .first := by
  constructor <;>
    simp [channel, Journal.first, Sender.undecided, Sender.hand, Sender.holds, Receiver.holds, Carries, Awaits, Spent]

theorem channel_guarded : Guarded (channel : Oneshot T W) := by
  intro _
  constructor
  · constructor <;> simp [channel, rxView, Sender.waking, Receiver.stage, full, Known]
  · constructor <;> simp [channel, txView, Receiver.waking, Sender.stage, full, Known]

theorem Sound.uncompleted (sound : Sound s j) (undecided : s.tx.undecided = true) :
    State.has s.state .valueSent = false := by
  cases complete : State.has s.state .valueSent with
  | false => rfl
  | true =>
    have decided := sound.complete.mp complete
    rw [sound.undecided.mp undecided] at decided
    cases decided

theorem Sound.undelivered (sound : Sound s j) (undecided : s.tx.undecided = true) :
    j.returned = [] ∧ j.givenBack = [] ∧ j.discarded = [] := by
  have undecided := sound.undecided.mp undecided
  refine ⟨?_, ?_, ?_⟩ <;> by_contra delivered
  · simp [sound.returned delivered] at undecided
  · simp [sound.givenBack delivered] at undecided
  · simp [sound.discarded delivered] at undecided

end Soundness

section Releasing

variable {j : Journal T W}

theorem Sound.alone {value : T} (sound : Sound s j) (held : s.value = some value) :
    j.returned = [] ∧ j.givenBack = [] ∧ j.discarded = [] := by
  have placed := congrArg List.length sound.placed
  have few := sound.few
  simp only [held, Option.toList_some, List.length_append, List.length_singleton] at placed
  refine ⟨?_, ?_, ?_⟩ <;> apply List.eq_nil_of_length_eq_zero <;> omega

theorem Awaits.early {due value value' : Option T} {complete : Bool} {rx : Receiver W}
    (awaits : Awaits due value false rx) : Awaits due value' complete rx := by
  cases rx with
  | poll stage =>
    cases stage with
    | load waker => exact fun given same => nomatch (awaits given same).1
    | _ => exact awaits
  | tryRecv => exact fun given same => nomatch (awaits given same).1
  | consume polling => exact nomatch awaits.1
  | _ => trivial

theorem Spent.of_imp {value : Option T} {complete : Bool} {rx : Receiver W} (spent : complete = true → value = none) :
    Spent value complete rx := by
  unfold Spent
  split
  next => exact spent
  next => exact spent
  next => trivial

theorem Safe.rests {v : View W} (safe : Safe v) (rests : v.stage = none) : v.cell.isSome = v.flag := by
  rw [safe.cell, rests]
  rfl

theorem dropInner_ok (guarded : Guarded s) (alive : s.freed = false) (tx : s.tx.stage = none) (rx : s.rx.stage = none) :
    s.dropInner = .ok { s with rxTask := none, txTask := none, value := none, freed := true } := by
  have rxTask : s.rxTask.isSome = State.has s.state .rxTaskSet := Safe.rests (guarded alive).1 rx
  have txTask : s.txTask.isSome = State.has s.state .txTaskSet := Safe.rests (guarded alive).2 tx
  have dropped (task : Option W) (flag : Bool) (same : task.isSome = flag) :
      (if flag then dropTask task else .ok task) = .ok none := by
    subst same
    cases task <;> rfl
  unfold dropInner
  rw [State.isRxTaskSet, State.isTxTaskSet, dropped _ _ rxTask, dropped _ _ txTask]
  rfl

theorem Sound.leavesTx (sound : Sound s j) (here : s.tx = .release) (other : s.rx.holds = true) :
    Sound { s with tx := .gone } j := by
  have alive : s.freed = false := by rw [sound.freed, here]; rfl
  have placed := sound.placed
  have undecided := sound.undecided
  have back := sound.back
  rw [here] at placed undecided back
  exact
    { sound with
      undecided := undecided
      seen := nofun
      wakes := nofun
      takes := nofun
      placed := placed
      carries := trivial
      back := fun refused => .inr ((back refused).resolve_left nofun)
      freed := by simp [alive, Sender.holds, other]
      emptied := fun freed => by simp [alive] at freed }

theorem Sound.leavesRx {rx : Receiver W} {dropping : Bool} (sound : Sound s j) (here : s.rx = .release dropping)
    (next : rx = .gone ∨ rx = .idle false ∧ dropping = false) (other : s.tx.holds = true) :
    Sound { s with rx := rx } j := by
  have alive : s.freed = false := by rw [sound.freed, here]; simp [Receiver.holds]
  have spent := sound.spent
  rw [here] at spent
  exact
    { sound with
      awaits := by rcases next with rfl | ⟨rfl, _⟩ <;> trivial
      left := fun _ => sound.left (.inr ⟨dropping, here⟩)
      spent := by
        rcases next with rfl | ⟨rfl, rfl⟩
        · trivial
        · exact spent
      freed := by simp [alive, other]
      emptied := fun freed => by simp [alive] at freed }

theorem Sound.frees {rx : Receiver W} (sound : Sound s j) (sender : s.tx = .release ∨ s.tx = .gone)
    (receiver : s.rx.holds = false ∨ ∃ dropping, s.rx = .release dropping) (next : rx = .gone ∨ rx = .idle false) :
    Sound { s with rxTask := none, txTask := none, value := none, tx := .gone, rx := rx, freed := true } (j.freed s) := by
  obtain ⟨decided, hand, kept⟩ : j.decided ≠ none ∧ s.tx.hand = [] ∧ s.tx ≠ .takeBack := by
    have undecided := sound.undecided
    rcases sender with here | here <;> rw [here] at undecided ⊢ <;> simpa [Sender.undecided, Sender.hand] using undecided
  have placed := sound.placed
  rw [hand] at placed
  have accepted : j.discarded ++ s.value.toList ≠ [] → j.decided = some false := by
    intro some
    cases held : s.value with
    | none => exact sound.discarded (by simpa [held] using some)
    | some value =>
      cases refused : j.decided with
      | none => exact absurd refused decided
      | some refused' =>
        cases refused' with
        | false => rfl
        | true =>
          rcases sound.back refused with here | empty
          · exact absurd here kept
          · rw [held] at empty
            cases empty
  have alone : j.passed = j.returned ++ j.givenBack ++ (j.discarded ++ s.value.toList) := by
    cases held : s.value with
    | none => simpa [held] using placed
    | some value =>
      obtain ⟨returned, givenBack, discarded⟩ := sound.alone held
      simpa [held, returned, givenBack, discarded] using placed
  exact
    { sound with
      undecided := by simpa [Sender.undecided, Journal.freed] using decided
      seen := nofun
      wakes := nofun
      takes := nofun
      placed := by simpa [Sender.hand, Journal.freed] using alone
      carries := trivial
      back := fun _ => .inr rfl
      awaits := by rcases next with rfl | rfl <;> trivial
      left := fun _ => sound.left receiver
      spent := .of_imp fun _ => rfl
      discarded := accepted
      freed := by rcases next with rfl | rfl <;> rfl
      emptied := fun _ => ⟨rfl, rfl, rfl⟩ }

theorem Guarded.drops (guarded : Guarded s) (alive : s.freed = false) (tx : s.tx.stage = none) (rx : s.rx.stage = none) :
    (j.freed s).rx = { j.rx with dropped := j.rx.dropped ++ s.rxTask.toList } ∧
      (j.freed s).tx = { j.tx with dropped := j.tx.dropped ++ s.txTask.toList } := by
  have rxTask : s.rxTask.isSome = State.has s.state .rxTaskSet := Safe.rests (guarded alive).1 rx
  have txTask : s.txTask.isSome = State.has s.state .txTaskSet := Safe.rests (guarded alive).2 tx
  simp only [Journal.freed, State.isRxTaskSet, State.isTxTaskSet, ← rxTask, ← txTask]
  constructor
  · cases s.rxTask <;> rfl
  · cases s.txTask <;> rfl

theorem Changes.aside {tx : Sender T W} {rx : Receiver W} {value : Option T} {k : Journal T W} (alive : s.freed = false)
    (sender : s.tx.waking = tx.waking ∧ s.tx.stage = tx.stage)
    (receiver : s.rx.waking = rx.waking ∧ s.rx.stage = rx.stage) (books : k.rx = j.rx ∧ k.tx = j.tx) :
    Changes s { s with value := value, tx := tx, rx := rx } j k := by
  refine .moves alive alive ?_ ?_
  · have same : rxView { s with value := value, tx := tx, rx := rx } = s.rxView := by simp [rxView, sender, receiver]
    rw [same, books.1]
    exact .same
  · have same : txView { s with value := value, tx := tx, rx := rx } = s.txView := by simp [txView, sender, receiver]
    rw [same, books.2]
    exact .same

theorem releaseTx_sound (sound : Sound s j) (guarded : Guarded s) (here : s.tx = .release) :
    ∃ t, release { s with tx := .gone } = .ok t ∧ Sound t (if t.freed then j.freed s else j) ∧
      Changes s t j (if t.freed then j.freed s else j) := by
  have alive : s.freed = false := by rw [sound.freed, here]; rfl
  have rests : s.tx.waking = false ∧ s.tx.stage = none := by rw [here]; exact ⟨rfl, rfl⟩
  cases other : s.rx.holds with
  | true =>
    refine ⟨{ s with tx := .gone }, by simp [release, other], ?_⟩
    change Sound _ (if s.freed = true then _ else _) ∧ Changes _ _ _ (if s.freed = true then _ else _)
    rw [if_neg (by simp [alive])]
    exact ⟨sound.leavesTx here other, .aside alive rests ⟨rfl, rfl⟩ ⟨rfl, rfl⟩⟩
  | false =>
    have idle : s.rx = .idle false ∨ s.rx = .gone := by
      cases rx : s.rx with
      | idle inner =>
        obtain rfl : inner = false := by rw [rx] at other; exact other
        exact .inl rfl
      | gone => exact .inr rfl
      | _ =>
        rw [rx] at other
        cases other
    have quiet : s.rx.waking = false ∧ s.rx.stage = none := by
      rcases idle with idle | idle <;> rw [idle] <;> exact ⟨rfl, rfl⟩
    have books := guarded.drops (j := j) alive rests.2 quiet.2
    have leaving : Guarded { s with tx := .gone } := fun _ => by
      have safe := guarded alive
      rw [rxView, txView, rests.1, rests.2] at safe
      exact safe
    refine ⟨{ s with rxTask := none, txTask := none, value := none, tx := .gone, freed := true }, ?_, ?_, ?_⟩
    · have freed := dropInner_ok leaving alive rfl quiet.2
      simp only [release, Sender.holds, other, Bool.or_self, Bool.false_eq_true, if_false]
      exact freed
    · exact sound.frees (.inl here) (.inl other) idle.symm
    · exact .frees rfl rfl ⟨rfl, rfl⟩ ⟨rests.1, quiet.1⟩ books.1 books.2

theorem releaseRx_sound {rx : Receiver W} {dropping : Bool} (sound : Sound s j) (guarded : Guarded s)
    (here : s.rx = .release dropping) (next : rx = .gone ∨ rx = .idle false ∧ dropping = false) :
    ∃ t, release { s with rx := rx } = .ok t ∧ Sound t (if t.freed then j.freed s else j) ∧
      Changes s t j (if t.freed then j.freed s else j) := by
  have alive : s.freed = false := by rw [sound.freed, here]; simp [Receiver.holds]
  have rests : s.rx.waking = false ∧ s.rx.stage = none := by rw [here]; exact ⟨rfl, rfl⟩
  obtain ⟨left, quiet⟩ : rx.holds = false ∧ rx.waking = false ∧ rx.stage = none := by
    rcases next with rfl | ⟨rfl, _⟩ <;> exact ⟨rfl, rfl, rfl⟩
  have views : rxView { s with rx := rx } = s.rxView ∧ txView { s with rx := rx } = s.txView := by
    simp [rxView, txView, rests, quiet]
  cases other : s.tx.holds with
  | true =>
    refine ⟨{ s with rx := rx }, by simp [release, other], ?_⟩
    change Sound _ (if s.freed = true then _ else _) ∧ Changes _ _ _ (if s.freed = true then _ else _)
    rw [if_neg (by simp [alive])]
    refine ⟨sound.leavesRx here next other, .moves alive alive ?_ ?_⟩
    · rw [views.1]
      exact .same
    · rw [views.2]
      exact .same
  | false =>
    obtain gone : s.tx = .gone := by
      cases tx : s.tx with
      | gone => rfl
      | _ =>
        rw [tx] at other
        cases other
    have still : s.tx.waking = false ∧ s.tx.stage = none := by rw [gone]; exact ⟨rfl, rfl⟩
    have books := guarded.drops (j := j) alive still.2 rests.2
    have leaving : Guarded { s with rx := rx } := fun _ => by
      rw [views.1, views.2]
      exact guarded alive
    refine ⟨{ s with rxTask := none, txTask := none, value := none, rx := rx, freed := true }, ?_, ?_, ?_⟩
    · have freed := dropInner_ok leaving alive still.2 quiet.2
      simp only [release, other, left, Bool.or_self, Bool.false_eq_true, if_false]
      exact freed
    · have freed := sound.frees (.inr gone) (.inr ⟨dropping, here⟩) (next.imp_right And.left)
      rw [← gone] at freed
      exact freed
    · exact .frees rfl rfl ⟨rfl, rfl⟩ ⟨still.1, rests.1⟩ books.1 books.2

end Releasing

end Osaka.Sync.Oneshot
