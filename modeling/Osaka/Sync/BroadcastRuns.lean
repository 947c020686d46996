import Osaka.Sync.BroadcastReceiving

set_option autoImplicit false

namespace Osaka.Sync.Broadcast

open Transitions

variable {T W : Type} {s t : Broadcast T W} {r : Nat} {sent sent' : List T} {cursor cursor' : Nat → Nat}
variable {a : BroadcastAction T W} {answer : Answer T} {wakers : List W}

section Performing

structure Sound (s : Broadcast T W) (sent : List T) (cursor : Nat → Nat) : Prop where
  ring : Ring s sent cursor
  listed : Listed s
  counted : s.tail.rxCnt = s.alive.card
  closing : s.tail.closed = true → s.numTx = 0
  ended : s.numTx = 0 → s.tail.closed = true ∨ s.tail.rxCnt = 0

theorem alike_numTx (s : Broadcast T W) (n : Nat) : Alike s { s with numTx := n } :=
  ⟨rfl, rfl, rfl, rfl, rfl, rfl, fun _ => rfl, fun _ => rfl⟩

theorem Listed.numTx (listed : Listed s) (n : Nat) : Listed { s with numTx := n } :=
  ⟨listed.nodup, listed.listed, listed.unlisted⟩

theorem Sound.count_pos (sound : Sound s sent cursor) (alive : (s.receivers r).dropped = false) :
    s.tail.rxCnt ≠ 0 := by
  rw [sound.counted]
  exact (Finset.card_pos.mpr ⟨r, (mem_alive sound.ring).mpr alive⟩).ne'

theorem Sound.opened (sound : Sound s sent cursor) (some : 0 < s.numTx) : s.tail.closed = false := by
  by_contra closed
  have none := sound.closing (by simpa using closed)
  omega

inductive Performed (s t : Broadcast T W) (sent : List T) (cursor : Nat → Nat) :
    BroadcastAction T W → Answer T → List W → List T → (Nat → Nat) → Prop where
  | sent {value : T} {wakers : List W} : 0 < s.numTx → s.tail.rxCnt ≠ 0 → Notified (s.written (some value)) t wakers →
      Performed s t sent cursor (.send value) (.sent (some s.tail.rxCnt)) wakers (sent ++ [value]) cursor
  | unsent {value : T} : s.tail.rxCnt = 0 → t = s → Performed s t sent cursor (.send value) (.sent none) [] sent cursor
  | joined {a : BroadcastAction T W} : (a = .subscribe ∨ ∃ r, a = .resubscribe r ∧ (s.receivers r).dropped = false) →
      (a = .subscribe → 0 < s.numTx) → t = s.subscribed →
      Performed s t sent cursor a .none [] sent (Function.update cursor s.created (s.positions sent))
  | cloned : 0 < s.numTx → t = s.cloneSender → Performed s t sent cursor .cloneSender .none [] sent cursor
  | left : 0 < s.numTx → (s.numTx ≠ 1 ∨ s.tail.rxCnt = 0) → t = { s with numTx := s.numTx - 1 } →
      Performed s t sent cursor .dropSender .none [] sent cursor
  | closed {wakers : List W} : s.numTx = 1 → s.tail.rxCnt ≠ 0 →
      Notified ({ s with numTx := s.numTx - 1 }.written none) t wakers →
      Performed s t sent cursor .dropSender .none wakers sent cursor
  | received {r : Nat} {result : Except TryRecvError T} {after : Nat} : (s.receivers r).dropped = false →
      (s.receivers r).borrowed = false → Taken s sent (cursor r) result after → Ring t sent (Function.update cursor r after) → Listed t → Served s t r →
      t.tail = s.tail → t.receivers r = { s.receivers r with next := BitVec.ofNat 64 after } →
      Performed s t sent cursor (.tryRecv r) (.received result) [] sent (Function.update cursor r after)
  | polled {r : Nat} {waker : W} {result : Option (Except RecvError T)} {after : Nat} :
      (s.receivers r).dropped = false → Taken s sent (cursor r) (polled result) after →
      Ring t sent (Function.update cursor r after) → Listed t → Served s t r →
      (result = none → r ∈ t.tail.waiters ∧ (t.receivers r).waiter.waker = some waker) →
      Performed s t sent cursor (.pollRecv r waker) (.polled result) [] sent (Function.update cursor r after)
  | cancelled {r : Nat} : (s.receivers r).dropped = false →
      Rewaited s t r false .new (s.tail.waiters.erase r) → Listed t →
      Performed s t sent cursor (.dropRecv r) .none [] sent cursor
  | gone {r : Nat} : (s.receivers r).dropped = false → (s.receivers r).borrowed = false → Ring t sent cursor →
      Listed t → Gone s t r → Performed s t sent cursor (.dropReceiver r) .none [] sent cursor

variable [Wakers W]

/-- The only faults are that there are too many receivers, and that one is dropped that has gone astray. -/
theorem perform_performed (sound : Sound s sent cursor) (allowed : s.allowed a = true)
    (recent : ∀ r, (s.receivers r).dropped = false → s.positions sent < cursor r + 2 ^ 64) :
    (s.perform a = .error .maxReceivers ∧ (a = .subscribe ∨ ∃ r, a = .resubscribe r)) ∨
    (s.perform a = .error .unexpectedEmpty ∧ ∃ r, a = .dropReceiver r ∧ s.Astray r) ∨
    ∃ answer t wakers sent' cursor', s.perform a = .ok (answer, t, wakers) ∧
      Performed s t sent cursor a answer wakers sent' cursor' := by
  have joins (a : BroadcastAction T W)
      (about : a = .subscribe ∨ ∃ r, a = .resubscribe r ∧ (s.receivers r).dropped = false)
      (some : a = .subscribe → 0 < s.numTx)
      (performs : s.perform a = s.newReceiver.map fun t => (.none, t, [])) :
      (s.perform a = .error .maxReceivers ∧ (a = .subscribe ∨ ∃ r, a = .resubscribe r)) ∨
      ∃ answer t wakers sent' cursor', s.perform a = .ok (answer, t, wakers) ∧
        Performed s t sent cursor a answer wakers sent' cursor' := by
    by_cases full : s.tail.rxCnt = MAX_RECEIVERS
    · left
      refine ⟨?_, about.imp id fun ⟨r, same, _⟩ => ⟨r, same⟩⟩
      rw [performs, newReceiver, if_pos full]
      rfl
    · right
      refine ⟨.none, s.subscribed, [], _, _, ?_, .joined about some rfl⟩
      rw [performs, newReceiver, if_neg full]
      rfl
  cases a with
  | send value =>
    right; right
    have some : 0 < s.numTx := by simpa [Broadcast.allowed] using allowed
    by_cases none : s.tail.rxCnt = 0
    · refine ⟨_, _, _, _, _, ?_, .unsent none rfl⟩
      simp [perform, send, send2, none, Except.map]
    · obtain ⟨t, wakers, ran, notified⟩ := notifyRx_notified (sound.listed.written (Option.some value))
      refine ⟨_, _, _, _, _, ?_, .sent some none notified⟩
      change (s.send2 (Option.some value)).map _ = _
      rw [send2_eq s _ none]
      change (Except.map _ ((s.written _).notifyRx (s.written (Option.some value)).tail.waiters)).map _ = _
      rw [ran]
      rfl
  | subscribe =>
    have some : 0 < s.numTx := by simpa [Broadcast.allowed] using allowed
    rcases joins .subscribe (.inl rfl) (fun _ => some) rfl with full | joined
    · exact .inl full
    · exact .inr (.inr joined)
  | resubscribe r =>
    have alive : (s.receivers r).dropped = false := by
      simp only [Broadcast.allowed, Bool.and_eq_true, Bool.not_eq_true'] at allowed
      exact allowed.1
    rcases joins (.resubscribe r) (.inr ⟨r, rfl, alive⟩) (fun other => nomatch other) rfl with full | joined
    · exact .inl full
    · exact .inr (.inr joined)
  | cloneSender =>
    have some : 0 < s.numTx := by simpa [Broadcast.allowed] using allowed
    exact .inr (.inr ⟨_, _, _, _, _, rfl, .cloned some rfl⟩)
  | dropSender =>
    right; right
    have some : 0 < s.numTx := by simpa [Broadcast.allowed] using allowed
    by_cases last : s.numTx = 1
    · by_cases none : s.tail.rxCnt = 0
      · refine ⟨_, _, _, _, _, ?_, .left some (.inr none) rfl⟩
        simp [perform, dropSender, last, send2, none, Except.map]
      · let u := { s with numTx := s.numTx - 1 }
        obtain ⟨t, wakers, ran, notified⟩ := notifyRx_notified ((sound.listed.numTx _).written (s := u) Option.none)
        refine ⟨_, _, _, _, _, ?_, .closed last none notified⟩
        have closed : u.send2 Option.none = .ok (Option.some u.tail.rxCnt, t, wakers) := by
          rw [send2_eq u _ none]
          change (u.written Option.none |>.notifyRx (u.written Option.none).tail.waiters).map _ = _
          rw [ran]
          rfl
        unfold perform dropSender
        dsimp only
        rw [if_pos last]
        change ((u.send2 Option.none).map _).map _ = _
        rw [closed]
        rfl
    · refine ⟨_, _, _, _, _, ?_, .left some (.inl last) rfl⟩
      simp [perform, dropSender, last, Except.map]
  | tryRecv r =>
    have idle : (s.receivers r).dropped = false ∧ (s.receivers r).borrowed = false := by
      simpa [Broadcast.allowed] using allowed
    obtain ⟨result, t, after, ran, taken, kept, listed, served, tail, own⟩ :=
      tryRecv_taken sound.ring sound.listed idle.1 (recent r idle.1)
    refine .inr (.inr ⟨_, _, _, _, _, ?_, .received idle.1 idle.2 taken kept listed served tail own⟩)
    simp [perform, ran, Except.map]
  | pollRecv r waker =>
    have alive : (s.receivers r).dropped = false := by simpa [Broadcast.allowed] using allowed
    obtain ⟨result, t, after, ran, taken, kept, listed, served, waits⟩ :=
      pollRecv_taken sound.ring sound.listed alive (recent r alive) waker
    refine .inr (.inr ⟨_, _, _, _, _, ?_, .polled alive taken kept listed served waits⟩)
    simp [perform, ran, Except.map]
  | dropRecv r =>
    have alive : (s.receivers r).dropped = false := by
      simp only [Broadcast.allowed, Bool.and_eq_true, Bool.not_eq_true'] at allowed
      exact allowed.1
    obtain ⟨changed, listed⟩ := dropRecv_rewaited sound.listed r
    exact .inr (.inr ⟨_, _, _, _, _, rfl, .cancelled alive changed listed⟩)
  | dropReceiver r =>
    have idle : (s.receivers r).dropped = false ∧ (s.receivers r).borrowed = false := by
      simpa [Broadcast.allowed] using allowed
    have some := sound.count_pos idle.1
    by_cases astray : s.Astray r
    · right; left
      refine ⟨?_, r, rfl, astray⟩
      unfold perform
      dsimp only
      rw [dropReceiver_astray sound.ring idle.1 (recent r idle.1) some astray]
      rfl
    · obtain ⟨t, ran, kept, listed, gone⟩ :=
        dropReceiver_gone sound.ring sound.listed idle.1 idle.2 (recent r idle.1) some astray
      refine .inr (.inr ⟨_, _, _, _, _, ?_, .gone idle.1 idle.2 kept listed gone⟩)
      simp [perform, ran, Except.map]

end Performing

section Keeping

theorem Served.sound (sound : Sound s sent cursor) (served : Served s t r) (ring : Ring t sent cursor')
    (listed : Listed t) : Sound t sent cursor' where
  ring := ring
  listed := listed
  counted := by rw [served.rxCnt, served.alive, sound.counted]
  closing closed := by
    rw [served.closed] at closed
    rw [served.numTx]
    exact sound.closing closed
  ended none := by
    rw [served.numTx] at none
    rw [served.closed, served.rxCnt]
    exact sound.ended none

theorem Performed.sound (sound : Sound s sent cursor) (performed : Performed s t sent cursor a answer wakers sent' cursor') :
    Sound t sent' cursor' := by
  cases performed with
  | @sent value wakers some receivers notified =>
    have written := sound.ring.written (sound.opened some) sound.counted.ge (Option.some value)
    have listed := sound.listed.written (Option.some value)
    constructor
    · exact notified.alike.ring written
    · exact notified.listed listed
    · rw [notified.rxCnt, notified.alike.alive]
      exact sound.counted
    · intro closed
      rw [notified.alike.closed] at closed
      rw [notified.numTx]
      exact sound.closing closed
    · intro none
      rw [notified.numTx] at none
      exact absurd none some.ne'
  | unsent none same =>
    subst same
    exact sound
  | joined about some same =>
    subst same
    constructor
    · exact sound.ring.subscribed
    · have unlisted : s.created ∉ s.tail.waiters := by
        intro member
        have unmade := sound.ring.unmade s.created (le_refl _)
        rw [(sound.listed.listed s.created member).1] at unmade
        exact absurd unmade (by decide)
      constructor
      · exact sound.listed.nodup
      · intro j member
        have other : j ≠ s.created := fun same => unlisted (same ▸ member)
        rw [subscribed, setReceiver]
        dsimp only
        rw [Function.update_of_ne other]
        exact sound.listed.listed j member
      · intro j queued
        by_cases same : j = s.created
        · simp [same, subscribed, setReceiver, Waiter.new] at queued
        · rw [subscribed, setReceiver] at queued
          dsimp only at queued
          rw [Function.update_of_ne same] at queued
          exact sound.listed.unlisted j queued
    · rw [alive_subscribed sound.ring, Finset.card_insert_of_notMem]
      · exact congrArg (· + 1) sound.counted
      · rw [mem_alive sound.ring, sound.ring.unmade s.created (le_refl _)]
        decide
    · exact sound.closing
    · intro none
      rcases about with rfl | ⟨r, rfl, alive⟩
      · exact absurd none (some rfl).ne'
      · rcases sound.ended none with closed | count
        · exact .inl closed
        · exact absurd count (sound.count_pos alive)
  | cloned some same =>
    subst same
    refine ⟨(alike_numTx s _).ring sound.ring, sound.listed.numTx _, sound.counted, ?_, ?_⟩
    · intro closed
      exact absurd (sound.closing closed) some.ne'
    · intro none
      exact absurd none (Nat.succ_ne_zero _)
  | left some last same =>
    subst same
    refine ⟨(alike_numTx s _).ring sound.ring, sound.listed.numTx _, sound.counted, ?_, ?_⟩
    · intro closed
      exact absurd (sound.closing closed) some.ne'
    · intro none
      have one : s.numTx - 1 = 0 := none
      rcases last with more | count
      · omega
      · exact .inr count
  | closed last receivers notified =>
    have written := ((alike_numTx s (s.numTx - 1)).ring sound.ring).written (sound.opened (by omega)) sound.counted.ge none
    rw [Option.toList_none, List.append_nil] at written
    have listed := (sound.listed.numTx (s.numTx - 1)).written none
    have last : t.numTx = 0 := by
      rw [notified.numTx]
      change s.numTx - 1 = 0
      omega
    refine ⟨notified.alike.ring written, notified.listed listed, ?_, fun _ => last, fun _ => .inl ?_⟩
    · rw [notified.rxCnt, notified.alike.alive]
      exact sound.counted
    · rw [notified.alike.closed]
      rfl
  | received alive idle taken kept listed served tail own => exact served.sound sound kept listed
  | polled alive taken kept listed served waits => exact served.sound sound kept listed
  | cancelled alive changed listed =>
    have served := changed.served fun _ other => List.mem_erase_of_ne other
    exact served.sound sound (changed.alike.ring sound.ring) listed
  | @gone r alive idle kept listed gone =>
    have fewer : t.alive = s.alive.erase r := by
      ext j
      rw [mem_alive kept, Finset.mem_erase, mem_alive sound.ring]
      by_cases same : j = r
      · simp [same, gone.dropped]
      · simp [same, gone.others j same]
    have member := (mem_alive sound.ring).mpr alive
    constructor
    · exact kept
    · exact listed
    · rw [gone.rxCnt, fewer, Finset.card_erase_of_mem member, sound.counted]
    · intro closed
      rw [gone.closed] at closed
      rw [gone.numTx]
      exact sound.closing closed
    · intro none
      rw [gone.numTx] at none
      rw [gone.closed, gone.rxCnt]
      rcases sound.ended none with closed | count
      · exact .inl closed
      · exact absurd count (sound.count_pos alive)

end Keeping

section Recency

/-- A position stands for the last of those with its word. -/
def Recent (s : Broadcast T W) (sent : List T) (cursor : Nat → Nat) : Prop :=
  ∀ r, (s.receivers r).dropped = false → s.positions sent < cursor r + 2 ^ 64

theorem Ring.ahead (ring : Ring s sent cursor) (ahead : ∀ r, (s.receivers r).dropped = false →
    cursor r ≤ cursor' r ∧ cursor' r ≤ s.positions sent ∧ BitVec.ofNat 64 (cursor' r) = BitVec.ofNat 64 (cursor r)) :
    Ring s sent cursor' where
  size := ring.size
  mask := ring.mask
  pos := ring.pos
  slots := ring.slots
  marks := ring.marks
  next r alive := by
    obtain ⟨_, within, same⟩ := ahead r alive
    exact ⟨(ring.next r alive).1.trans same.symm, within⟩
  held p retained r alive before := ring.held p retained r alive ((ahead r alive).1.trans before)
  remaining p retained := by
    refine (Finset.card_le_card ?_).trans (ring.remaining p retained)
    intro r member
    simp only [readers, Finset.mem_filter] at member ⊢
    exact ⟨member.1, member.2.1, (ahead r member.2.1).1.trans member.2.2⟩
  unmade := ring.unmade

theorem Sound.refreshed (sound : Sound s sent cursor)
    (close : ∀ r, (s.receivers r).dropped = false → s.positions sent ≤ cursor r + 2 ^ 64) :
    ∃ cursor', Sound s sent cursor' ∧ Recent s sent cursor' ∧ ∀ r, ∃ k, cursor' r = cursor r + 2 ^ 64 * k := by
  refine ⟨fun r => if s.positions sent < cursor r + 2 ^ 64 then cursor r else cursor r + 2 ^ 64,
    { sound with ring := sound.ring.ahead ?_ }, ?_, ?_⟩
  · intro r alive
    obtain ⟨_, least⟩ := sound.ring.next r alive
    have close := close r alive
    split
    next => exact ⟨le_refl _, least, rfl⟩
    next far =>
      refine ⟨by omega, by omega, ?_⟩
      apply BitVec.eq_of_toNat_eq
      simp only [BitVec.toNat_ofNat]
      omega
  · intro r alive
    have close := close r alive
    dsimp only
    split <;> omega
  · intro r
    dsimp only
    split
    next => exact ⟨0, rfl⟩
    next => exact ⟨1, rfl⟩

theorem Taken.ahead {c after : Nat} {result : Except TryRecvError T} (taken : Taken s sent c result after) :
    c ≤ after := by
  cases taken <;> omega

theorem Performed.close (sound : Sound s sent cursor) (recent : Recent s sent cursor)
    (performed : Performed s t sent cursor a answer wakers sent' cursor') :
    ∀ r, (t.receivers r).dropped = false → t.positions sent' ≤ cursor' r + 2 ^ 64 := by
  have served {r : Nat} {after : Nat} (served : Served s t r) (ahead : cursor r ≤ after) :
      ∀ j, (t.receivers j).dropped = false → t.positions sent ≤ Function.update cursor r after j + 2 ^ 64 := by
    intro j alive
    rw [served.positions]
    by_cases same : j = r
    · subst same
      rw [served.dropped] at alive
      have less := recent j alive
      rw [Function.update_self]
      omega
    · rw [served.others j same] at alive
      rw [Function.update_of_ne same]
      exact (recent j alive).le
  cases performed with
  | @sent value wakers some _ notified =>
    intro r alive
    have more := positions_written sent (sound.opened some) (Option.some value)
    rw [Option.toList_some] at more
    rw [notified.alike.dropped] at alive
    rw [notified.alike.positions, more]
    exact recent r alive
  | unsent _ same =>
    subst same
    exact fun r alive => (recent r alive).le
  | joined about _ same =>
    subst same
    intro r alive
    change s.positions sent ≤ _
    by_cases new : r = s.created
    · rw [new, Function.update_self]
      omega
    · rw [subscribed, setReceiver] at alive
      dsimp only at alive
      rw [Function.update_of_ne new] at alive ⊢
      exact (recent r alive).le
  | cloned _ same =>
    subst same
    exact fun r alive => (recent r alive).le
  | left _ _ same =>
    subst same
    exact fun r alive => (recent r alive).le
  | closed last _ notified =>
    intro r alive
    have open_ : { s with numTx := s.numTx - 1 }.tail.closed = false := sound.opened (by omega)
    have more := positions_written sent open_ none
    rw [Option.toList_none, List.append_nil] at more
    rw [notified.alike.dropped] at alive
    rw [notified.alike.positions, more]
    exact recent r alive
  | received _ _ taken _ _ kept _ _ => exact served kept taken.ahead
  | polled _ taken _ _ kept _ => exact served kept taken.ahead
  | @cancelled r _ changed _ =>
    have kept := served (changed.served fun _ other => List.mem_erase_of_ne other) (le_refl (cursor r))
    rw [Function.update_eq_self] at kept
    exact kept
  | @gone r _ _ _ _ gone =>
    intro j alive
    have other : j ≠ r := by
      rintro rfl
      rw [gone.dropped] at alive
      exact absurd alive (by decide)
    rw [gone.others j other] at alive
    rw [Broadcast.positions, gone.closed]
    exact (recent j alive).le

end Recency

section Journals

structure Journal (T W : Type) where
  sent : List T
  -- the positions that were in use when a receiver came
  since : Nat → Nat
  receipts : Nat → List (Except TryRecvError T)
  -- the waker of a recv that is pending, and the wakers that have been woken meanwhile
  asked : Nat → Option W
  woken : Nat → List W

def Journal.first : Journal T W := ⟨[], fun _ => 0, fun _ => [], fun _ => none, fun _ => []⟩

def Journal.received (j : Journal T W) (r : Nat) (result : Except TryRecvError T) : Journal T W :=
  { j with receipts := Function.update j.receipts r (j.receipts r ++ [result]) }

def Journal.joined (j : Journal T W) (s : Broadcast T W) : Journal T W :=
  { j with since := Function.update j.since s.created (s.positions j.sent) }

def Journal.told (j : Journal T W) (s : Broadcast T W) : BroadcastAction T W → Answer T → Journal T W
  | .send value, .sent (some _) => { j with sent := j.sent ++ [value] }
  | .subscribe, _ => j.joined s
  | .resubscribe _, _ => j.joined s
  | .tryRecv r, .received result => j.received r result
  | .pollRecv r waker, .polled result =>
    { j.received r (polled result) with
      asked := Function.update j.asked r (if result.isNone then some waker else none)
      woken := Function.update j.woken r [] }
  | .dropRecv r, _ => { j with asked := Function.update j.asked r none }
  | _, _ => j

theorem Performed.told_sent {j : Journal T W} (performed : Performed s t j.sent cursor a answer wakers sent' cursor') :
    (j.told s a answer).sent = sent' := by
  cases performed with
  | joined about _ _ => rcases about with rfl | ⟨r, rfl, _⟩ <;> rfl
  | _ => rfl

variable [Wakers W]

def Journal.observe (j : Journal T W) (s : Broadcast T W) (a : BroadcastAction T W) (_ : Broadcast T W) :
    Journal T W :=
  match s.perform a with
  | .ok (answer, _, wakers) => { j with woken := fun r => j.woken r ++ wakers }.told s a answer
  | .error _ => j

def journaled (T W : Type) [Wakers W] (capacity : Nat) :
    System (Broadcast T W × Journal T W) (BroadcastAction T W) Fault :=
  (machine T W capacity).observed .first Journal.observe

theorem step_performs (sound : Sound s sent cursor) (recent : Recent s sent cursor) (stepped : s.step a = .next t) :
    ∃ answer wakers sent' cursor', s.perform a = .ok (answer, t, wakers) ∧
      Performed s t sent cursor a answer wakers sent' cursor' := by
  unfold step at stepped
  split at stepped
  case isFalse => cases stepped
  case isTrue allowed =>
    rcases perform_performed sound allowed recent with ⟨failed, _⟩ | ⟨failed, _⟩ | ⟨answer, u, wakers, sent', cursor', ran, done⟩
    · simp [failed, Outcome.attempt] at stepped
    · simp [failed, Outcome.attempt] at stepped
    · rw [ran] at stepped
      obtain rfl : u = t := by simpa using stepped
      exact ⟨answer, wakers, sent', cursor', ran, done⟩

omit [Wakers W] in
theorem Made.sound {capacity : Nat} (made : Made s capacity) : Sound s [] fun _ => 0 where
  ring := made.ring
  listed := made.listed
  counted := by
    rw [made.rxCnt, made.alive]
    rfl
  closing closed := by
    rw [made.closed] at closed
    exact absurd closed (by decide)
  ended none := by
    rw [made.numTx] at none
    exact absurd none (by decide)

theorem journaled_sound {capacity : Nat} {j : Journal T W} (reached : (journaled T W capacity).Reachable (s, j)) :
    ∃ cursor, Sound s j.sent cursor ∧ Recent s j.sent cursor := by
  apply System.Reachable.watched (P := fun s j => ∃ cursor, Sound s j.sent cursor ∧ Recent s j.sent cursor) _ _ reached
  · intro s made
    refine ⟨fun _ => 0, (channel_made made).sound, ?_⟩
    intro r _
    simp [positions, (channel_made made).closed, Journal.first]
  · rintro s j a t - ⟨cursor, sound, recent⟩ - stepped
    obtain ⟨answer, wakers, sent', cursor', ran, performed⟩ := step_performs sound recent stepped
    have sent : (j.observe s a t).sent = sent' := by
      simp only [Journal.observe, ran]
      exact performed.told_sent (j := { j with woken := fun r => j.woken r ++ wakers })
    obtain ⟨cursor', sound, recent, _⟩ := (performed.sound sound).refreshed (performed.close sound recent)
    rw [sent]
    exact ⟨cursor', sound, recent⟩

theorem machine_sound {capacity : Nat} (reached : (machine T W capacity).Reachable s) :
    ∃ sent cursor, Sound s sent cursor ∧ Recent s sent cursor := by
  obtain ⟨j, seen⟩ : ∃ j, (journaled T W capacity).Reachable (s, j) := reached.observed
  obtain ⟨cursor, sound, recent⟩ := journaled_sound seen
  exact ⟨j.sent, cursor, sound, recent⟩

end Journals

end Osaka.Sync.Broadcast
