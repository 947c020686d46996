import Osaka.Sync.BroadcastSending

set_option autoImplicit false

namespace Osaka.Sync.Broadcast

open Transitions

variable {T W : Type} {s t u : Broadcast T W} {r : Nat} {sent : List T} {cursor : Nat → Nat}

section Serving

structure Served (s t : Broadcast T W) (r : Nat) : Prop where
  len : t.len = s.len
  rxCnt : t.tail.rxCnt = s.tail.rxCnt
  pos : t.tail.pos = s.tail.pos
  closed : t.tail.closed = s.tail.closed
  numTx : t.numTx = s.numTx
  created : t.created = s.created
  others : ∀ j, j ≠ r → t.receivers j = s.receivers j
  dropped : (t.receivers r).dropped = (s.receivers r).dropped
  waits : ∀ j, j ≠ r → (j ∈ t.tail.waiters ↔ j ∈ s.tail.waiters)

theorem Served.refl (s : Broadcast T W) (r : Nat) : Served s s r :=
  ⟨rfl, rfl, rfl, rfl, rfl, rfl, fun _ _ => rfl, rfl, fun _ _ => Iff.rfl⟩

theorem Served.trans (first : Served s t r) (second : Served t u r) : Served s u r where
  len := second.len.trans first.len
  rxCnt := second.rxCnt.trans first.rxCnt
  pos := second.pos.trans first.pos
  closed := second.closed.trans first.closed
  numTx := second.numTx.trans first.numTx
  created := second.created.trans first.created
  others j other := (second.others j other).trans (first.others j other)
  dropped := second.dropped.trans first.dropped
  waits j other := (second.waits j other).trans (first.waits j other)

theorem Served.positions (served : Served s t r) (sent : List T) : t.positions sent = s.positions sent := by
  rw [Broadcast.positions, Broadcast.positions, served.closed]

theorem Served.alive (served : Served s t r) : t.alive = s.alive := by
  unfold Broadcast.alive
  rw [served.created]
  apply Finset.filter_congr
  intro j _
  by_cases same : j = r
  · rw [same, served.dropped]
  · rw [served.others j same]

theorem served_setNext (s : Broadcast T W) (r : Nat) (next : BitVec 64) : Served s (s.setNext r next) r := by
  refine ⟨rfl, rfl, rfl, rfl, rfl, rfl, ?_, (setNext_apply s r next r).1, fun _ _ => Iff.rfl⟩
  intro j other
  exact Function.update_of_ne other _ _

theorem Rewaited.served {borrowed : Bool} {waiter : Waiter W} {waiters : List Nat}
    (rewaited : Rewaited s t r borrowed waiter waiters)
    (waits : ∀ j, j ≠ r → (j ∈ waiters ↔ j ∈ s.tail.waiters)) : Served s t r where
  len := rewaited.alike.len
  rxCnt := rewaited.rxCnt
  pos := rewaited.alike.pos
  closed := rewaited.alike.closed
  numTx := rewaited.numTx
  created := rewaited.alike.created
  others := rewaited.others
  dropped := rewaited.alike.dropped r
  waits j other := by rw [rewaited.waiters, waits j other]

theorem Listed.advanced (listed : Listed s) {next : BitVec 64} (waiters : t.tail.waiters = s.tail.waiters)
    (receivers : t.receivers = (s.setNext r next).receivers) : Listed t := by
  have kept (j : Nat) : (t.receivers j).dropped = (s.receivers j).dropped ∧
      (t.receivers j).borrowed = (s.receivers j).borrowed ∧ (t.receivers j).waiter = (s.receivers j).waiter := by
    rw [receivers]
    by_cases same : j = r
    · simp [setNext, setReceiver, same]
    · simp [setNext, setReceiver, Function.update_of_ne same]
  constructor
  · rw [waiters]
    exact listed.nodup
  · intro j member
    rw [waiters] at member
    rw [(kept j).1, (kept j).2.1, (kept j).2.2]
    exact listed.listed j member
  · intro j queued
    rw [waiters]
    rw [(kept j).2.2] at queued
    exact listed.unlisted j queued

end Serving

section Receiving

/-- The answer to a receive, by where the receiver is, and where it is then. -/
inductive Taken (s : Broadcast T W) (sent : List T) (c : Nat) : Except TryRecvError T → Nat → Prop where
  | value {value : T} : s.Near sent c → s.Retained sent c → sent[c]? = some value → Taken s sent c (.ok value) (c + 1)
  | lagged : s.Near sent c → c + s.len < sent.length →
      Taken s sent c (.error (.lagged (BitVec.ofNat 64 (sent.length - s.len - c)))) (sent.length - s.len)
  | closed : s.Near sent c → s.tail.closed = true → c = sent.length → Taken s sent c (.error .closed) (c + 1)
  | empty : s.Level sent c → Taken s sent c (.error .empty) c

theorem Served.near (served : Served s t r) {c : Nat} : t.Near sent c ↔ s.Near sent c := by
  rw [Near, Near, served.positions, served.len]

theorem Served.level (served : Served s t r) {c : Nat} : t.Level sent c ↔ s.Level sent c := by
  rw [Level, Level, served.near, served.positions]

theorem Taken.congr {c : Nat} {result : Except TryRecvError T} {after : Nat} (served : Served s t r)
    (taken : Taken t sent c result after) : Taken s sent c result after := by
  cases taken with
  | value near retained found =>
    rw [Retained, served.len] at retained
    exact .value (served.near.mp near) retained found
  | lagged near apart =>
    rw [served.len] at apart ⊢
    exact .lagged (served.near.mp near) apart
  | closed near closed here => exact .closed (served.near.mp near) (served.closed ▸ closed) here
  | empty level => exact .empty (served.level.mp level)

theorem Ring.guarded (ring : Ring s sent cursor) (listed : Listed s) (alive : (s.receivers r).dropped = false)
    (retained : s.Retained sent (cursor r)) :
    ∃ value u, sent[cursor r]? = some value ∧
      (s.setNext r (BitVec.ofNat 64 (cursor r + 1))).readGuard (cursor r % s.len) = .ok (some value, u) ∧
      (s.setNext r (BitVec.ofNat 64 (cursor r + 1))).dropGuard (cursor r % s.len) = .ok u ∧
      Ring u sent (Function.update cursor r (cursor r + 1)) ∧ Listed u ∧ Served s u r ∧
      u.receivers r = { s.receivers r with next := BitVec.ofNat 64 (cursor r + 1) } ∧ u.tail = s.tail := by
  obtain ⟨value, u, stored, read, moved, receivers, tail, numTx, created, len⟩ := ring.read alive retained
  have dropped : (s.setNext r (BitVec.ofNat 64 (cursor r + 1))).dropGuard (cursor r % s.len) = .ok u := by
    unfold readGuard at read
    cases ran : (s.setNext r (BitVec.ofNat 64 (cursor r + 1))).dropGuard (cursor r % s.len) with
    | ok v =>
      rw [ran] at read
      rw [(Prod.mk.inj (Except.ok.inj read)).2]
    | error fault =>
      rw [ran] at read
      cases read
  refine ⟨value, u, stored, read, dropped, moved, listed.advanced (by rw [tail]) receivers, ?_, ?_, tail⟩
  · refine ⟨len, by rw [tail], by rw [tail], by rw [tail], numTx, created, ?_, ?_, by simp [tail]⟩
    · intro j other
      rw [receivers]
      exact Function.update_of_ne other _ _
    · rw [receivers]
      exact (setNext_apply s r _ r).1
  · rw [receivers]
    exact Function.update_self ..

theorem Ring.lagging (ring : Ring s sent cursor) (apart : cursor r + s.len < sent.length) :
    Ring (s.setNext r (BitVec.ofNat 64 (sent.length - s.len))) sent
      (Function.update cursor r (sent.length - s.len)) := by
  apply ring.moved (by omega)
  unfold positions
  omega

theorem Ring.closing (ring : Ring s sent cursor) (closed : s.tail.closed = true) (here : cursor r = sent.length) :
    Ring (s.setNext r (BitVec.ofNat 64 (cursor r + 1))) sent (Function.update cursor r (cursor r + 1)) := by
  apply ring.moved (by omega)
  simp [positions, closed, here]

variable [Wakers W]

theorem tryRecv_taken (ring : Ring s sent cursor) (listed : Listed s) (alive : (s.receivers r).dropped = false)
    (recent : s.positions sent < cursor r + 2 ^ 64) :
    ∃ result t after, s.tryRecv r = .ok (result, t) ∧ Taken s sent (cursor r) result after ∧
      Ring t sent (Function.update cursor r after) ∧ Listed t ∧ Served s t r ∧ t.tail = s.tail ∧
      t.receivers r = { s.receivers r with next := BitVec.ofNat 64 after } := by
  obtain ⟨result, t, ran, received⟩ := recvRef_received none ring alive recent (fun _ given => nomatch given)
  have self (next : BitVec 64) : (s.setNext r next).receivers r = { s.receivers r with next := next } :=
    Function.update_self ..
  unfold tryRecv
  rw [ran]
  cases received with
  | value near retained moved =>
    obtain ⟨value, u, stored, read, _, kept, listed', served, own, tail⟩ := ring.guarded listed alive retained
    rw [← moved] at read
    refine ⟨.ok value, u, _, ?_, .value near retained stored, kept, listed', served, tail, own⟩
    dsimp only
    rw [read]
    rfl
  | lagged near apart moved =>
    subst moved
    exact ⟨_, _, _, rfl, .lagged near apart, ring.lagging apart, listed.advanced rfl rfl, served_setNext s r _, rfl,
      self _⟩
  | closed near closed here moved =>
    subst moved
    exact ⟨_, _, _, rfl, .closed near closed here, ring.closing closed here, listed.advanced rfl rfl,
      served_setNext s r _, rfl, self _⟩
  | empty level _ same =>
    subst same
    refine ⟨_, _, _, rfl, .empty level, ?_, listed, .refl _ r, rfl, ?_⟩
    · rw [Function.update_eq_self]
      exact ring
    · rw [← (ring.next r alive).1]
  | queued _ given _ => exact absurd given (by simp)

def polled : Option (Except RecvError T) → Except TryRecvError T
  | none => .error .empty
  | some (.ok value) => .ok value
  | some (.error .closed) => .error .closed
  | some (.error (.lagged n)) => .error (.lagged n)

theorem pollRecv_taken (ring : Ring s sent cursor) (listed : Listed s) (alive : (s.receivers r).dropped = false)
    (recent : s.positions sent < cursor r + 2 ^ 64) (waker : W) :
    ∃ result t after, s.pollRecv r waker = .ok (result, t) ∧ Taken s sent (cursor r) (polled result) after ∧
      Ring t sent (Function.update cursor r after) ∧ Listed t ∧ Served s t r ∧
      (result = none → r ∈ t.tail.waiters ∧ (t.receivers r).waiter.waker = some waker) := by
  obtain ⟨waiter, changed, listed⟩ := newRecv_rewaited listed r
  have begun := changed.served fun _ _ => Iff.rfl
  have borrowed : ((s.newRecv r).receivers r).borrowed = true := by rw [changed.own]
  rw [← begun.dropped] at alive
  have ring := changed.alike.ring ring
  rw [← begun.positions] at recent
  obtain ⟨result, t, ran, received⟩ := recvRef_received (some waker) ring alive recent (by
    intro given _
    obtain ⟨t, _, ran, _⟩ := register_ok listed alive borrowed given
    exact ⟨t, ran⟩)
  have finished {u : Broadcast T W} {after : Nat} (kept : Ring u sent (Function.update cursor r after))
      (listed : Listed u) (served : Served (s.newRecv r) u r) :
      Ring (u.dropRecv r) sent (Function.update cursor r after) ∧ Listed (u.dropRecv r) ∧ Served s (u.dropRecv r) r := by
    obtain ⟨changed, listed⟩ := dropRecv_rewaited listed r
    have ended := changed.served fun _ other => List.mem_erase_of_ne other
    exact ⟨changed.alike.ring kept, listed, begun.trans (served.trans ended)⟩
  unfold pollRecv
  rw [ran]
  cases received with
  | value near retained moved =>
    obtain ⟨value, u, stored, read, _, kept, listed', served, _⟩ := ring.guarded listed alive retained
    rw [← moved] at read
    obtain ⟨kept, listed', served⟩ := finished kept listed' served
    refine ⟨some (.ok value), u.dropRecv r, _, ?_, .congr begun (.value near retained stored), kept, listed', served,
      by simp⟩
    dsimp only
    rw [read]
    rfl
  | lagged near apart moved =>
    subst moved
    obtain ⟨kept, listed', served⟩ := finished (ring.lagging apart) (listed.advanced rfl rfl)
      (served_setNext (s.newRecv r) r _)
    exact ⟨_, _, _, rfl, .congr begun (.lagged near apart), kept, listed', served, by simp⟩
  | closed near closed here moved =>
    subst moved
    obtain ⟨kept, listed', served⟩ := finished (ring.closing closed here) (listed.advanced rfl rfl)
      (served_setNext (s.newRecv r) r _)
    exact ⟨_, _, _, rfl, .congr begun (.closed near closed here), kept, listed', served, by simp⟩
  | empty level none _ => exact absurd none (by simp)
  | @queued given level same registered =>
    obtain rfl := Option.some.inj same
    obtain ⟨u, waiters, registered', changed, member, others, listed⟩ := register_ok listed alive borrowed waker
    obtain rfl := Except.ok.inj (registered'.symm.trans registered)
    refine ⟨none, u, cursor r, rfl, .congr begun (.empty level), ?_, listed, begun.trans (changed.served others), ?_⟩
    · rw [Function.update_eq_self]
      exact changed.alike.ring ring
    · intro _
      rw [changed.waiters, changed.own]
      exact ⟨member, rfl⟩

end Receiving

section Straying

/-- The loop in Receiver::drop would find the channel empty. -/
def Astray (s : Broadcast T W) (r : Nat) : Prop :=
  (s.receivers r).next < s.tail.pos ∧ 2 ^ 64 < (s.tail.pos - (s.receivers r).next).toNat + s.len

instance (s : Broadcast T W) (r : Nat) : Decidable (s.Astray r) := inferInstanceAs (Decidable (_ ∧ _))

theorem Ring.behind (ring : Ring s sent cursor) (alive : (s.receivers r).dropped = false)
    (recent : s.positions sent < cursor r + 2 ^ 64) :
    (s.tail.pos - (s.receivers r).next).toNat = s.positions sent - cursor r := by
  obtain ⟨next, least⟩ := ring.next r alive
  rw [ring.pos, next, ofNat_sub least, BitVec.toNat_ofNat, Nat.mod_eq_of_lt (by omega)]

theorem astray_iff (ring : Ring s sent cursor) (alive : (s.receivers r).dropped = false)
    (recent : s.positions sent < cursor r + 2 ^ 64) :
    s.Astray r ↔ (s.receivers r).next < s.tail.pos ∧ ¬s.Near sent (cursor r) := by
  obtain ⟨next, least⟩ := ring.next r alive
  unfold Astray Near
  rw [ring.behind alive recent]
  apply and_congr_right
  intro _
  omega

theorem Ring.dropping {c : Nat} (ring : Ring s sent (Function.update cursor r c)) :
    Ring (s.setReceiver r { s.receivers r with dropped := true }) sent cursor := by
  have own : (s.setReceiver r { s.receivers r with dropped := true }).receivers r =
      { s.receivers r with dropped := true } := Function.update_self ..
  have others (j : Nat) (other : j ≠ r) :
      (s.setReceiver r { s.receivers r with dropped := true }).receivers j = s.receivers j :=
    Function.update_of_ne other _ _
  have other {j : Nat} (alive : ((s.setReceiver r { s.receivers r with dropped := true }).receivers j).dropped = false) :
      j ≠ r := by
    rintro rfl
    rw [own] at alive
    exact absurd alive (by simp)
  constructor
  · exact ring.size
  · exact ring.mask
  · exact ring.pos
  · exact ring.slots
  · exact ring.marks
  · intro j alive
    have next := ring.next j
    have apart := other alive
    rw [others j apart] at alive ⊢
    rw [Function.update_of_ne apart] at next
    exact next alive
  · intro p retained j alive before
    have held := ring.held p retained j
    have apart := other alive
    rw [others j apart] at alive
    rw [Function.update_of_ne apart] at held
    exact held alive before
  · intro p retained
    refine (Finset.card_le_card ?_).trans (ring.remaining p retained)
    intro j member
    simp only [readers, Finset.mem_filter, Finset.mem_range] at member ⊢
    obtain ⟨made, alive, before⟩ := member
    have apart := other alive
    rw [others j apart] at alive
    rw [Function.update_of_ne apart]
    exact ⟨made, alive, before⟩
  · intro j unmade
    by_cases same : j = r
    · rw [same, own]
    · rw [others j same]
      exact ring.unmade j unmade

theorem Listed.dropping (listed : Listed s) (idle : (s.receivers r).borrowed = false) :
    Listed (s.setReceiver r { s.receivers r with dropped := true }) := by
  have unlisted := (listed.idle idle).2
  have others (j : Nat) (other : j ≠ r) :
      (s.setReceiver r { s.receivers r with dropped := true }).receivers j = s.receivers j :=
    Function.update_of_ne other _ _
  constructor
  · exact listed.nodup
  · intro j member
    have other : j ≠ r := fun same => unlisted (same ▸ member)
    rw [others j other]
    exact listed.listed j member
  · intro j queued
    by_cases same : j = r
    · subst same
      refine listed.unlisted j ?_
      simpa [setReceiver] using queued
    · rw [others j same] at queued
      exact listed.unlisted j queued

end Straying

section Draining

variable [Wakers W]

theorem drain_ok {fuel : Nat} (ring : Ring s sent cursor) (listed : Listed s)
    (alive : (s.receivers r).dropped = false) (near : s.Near sent (cursor r))
    (enough : s.positions sent - cursor r ≤ fuel) :
    ∃ t after, s.drain r s.tail.pos fuel = .ok t ∧ Ring t sent (Function.update cursor r after) ∧ Listed t ∧
      Served s t r ∧ (t.receivers r).borrowed = (s.receivers r).borrowed ∧
      (t.receivers r).waiter = (s.receivers r).waiter ∧ t.tail = s.tail := by
  induction fuel generalizing s cursor with
  | zero =>
    obtain ⟨next, least⟩ := ring.next r alive
    have here : cursor r = s.positions sent := by omega
    have done : ¬(s.receivers r).next < s.tail.pos := by
      rw [next, here, ring.pos]
      exact BitVec.lt_irrefl _
    refine ⟨s, cursor r, if_neg done, ?_, listed, .refl s r, rfl, rfl, rfl⟩
    rw [Function.update_eq_self]
    exact ring
  | succ fuel ih =>
    by_cases more : (s.receivers r).next < s.tail.pos
    swap
    · refine ⟨s, cursor r, if_neg more, ?_, listed, .refl s r, rfl, rfl, rfl⟩
      rw [Function.update_eq_self]
      exact ring
    obtain ⟨next, least⟩ := ring.next r alive
    have positive := ring.positive
    have bound : s.positions sent + s.len ≤ cursor r + 2 ^ 64 := near
    have behind : ¬s.Level sent (cursor r) := by
      rintro (here | far)
      · rw [next, here, ring.pos] at more
        exact BitVec.lt_irrefl _ more
      · exact far near
    obtain ⟨result, t, ran, received⟩ := recvRef_received none ring alive (by omega)
      (fun _ given => nomatch given)
    have again {u : Broadcast T W} {after : Nat} (kept : Ring u sent (Function.update cursor r after))
        (listed : Listed u) (served : Served s u r) (tail : u.tail = s.tail)
        (own : u.receivers r = { s.receivers r with next := BitVec.ofNat 64 after }) (ahead : cursor r < after) :
        ∃ t final, u.drain r s.tail.pos fuel = .ok t ∧ Ring t sent (Function.update cursor r final) ∧ Listed t ∧
          Served s t r ∧ (t.receivers r).borrowed = (s.receivers r).borrowed ∧
          (t.receivers r).waiter = (s.receivers r).waiter ∧ t.tail = s.tail := by
      have alive : (u.receivers r).dropped = false := by rw [own]; exact alive
      have near : u.Near sent (Function.update cursor r after r) := by
        rw [Near, served.positions, served.len, Function.update_self]
        omega
      obtain ⟨t, final, ran, kept, listed, served', borrowed, waiter, tail'⟩ := ih kept listed alive near (by
        rw [served.positions, Function.update_self]
        omega)
      rw [tail] at ran
      rw [Function.update_idem] at kept
      rw [own] at borrowed waiter
      exact ⟨t, final, ran, kept, listed, served.trans served', borrowed, waiter, tail'.trans tail⟩
    have self (next : BitVec 64) : (s.setNext r next).receivers r = { s.receivers r with next := next } :=
      Function.update_self ..
    unfold drain
    rw [if_pos more, ran]
    cases received with
    | value near retained moved =>
      obtain ⟨value, u, _, _, dropped, kept, listed', served, own, tail⟩ := ring.guarded listed alive retained
      rw [← moved] at dropped
      dsimp only
      rw [dropped]
      exact again kept listed' served tail own (by omega)
    | lagged near apart moved =>
      subst moved
      exact again (ring.lagging apart) (listed.advanced rfl rfl) (served_setNext s r _) rfl (self _) (by omega)
    | closed near closed here moved =>
      subst moved
      exact ⟨_, _, rfl, ring.closing closed here, listed.advanced rfl rfl, served_setNext s r _, by rw [self],
        by rw [self], rfl⟩
    | empty level _ _ => exact absurd level behind
    | queued level _ _ => exact absurd level behind

structure Gone (s t : Broadcast T W) (r : Nat) : Prop where
  len : t.len = s.len
  rxCnt : t.tail.rxCnt = s.tail.rxCnt - 1
  pos : t.tail.pos = s.tail.pos
  closed : t.tail.closed = s.tail.closed
  numTx : t.numTx = s.numTx
  created : t.created = s.created
  others : ∀ j, j ≠ r → t.receivers j = s.receivers j
  dropped : (t.receivers r).dropped = true
  waits : t.tail.waiters = s.tail.waiters

omit [Wakers W] in
theorem alike_rxCnt (s : Broadcast T W) (n : Nat) : Alike s { s with tail := { s.tail with rxCnt := n } } :=
  ⟨rfl, rfl, rfl, rfl, rfl, rfl, fun _ => rfl, fun _ => rfl⟩

omit [Wakers W] in
theorem Listed.rxCnt (listed : Listed s) (n : Nat) : Listed { s with tail := { s.tail with rxCnt := n } } :=
  ⟨listed.nodup, listed.listed, listed.unlisted⟩

theorem dropReceiver_gone (ring : Ring s sent cursor) (listed : Listed s) (alive : (s.receivers r).dropped = false)
    (idle : (s.receivers r).borrowed = false) (recent : s.positions sent < cursor r + 2 ^ 64)
    (counted : s.tail.rxCnt ≠ 0) (found : ¬s.Astray r) :
    ∃ t, s.dropReceiver r = .ok t ∧ Ring t sent cursor ∧ Listed t ∧ Gone s t r := by
  let t := { s with tail := { s.tail with rxCnt := s.tail.rxCnt - 1 } }
  have ring' : Ring t sent cursor := (alike_rxCnt s _).ring ring
  have listed' : Listed t := listed.rxCnt _
  have fuel : (t.tail.pos - (t.receivers r).next).toNat = s.positions sent - cursor r := ring.behind alive recent
  obtain ⟨u, after, ran, kept, listed', served, borrowed, _, tail⟩ :
      ∃ u after, t.drain r t.tail.pos (t.tail.pos - (t.receivers r).next).toNat = .ok u ∧
        Ring u sent (Function.update cursor r after) ∧ Listed u ∧ Served t u r ∧
        (u.receivers r).borrowed = (t.receivers r).borrowed ∧ (u.receivers r).waiter = (t.receivers r).waiter ∧
        u.tail = t.tail := by
    rw [astray_iff ring alive recent, not_and, not_not] at found
    by_cases more : (s.receivers r).next < s.tail.pos
    · exact drain_ok ring' listed' alive (found more) (by rw [fuel]; exact le_refl _)
    · refine ⟨t, cursor r, ?_, ?_, listed', .refl t r, rfl, rfl, rfl⟩
      · cases (t.tail.pos - (t.receivers r).next).toNat <;> exact if_neg more
      · rw [Function.update_eq_self]
        exact ring'
  refine ⟨u.setReceiver r { u.receivers r with dropped := true }, ?_, kept.dropping,
    listed'.dropping (borrowed.trans idle), ?_⟩
  · unfold dropReceiver
    rw [if_neg counted]
    change (t.drain r _ _).map _ = _
    rw [ran]
    rfl
  · refine ⟨served.len, served.rxCnt, served.pos, served.closed, served.numTx, served.created, ?_, ?_, ?_⟩
    · intro j other
      exact (Function.update_of_ne other _ _).trans (served.others j other)
    · simp [setReceiver]
    · change u.tail.waiters = _
      rw [tail]

theorem dropReceiver_astray (ring : Ring s sent cursor) (alive : (s.receivers r).dropped = false)
    (recent : s.positions sent < cursor r + 2 ^ 64) (counted : s.tail.rxCnt ≠ 0) (astray : s.Astray r) :
    s.dropReceiver r = .error .unexpectedEmpty := by
  let t := { s with tail := { s.tail with rxCnt := s.tail.rxCnt - 1 } }
  have far := ((astray_iff ring alive recent).mp astray).2
  have small := ring.small
  obtain ⟨fuel, more⟩ : ∃ fuel, (t.tail.pos - (t.receivers r).next).toNat = fuel + 1 := by
    have bound : 2 ^ 64 < (t.tail.pos - (t.receivers r).next).toNat + s.len := astray.2
    exact ⟨(t.tail.pos - (t.receivers r).next).toNat - 1, by omega⟩
  obtain ⟨result, u, ran, received⟩ := recvRef_received (s := t) none ((alike_rxCnt s _).ring ring) alive recent
    (fun _ given => nomatch given)
  have blank : result = .error .empty := by
    cases received with
    | value near _ _ => exact absurd near far
    | lagged near _ _ => exact absurd near far
    | closed near _ _ _ => exact absurd near far
    | empty _ _ _ => rfl
    | queued _ _ _ => rfl
  unfold dropReceiver
  rw [if_neg counted]
  change (t.drain r _ _).map _ = _
  rw [more, drain, if_pos astray.1, ran, blank]
  rfl

end Draining

end Osaka.Sync.Broadcast
