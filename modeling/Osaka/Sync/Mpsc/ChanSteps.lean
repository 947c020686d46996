import Osaka.Sync.Mpsc.BlockListRuns
import Osaka.Sync.Mpsc.ChanSemaphores

set_option autoImplicit false

namespace Osaka.Sync.Mpsc

variable {T W : Type}

section Queued

def Queued (q : Fifo T) (l : BlockList T) : Prop := ∃ y, Represents y q l

variable {q : Fifo T} {l : BlockList T}

theorem Queued.push (queued : Queued q l) (opened : q.closed = false) (value : T) :
    ∃ m, l.push value = .ok m ∧ Queued { q with values := q.values ++ [value] } m := by
  obtain ⟨y, rep⟩ := queued
  obtain ⟨z, m, ran, after⟩ := push_spec rep opened value
  exact ⟨m, ran, z, after⟩

theorem Queued.close (queued : Queued q l) (opened : q.closed = false) :
    ∃ m, l.close = .ok m ∧ Queued { q with closed := true } m := by
  obtain ⟨y, rep⟩ := queued
  obtain ⟨z, m, ran, after⟩ := close_spec rep opened
  exact ⟨m, ran, z, after⟩

theorem Queued.pop (queued : Queued q l) :
    ∃ m, l.pop = .ok (q.pop.1, m) ∧ Queued q.pop.2 m ∧ m.tailPosition = l.tailPosition := by
  obtain ⟨y, rep⟩ := queued
  obtain ⟨z, m, ran, after, position⟩ := pop_spec rep
  exact ⟨m, ran, ⟨z, after⟩, position⟩

theorem Queued.tryPop (queued : Queued q l) : ∃ m, l.tryPop = .ok (q.tryPop, m) ∧ Queued q.pop.2 m := by
  obtain ⟨y, rep⟩ := queued
  obtain ⟨z, m, ran, after⟩ := tryPop_spec rep
  exact ⟨m, ran, z, after⟩

theorem Queued.length_le (queued : Queued q l) : q.values.length ≤ l.tailPosition := by
  obtain ⟨y, rep⟩ := queued
  have position := rep.position
  omega

end Queued

namespace Chan

/-- The queue is `q`, and `outside` permits are neither in the semaphore nor with a value. -/
structure Keeps (c : Chan T W) (q : Fifo T) (outside : Nat) : Prop where
  list : Queued q c.list
  closed : q.closed = decide (c.txCount = 0)
  lends : c.semaphore.Lends c.rxClosed (outside + q.values.length)

def Ready (c : Chan T W) (q : Fifo T) : Prop :=
  q.values ≠ [] ∨ q.closed = true ∨ c.rxClosed = true ∧ c.semaphore.isIdle = true

/-- Whether there is nothing, and will be nothing, to receive. -/
def Ended (c : Chan T W) (q : Fifo T) : Prop :=
  q.values = [] ∧ (q.closed = true ∨ c.rxClosed = true ∧ c.semaphore.isIdle = true)

/-- What the senders' steps have in common. One that is `lost` may leave the receiver asleep. -/
structure Leads (lost : Prop) (c : Chan T W) (q : Fifo T) (d : Chan T W) (r : Fifo T) (wakers : List W) : Prop where
  rxClosed : d.rxClosed = c.rxClosed
  buffer : d.semaphore.buffer = c.semaphore.buffer
  waker : d.rxWaker = c.rxWaker ∨ d.rxWaker = none ∧ ∀ w, c.rxWaker = some w → w ∈ wakers
  told : ¬lost → d.Ready r → c.Ready q ∨ d.rxWaker = none
  ended : c.Ended q → d.Ended r

variable {c d e : Chan T W} {q r u : Fifo T} {outside : Nat} {lost : Prop} {wakers more : List W}

theorem Leads.trans (first : Leads lost c q d r wakers) (second : Leads lost d r e u more) :
    Leads lost c q e u (wakers ++ more) := by
  constructor
  · exact second.rxClosed.trans first.rxClosed
  · exact second.buffer.trans first.buffer
  · rcases second.waker with same | ⟨none, woken⟩
    · rcases first.waker with same' | ⟨none', woken'⟩
      · exact .inl (same.trans same')
      · exact .inr ⟨same.trans none', fun w stored => List.mem_append_left _ (woken' w stored)⟩
    · refine .inr ⟨none, fun w stored => ?_⟩
      rcases first.waker with same' | ⟨_, woken'⟩
      · exact List.mem_append_right _ (woken w (same'.trans stored))
      · exact List.mem_append_left _ (woken' w stored)
  · intro kept ready
    rcases second.told kept ready with ready' | none
    · rcases first.told kept ready' with before | none'
      · exact .inl before
      · rcases second.waker with same | ⟨none, _⟩
        · exact .inr (same.trans none')
        · exact .inr none
    · exact .inr none
  · exact fun ended => second.ended (first.ended ended)

theorem Keeps.idle_iff (keeps : c.Keeps q outside) :
    c.semaphore.isIdle = true ↔ outside = 0 ∧ q.values = [] ∧ c.semaphore.shares = 0 := by
  rw [ChanSemaphore.isIdle_iff keeps.lends, ← List.length_eq_zero_iff]
  omega

theorem Keeps.isClosed_eq (keeps : c.Keeps q outside) : c.isClosed = c.rxClosed :=
  ChanSemaphore.isClosed_eq keeps.lends

theorem Leads.semaphore {sem : ChanSemaphore W} (buffer : sem.buffer = c.semaphore.buffer)
    (told : ¬lost → c.rxClosed = true → sem.isIdle = true → c.semaphore.isIdle = true)
    (ended : c.rxClosed = true → c.semaphore.isIdle = true → q.values = [] → sem.isIdle = true) :
    Leads lost c q { c with semaphore := sem } q [] := by
  constructor
  · rfl
  · exact buffer
  · exact .inl rfl
  · rintro kept (values | closed | ⟨closed, idle⟩)
    · exact .inl (.inl values)
    · exact .inl (.inr (.inl closed))
    · exact .inl (.inr (.inr ⟨closed, told kept closed idle⟩))
  · rintro ⟨none, closed | ⟨closed, idle⟩⟩
    · exact ⟨none, .inl closed⟩
    · exact ⟨none, .inr ⟨closed, ended closed idle none⟩⟩

theorem Leads.refl (lost : Prop) (c : Chan T W) (q : Fifo T) : Leads lost c q c q [] :=
  ⟨rfl, rfl, .inl rfl, fun _ ready => .inl ready, id⟩

theorem Leads.wakes (rxClosed : d.rxClosed = c.rxClosed) (buffer : d.semaphore.buffer = c.semaphore.buffer)
    (none : d.rxWaker = none) (woken : ∀ w, c.rxWaker = some w → w ∈ wakers) (ended : c.Ended q → d.Ended r) :
    Leads lost c q d r wakers :=
  ⟨rxClosed, buffer, .inr ⟨none, woken⟩, fun _ _ => .inr none, ended⟩

theorem Leads.weaken {lost' : Prop} (leads : Leads lost c q d r wakers) (less : lost → lost' ∨ d.rxWaker = none) :
    Leads lost' c q d r wakers := by
  refine { leads with told := fun kept ready => ?_ }
  by_cases gone : lost
  · rcases less gone with gone' | none
    · exact absurd gone' kept
    · exact .inr none
  · exact leads.told gone ready

section Tx

theorem send_spec (keeps : c.Keeps q (outside + 1)) (opened : q.closed = false) (value : T) :
    ∃ d, c.send value = .ok (d, c.rxWaker.toList) ∧ d.Keeps { q with values := q.values ++ [value] } outside ∧
      d.semaphore = c.semaphore ∧ d.txCount = c.txCount ∧
      ∀ lost, Leads lost c q d { q with values := q.values ++ [value] } c.rxWaker.toList := by
  obtain ⟨m, ran, queued⟩ := keeps.list.push opened value
  refine ⟨{ c with list := m, rxWaker := none }, ?_, ⟨queued, keeps.closed, ?_⟩, rfl, rfl, fun lost => ?_⟩
  · rw [send, ran]
    rfl
  · have total : outside + (q.values ++ [value]).length = outside + 1 + q.values.length := by
      simp only [List.length_append, List.length_singleton]
      omega
    rw [total]
    exact keeps.lends
  · refine Leads.wakes rfl rfl rfl (by simp) ?_
    rintro ⟨none, closed | ⟨_, idle⟩⟩
    · rw [opened] at closed
      exact absurd closed (by decide)
    · have outside := (keeps.idle_iff.mp idle).1
      omega

def less (c : Chan T W) (q : Fifo T) : Fifo T := if c.txCount = 1 then { q with closed := true } else q

theorem less_values (c : Chan T W) (q : Fifo T) : (c.less q).values = q.values := by
  unfold less
  split <;> rfl

theorem dropTx_spec (keeps : c.Keeps q outside) (some : 0 < c.txCount) :
    ∃ d wakers, c.dropTx = .ok (d, wakers) ∧ d.Keeps (c.less q) outside ∧ d.semaphore = c.semaphore ∧
      d.txCount = c.txCount - 1 ∧ (c.txCount = 1 → d.rxWaker = none) ∧
      ∀ lost, Leads lost c q d (c.less q) wakers := by
  by_cases last : c.txCount = 1
  · have opened : q.closed = false := by simp [keeps.closed, last]
    obtain ⟨m, ran, queued⟩ := keeps.list.close opened
    rw [less, if_pos last]
    refine ⟨{ c with txCount := c.txCount - 1, list := m, rxWaker := none }, c.rxWaker.toList, ?_,
      ⟨queued, by simp [last], keeps.lends⟩, rfl, rfl, fun _ => rfl, fun lost => ?_⟩
    · simp only [dropTx, last, ran]
      rfl
    · refine Leads.wakes rfl rfl rfl (by simp) ?_
      exact fun ended => ⟨ended.1, .inl rfl⟩
  · rw [less, if_neg last]
    refine ⟨{ c with txCount := c.txCount - 1 }, [], ?_, ⟨keeps.list, ?_, keeps.lends⟩, rfl, rfl,
      fun one => absurd one last, fun lost => ?_⟩
    · rw [dropTx, if_pos last]
      rfl
    · have more : c.txCount = 0 ↔ c.txCount - 1 = 0 := by omega
      exact keeps.closed.trans (decide_eq_decide.mpr more)
    · exact ⟨rfl, rfl, .inl rfl, fun _ ready => .inl ready, id⟩

theorem addPermit_spec (keeps : c.Keeps q (outside + 1)) :
    ∃ sem wakers, c.addPermit = .ok ({ c with semaphore := sem }, wakers) ∧
      { c with semaphore := sem }.Keeps q outside ∧ c.semaphore.Alike sem ∧
      (c.rxClosed = true → sem.shares = c.semaphore.shares) := by
  have lends := keeps.lends
  rw [Nat.add_right_comm] at lends
  obtain ⟨sem, wakers, ran, after, alike, shares⟩ := ChanSemaphore.addPermit_spec lends
  refine ⟨sem, wakers, ?_, ⟨keeps.list, keeps.closed, after⟩, alike, shares⟩
  rw [addPermit, ran]
  rfl

theorem Keeps.busy (keeps : c.Keeps q (outside + 1)) : ¬c.semaphore.isIdle = true := by
  rw [keeps.idle_iff]
  omega

/-- The receiver may be left asleep if that was the last permit of a closed channel. -/
theorem addPermit_leads (keeps : c.Keeps q (outside + 1)) (bounded : c.semaphore.buffer ≠ none) :
    ∃ d wakers, c.addPermit = .ok (d, wakers) ∧ d.Keeps q outside ∧ c.semaphore.Alike d.semaphore ∧
      d.txCount = c.txCount ∧ Leads (c.rxClosed = true ∧ c.semaphore.lastOut = true) c q d q wakers := by
  obtain ⟨sem, wakers, ran, after, alike, shares⟩ := addPermit_spec keeps
  have leads : Leads (c.rxClosed = true ∧ c.semaphore.lastOut = true) c q { c with semaphore := sem } q [] := by
    apply Leads.semaphore alike.buffer
    · intro kept closed idle
      obtain ⟨none, values, none'⟩ := after.idle_iff.mp idle
      have last : c.semaphore.lastOut = true := by
        rw [ChanSemaphore.lastOut_iff keeps.lends bounded, ← shares closed, values, none, none']
        rfl
      exact absurd ⟨closed, last⟩ kept
    · exact fun _ idle _ => absurd idle keeps.busy
  exact ⟨_, wakers, ran, after, alike, rfl, { leads with waker := .inl rfl }⟩

theorem dropPermit_spec (keeps : c.Keeps q (outside + 1)) :
    ∃ d wakers, c.dropPermit = .ok (d, wakers) ∧ d.Keeps q outside ∧ c.semaphore.Alike d.semaphore ∧
      d.txCount = c.txCount ∧ ∀ lost, Leads lost c q d q wakers := by
  obtain ⟨sem, wakers, ran, after, alike, _⟩ := addPermit_spec keeps
  have closed : { c with semaphore := sem }.isClosed = c.rxClosed := after.isClosed_eq
  rw [dropPermit, ran]
  simp only [bind, Except.bind, closed]
  by_cases last : (c.rxClosed && sem.isIdle) = true
  · rw [if_pos last]
    refine ⟨_, _, rfl, ⟨after.list, after.closed, after.lends⟩, alike, rfl, fun lost => ?_⟩
    refine Leads.wakes rfl alike.buffer rfl ?_ ?_
    · intro w stored
      exact List.mem_append_right _ (by simp [stored, wakeRx])
    · rintro ⟨none, closed | ⟨_, idle⟩⟩
      · exact ⟨none, .inl closed⟩
      · exact absurd idle keeps.busy
  · rw [if_neg last]
    refine ⟨_, _, rfl, after, alike, rfl, fun lost => ?_⟩
    have leads : Leads lost c q { c with semaphore := sem } q [] := by
      apply Leads.semaphore alike.buffer
      · intro _ closed idle
        simp [closed, idle] at last
      · exact fun _ idle _ => absurd idle keeps.busy
    exact { leads with waker := .inl rfl }

end Tx

section Capacity

theorem Leads.opened {sem : ChanSemaphore W} (opened : c.rxClosed = false) (buffer : sem.buffer = c.semaphore.buffer) :
    Leads lost c q { c with semaphore := sem } q [] := by
  apply Leads.semaphore buffer
  · intro _ closed
    rw [opened] at closed
    exact absurd closed (by decide)
  · intro closed
    rw [opened] at closed
    exact absurd closed (by decide)

theorem tryAcquire_leads (keeps : c.Keeps q outside) (bounded : c.isBounded = true) :
    c.rxClosed = true ∧ c.tryAcquire = .ok (.error .closed, c) ∨
    c.rxClosed = false ∧ c.tryAcquire = .ok (.error .noPermits, c) ∨
    c.rxClosed = false ∧ ∃ d, c.tryAcquire = .ok (.ok (), d) ∧ d.Keeps q (outside + 1) ∧
      c.semaphore.Alike d.semaphore ∧ d.txCount = c.txCount ∧ ∀ lost, Leads lost c q d q [] := by
  rcases tryAcquire_spec keeps.lends bounded with ⟨closed, ran⟩ | ⟨opened, ran⟩ | ⟨opened, sem, ran, lends, alike⟩
  · exact .inl ⟨closed, ran⟩
  · exact .inr (.inl ⟨opened, ran⟩)
  · rw [Nat.add_right_comm] at lends
    exact .inr (.inr ⟨opened, _, ran, ⟨keeps.list, keeps.closed, lends⟩, alike, rfl, fun _ => .opened opened alike.buffer⟩)

theorem incNumMessages_leads (keeps : c.Keeps q outside) (unbounded : c.isBounded = false) :
    c.rxClosed = true ∧ c.incNumMessages = .ok (false, c) ∨
    c.rxClosed = false ∧ outside + q.values.length = 2 ^ 63 - 1 ∧ c.incNumMessages = .error .tooManyMessages ∨
    c.rxClosed = false ∧ ∃ d, c.incNumMessages = .ok (true, d) ∧ d.Keeps q (outside + 1) ∧
      c.semaphore.Alike d.semaphore ∧ d.txCount = c.txCount ∧ ∀ lost, Leads lost c q d q [] := by
  rcases incNumMessages_spec keeps.lends unbounded with ⟨closed, ran⟩ | full | ⟨opened, _, sem, ran, lends, alike⟩
  · exact .inl ⟨closed, ran⟩
  · exact .inr (.inl full)
  · rw [Nat.add_right_comm] at lends
    exact .inr (.inr ⟨opened, _, ran, ⟨keeps.list, keeps.closed, lends⟩, alike, rfl, fun _ => .opened opened alike.buffer⟩)

theorem acquire_leads (keeps : c.Keeps q outside) (bounded : c.isBounded = true) :
    ∃ i d, c.acquire = .ok (i, d) ∧ d.Keeps q outside ∧ ¬c.semaphore.Pending i ∧
      (∀ j, d.semaphore.Pending j ↔ j = i ∨ c.semaphore.Pending j) ∧ d.txCount = c.txCount ∧
      ∀ lost, Leads lost c q d q [] := by
  obtain ⟨i, sem, ran, lends, buffer, fresh, pending, shares⟩ := acquire_spec keeps.lends bounded
  have after : { c with semaphore := sem }.Keeps q outside := ⟨keeps.list, keeps.closed, lends⟩
  have same : sem.isIdle = true ↔ c.semaphore.isIdle = true := by
    rw [keeps.idle_iff, ← shares]
    exact after.idle_iff
  exact ⟨i, _, ran, after, fresh, pending, rfl, fun _ => .semaphore buffer (fun _ _ => same.mp) fun _ idle _ => same.mpr idle⟩

theorem Leads.without {sem : ChanSemaphore W} {i : Nat} (keeps : c.Keeps q outside)
    (after : { c with semaphore := sem }.Keeps q outside) (pending : c.semaphore.Pending i)
    (without : c.semaphore.Without i sem)
    (shares : c.rxClosed = true → sem.shares + c.semaphore.share i = c.semaphore.shares) :
    Leads (c.rxClosed = true ∧ c.semaphore.lastOut = true ∧ c.semaphore.share i = 1) c q { c with semaphore := sem } q [] := by
  apply Leads.semaphore without.buffer
  · intro kept closed idle
    obtain ⟨none, values, none'⟩ : outside = 0 ∧ q.values = [] ∧ sem.shares = 0 := after.idle_iff.mp idle
    have most := ChanSemaphore.share_le keeps.lends i
    have total := shares closed
    rw [keeps.idle_iff]
    refine ⟨none, values, ?_⟩
    by_contra some
    have last : c.semaphore.lastOut = true := by
      rw [ChanSemaphore.lastOut_iff keeps.lends (ChanSemaphore.pending_bounded pending), values, none]
      change 0 + c.semaphore.shares = 1
      omega
    exact kept ⟨closed, last, by omega⟩
  · intro closed idle values
    obtain ⟨none, _, none'⟩ := keeps.idle_iff.mp idle
    have total := shares closed
    have nothing : sem.shares = 0 := by omega
    exact after.idle_iff.mpr ⟨none, values, nothing⟩

theorem pollAcquire_leads [Wakers W] {i : Nat} (keeps : c.Keeps q outside) (pending : c.semaphore.Pending i)
    (waker : W) :
    (c.rxClosed = false ∧ ∃ d, c.pollAcquire i waker = .ok (.pending, d, []) ∧ d.Keeps q outside ∧
      c.semaphore.Alike d.semaphore ∧ d.txCount = c.txCount ∧ ∀ lost, Leads lost c q d q []) ∨
    (c.rxClosed = false ∧ ∃ d, c.pollAcquire i waker = .ok (.ready (.ok ()), d, []) ∧ d.Keeps q (outside + 1) ∧
      c.semaphore.Without i d.semaphore ∧ d.txCount = c.txCount ∧ ∀ lost, Leads lost c q d q []) ∨
    (c.rxClosed = true ∧ ∃ d, c.pollAcquire i waker = .ok (.ready (.error ()), d, []) ∧ d.Keeps q outside ∧
      c.semaphore.Without i d.semaphore ∧ d.txCount = c.txCount ∧
      Leads (c.rxClosed = true ∧ c.semaphore.lastOut = true ∧ c.semaphore.share i = 1) c q d q []) := by
  rcases pollAcquire_spec keeps.lends pending waker with
    ⟨opened, sem, ran, lends, alike⟩ | ⟨opened, sem, ran, lends, without⟩ | ⟨closed, sem, ran, lends, without, shares⟩
  · exact .inl ⟨opened, _, ran, ⟨keeps.list, keeps.closed, lends⟩, alike, rfl, fun _ => .opened opened alike.buffer⟩
  · rw [Nat.add_right_comm] at lends
    exact .inr (.inl ⟨opened, _, ran, ⟨keeps.list, keeps.closed, lends⟩, without, rfl,
      fun _ => .opened opened without.buffer⟩)
  · have after : { c with semaphore := sem }.Keeps q outside := ⟨keeps.list, keeps.closed, lends⟩
    exact .inr (.inr ⟨closed, _, ran, after, without, rfl, .without keeps after pending without fun _ => shares⟩)

theorem dropAcquire_leads {i : Nat} (keeps : c.Keeps q outside) (pending : c.semaphore.Pending i) :
    ∃ d wakers, c.dropAcquire i = .ok (d, wakers) ∧ d.Keeps q outside ∧ c.semaphore.Without i d.semaphore ∧
      d.txCount = c.txCount ∧
      Leads (c.rxClosed = true ∧ c.semaphore.lastOut = true ∧ c.semaphore.share i = 1) c q d q wakers := by
  obtain ⟨sem, wakers, ran, lends, without, shares⟩ := dropAcquire_spec keeps.lends pending
  have after : { c with semaphore := sem }.Keeps q outside := ⟨keeps.list, keeps.closed, lends⟩
  exact ⟨_, wakers, ran, after, without, rfl, { Leads.without keeps after pending without shares with waker := .inl rfl }⟩

end Capacity

section Rx

structure Takes (c : Chan T W) (q : Fifo T) (d : Chan T W) (r : Fifo T) : Prop where
  alike : c.semaphore.Alike d.semaphore
  txCount : d.txCount = c.txCount
  ended : c.Ended q → d.Ended r

theorem Takes.trans (first : Takes c q d r) (second : Takes d r e u) : Takes c q e u :=
  ⟨first.alike.trans second.alike, second.txCount.trans first.txCount, fun ended => second.ended (first.ended ended)⟩

theorem pop_cons {value : T} {rest : List T} (values : q.values = value :: rest) :
    q.pop = (some (.value value), { q with values := rest }) := by
  rw [Fifo.pop, values]

theorem pop_nil (values : q.values = []) : q.pop = (if q.closed then some .closed else none, q) := by
  rw [Fifo.pop, values]

def answer (c : Chan T W) (q : Fifo T) : Poll (Option T) :=
  match q.values with
  | value :: _ => .ready (some value)
  | [] => if q.closed || (c.rxClosed && c.semaphore.isIdle) then .ready none else .pending

theorem answer_pending (c : Chan T W) (q : Fifo T) : c.answer q = .pending ↔ ¬c.Ready q := by
  unfold answer Ready
  cases q.values with
  | cons value rest => simp
  | nil => cases q.closed <;> cases c.rxClosed <;> cases c.semaphore.isIdle <;> simp

theorem Keeps.popped {value : T} {rest : List T} {l : BlockList T} (keeps : c.Keeps q outside)
    (values : q.values = value :: rest) (queued : Queued { q with values := rest } l) :
    { c with list := l }.Keeps { q with values := rest } (outside + 1) := by
  have lends := keeps.lends
  rw [values, List.length_cons, ← Nat.add_assoc, Nat.add_right_comm] at lends
  exact ⟨queued, keeps.closed, lends⟩

theorem not_ended {value : T} {rest : List T} (values : q.values = value :: rest) : ¬c.Ended q := by
  rintro ⟨none, _⟩
  rw [values] at none
  exact absurd none (by simp)

theorem taken_spec {value : T} {rest : List T} (keeps : c.Keeps q outside) (values : q.values = value :: rest) :
    ∃ l sem wakers, c.list.pop = .ok (some (.value value), l) ∧
      { c with list := l }.addPermit = .ok ({ c with list := l, semaphore := sem }, wakers) ∧
      { c with list := l, semaphore := sem }.Keeps { q with values := rest } outside ∧
      Takes c q { c with list := l, semaphore := sem } { q with values := rest } := by
  obtain ⟨l, ran, queued, _⟩ := keeps.list.pop
  rw [pop_cons values] at ran queued
  obtain ⟨sem, wakers, added, after, alike, _⟩ := addPermit_spec (keeps.popped values queued)
  exact ⟨l, sem, wakers, ran, added, after, alike, rfl, fun ended => absurd ended (not_ended values)⟩

theorem popValue_value {value : T} {rest : List T} (keeps : c.Keeps q outside) (values : q.values = value :: rest) :
    ∃ l sem wakers, c.popValue = .ok (some (some value), { c with list := l, semaphore := sem }, wakers) ∧
      { c with list := l, semaphore := sem }.Keeps { q with values := rest } outside ∧
      Takes c q { c with list := l, semaphore := sem } { q with values := rest } := by
  obtain ⟨l, sem, wakers, ran, added, after, takes⟩ := taken_spec keeps values
  refine ⟨l, sem, wakers, ?_, after, takes⟩
  simp only [popValue, ran, Except.mapError, bind, Except.bind, added]
  rfl

theorem popValue_empty (keeps : c.Keeps q outside) (values : q.values = [])
    (idle : q.closed = true → c.semaphore.isIdle = true) :
    ∃ l, c.popValue = .ok (if q.closed then some none else none, { c with list := l }, []) ∧
      { c with list := l }.Keeps q outside := by
  obtain ⟨l, ran, queued, _⟩ := keeps.list.pop
  rw [pop_nil values] at ran queued
  refine ⟨l, ?_, queued, keeps.closed, keeps.lends⟩
  simp only [popValue, ran, Except.mapError, bind, Except.bind]
  cases closed : q.closed with
  | true =>
    simp only [if_true, idle closed]
    rfl
  | false => rfl

theorem recv_spec (keeps : c.Keeps q outside)
    (idle : q.closed = true → q.values = [] → c.semaphore.isIdle = true) (waker : W) :
    ∃ d wakers, c.recv waker = .ok (c.answer q, d, wakers) ∧ d.Keeps q.pop.2 outside ∧ Takes c q d q.pop.2 ∧
      d.rxClosed = c.rxClosed ∧ (c.answer q = .pending → d.rxWaker = some waker) := by
  cases values : q.values with
  | cons value rest =>
    obtain ⟨l, sem, wakers, ran, after, takes⟩ := popValue_value keeps values
    rw [pop_cons values]
    refine ⟨_, wakers, ?_, after, takes, rfl, by simp [answer, values]⟩
    simp only [recv, ran, bind, Except.bind, answer, values]
    rfl
  | nil =>
    obtain ⟨l, ran, after⟩ := popValue_empty keeps values fun closed => idle closed values
    rw [pop_nil values]
    cases closed : q.closed with
    | true =>
      refine ⟨_, [], ?_, after, ⟨.refl _, rfl, id⟩, rfl, by simp [answer, values, closed]⟩
      simp only [recv, ran, closed, bind, Except.bind, answer, values]
      rfl
    | false =>
      have again : { c with list := l, rxWaker := some waker }.Keeps q outside := ⟨after.list, after.closed, after.lends⟩
      obtain ⟨m, ran', after'⟩ := popValue_empty again values (by simp [closed])
      refine ⟨{ c with list := m, rxWaker := some waker }, [], ?_, after', ⟨.refl _, rfl, id⟩, rfl, fun _ => rfl⟩
      simp only [closed, Bool.false_eq_true, if_false] at ran ran'
      simp only [recv, ran, ran', bind, Except.bind, answer, values, closed, Bool.false_or]
      split <;> rfl

def tryAnswer (q : Fifo T) : Except TryRecvError T :=
  match q.values with
  | value :: _ => .ok value
  | [] => if q.closed then .error .disconnected else .error .empty

theorem tryRecv_spec (keeps : c.Keeps q outside) :
    ∃ d wakers, c.tryRecv = .ok (tryAnswer q, d, wakers) ∧ d.Keeps q.pop.2 outside ∧ Takes c q d q.pop.2 ∧
      d.rxClosed = c.rxClosed ∧ d.rxWaker = c.rxWaker := by
  obtain ⟨m, ran, queued⟩ := keeps.list.tryPop
  cases values : q.values with
  | cons value rest =>
    rw [pop_cons values] at queued ⊢
    obtain ⟨sem, wakers, added, after, alike, _⟩ := addPermit_spec (keeps.popped values queued)
    refine ⟨{ c with list := m, semaphore := sem }, wakers, ?_, after,
      ⟨alike, rfl, fun ended => absurd ended (not_ended values)⟩, rfl, rfl⟩
    simp only [tryRecv, ran, Fifo.tryPop, values, Except.mapError, bind, Except.bind, added, tryAnswer]
    rfl
  | nil =>
    rw [pop_nil values] at queued ⊢
    refine ⟨{ c with list := m }, [], ?_, ⟨queued, keeps.closed, keeps.lends⟩, ⟨.refl _, rfl, id⟩, rfl, rfl⟩
    simp only [tryRecv, ran, Fifo.tryPop, values, Except.mapError, bind, Except.bind, tryAnswer]
    cases q.closed <;> rfl

theorem close_keeps (keeps : c.Keeps q outside) :
    c.close.1.Keeps q outside ∧ Takes c q c.close.1 q ∧ c.close.1.rxClosed = true ∧
      c.close.1.rxWaker = c.rxWaker ∧ c.close.1.list = c.list := by
  unfold close
  cases already : c.rxClosed with
  | true =>
    rw [if_pos rfl]
    exact ⟨keeps, ⟨.refl _, rfl, id⟩, already, rfl, rfl⟩
  | false =>
    have lends := keeps.lends
    obtain ⟨after, alike⟩ := ChanSemaphore.close_spec lends
    have shares := ChanSemaphore.close_shares lends
    rw [if_neg Bool.false_ne_true]
    refine ⟨⟨keeps.list, keeps.closed, after⟩, ⟨alike, rfl, ?_⟩, rfl, rfl, rfl⟩
    rintro ⟨none, closed | ⟨closed, _⟩⟩
    · exact ⟨none, .inl closed⟩
    · rw [already] at closed
      exact absurd closed (by decide)

theorem drain_spec {fuel : Nat} (keeps : c.Keeps q outside) (enough : q.values.length < fuel) :
    ∃ d wakers, c.drain fuel = .ok (q.values, d, wakers) ∧ d.Keeps { q with values := [] } outside ∧
      Takes c q d { q with values := [] } ∧ d.rxClosed = c.rxClosed ∧ d.rxWaker = c.rxWaker := by
  induction fuel generalizing c q with
  | zero => omega
  | succ fuel ih =>
    cases values : q.values with
    | nil =>
      obtain ⟨l, ran, queued, _⟩ := keeps.list.pop
      rw [pop_nil values] at ran queued
      have same : q = { q with values := [] } := by rw [← values]
      rw [← same]
      refine ⟨{ c with list := l }, [], ?_, ⟨queued, keeps.closed, keeps.lends⟩, ⟨.refl _, rfl, id⟩, rfl, rfl⟩
      simp only [drain, ran, Except.mapError, bind, Except.bind]
      cases q.closed <;> rfl
    | cons value rest =>
      obtain ⟨l, sem, wakers, ran, added, after, takes⟩ := taken_spec keeps values
      rw [values, List.length_cons] at enough
      obtain ⟨d, more, drained, after', takes', rxClosed, rxWaker⟩ := ih after (by change rest.length < fuel; omega)
      refine ⟨d, wakers ++ more, ?_, after', takes.trans takes', rxClosed, rxWaker⟩
      simp only [drain, ran, Except.mapError, bind, Except.bind, added, drained]
      rfl

theorem dropRx_spec (keeps : c.Keeps q outside) :
    ∃ d wakers, c.dropRx = .ok (q.values, d, wakers) ∧ d.Keeps { q with values := [] } outside ∧
      Takes c q d { q with values := [] } ∧ d.rxClosed = true ∧ d.rxWaker = c.rxWaker := by
  obtain ⟨closed, takes, shut, waker, list⟩ := close_keeps keeps
  have enough : q.values.length < c.list.tailPosition + 1 := by
    have bound := keeps.list.length_le
    omega
  obtain ⟨d, wakers, drained, after, takes', rxClosed, rxWaker⟩ := drain_spec closed enough
  refine ⟨d, c.close.2 ++ wakers, ?_, after, takes.trans takes', rxClosed.trans shut, rxWaker.trans waker⟩
  rw [dropRx, drained]
  rfl

end Rx

end Chan

end Osaka.Sync.Mpsc
