import Osaka.Sync.Mpsc.ChannelSteps
import Osaka.Sync.SemaphoreRuns

set_option autoImplicit false

namespace Osaka.Sync.Mpsc

open Transitions

variable {T W : Type}

namespace Channel

variable {c d : Channel T W} {q : Fifo T} {buffer : Option Nat}

section Reaching

theorem channel_sound {size : Nat} (made : channel size = some c) : Sound (some size) c ⟨[], false⟩ := by
  unfold channel at made
  split at made
  next accepted =>
    obtain rfl := Option.some.inj made
    have lends : Lends (Semaphore.new size : Semaphore W) size false 0 := by
      constructor
      · exact Semaphore.new_wellFormed size accepted.2.le
      · exact (Semaphore.new_word size accepted.2.le).2
      · exact Semaphore.new_balance size accepted.2.le
      · exact accepted.2
      · simp [Semaphore.new]
    constructor
    · exact ⟨⟨_, channel_represents⟩, rfl, lends⟩
    all_goals simp [Chan.channel, ChanSemaphore.buffer, ChanSemaphore.Pending, Semaphore.new]
  next => simp at made

theorem unboundedChannel_sound : Sound none (unboundedChannel : Channel T W) ⟨[], false⟩ := by
  constructor
  · exact ⟨⟨_, channel_represents⟩, rfl, ⟨rfl, rfl⟩⟩
  all_goals simp [unboundedChannel, Chan.channel, ChanSemaphore.buffer, ChanSemaphore.Pending]

variable [Wakers W]

theorem step_performed {call : Call T W} (sound : Sound buffer c q) (stepped : c.step call = .next d) :
    ∃ reply r wakers, c.perform call = .ok (reply, d, wakers) ∧ Performed buffer c q call reply d r wakers := by
  unfold step at stepped
  split at stepped
  next allowed =>
    rcases perform_performed sound allowed with ⟨reply, e, r, wakers, ran, performed⟩ | ⟨_, full, _⟩
    · rw [ran] at stepped
      obtain rfl : e = d := Outcome.next.inj stepped
      exact ⟨reply, r, wakers, ran, performed⟩
    · rw [full] at stepped
      cases stepped
  next => cases stepped

theorem initial_sound (initial : (machine T W buffer).initial c) : Sound buffer c ⟨[], false⟩ := by
  cases buffer with
  | some size => exact channel_sound initial
  | none =>
    obtain rfl : c = unboundedChannel := initial
    exact unboundedChannel_sound

theorem reachable_sound (reached : (machine T W buffer).Reachable c) : ∃ q, Sound buffer c q := by
  induction reached with
  | initial initial => exact ⟨_, initial_sound initial⟩
  | step before within stepped ih =>
    obtain ⟨q, sound⟩ := ih
    obtain ⟨reply, r, wakers, _, performed⟩ := step_performed sound stepped
    exact ⟨r, performed.sound⟩

end Reaching

section Traffic

/-- What has gone into a channel and come out of it, whether it has been closed, and whether the receiver has been
told that nothing more will come. -/
structure Ledger (T : Type) where
  sent : List T
  out : List T
  closed : Bool
  ended : Bool

variable [Wakers W]

def Ledger.observe (l : Ledger T) (c : Channel T W) (call : Call T W) (_ : Channel T W) : Ledger T :=
  match c.perform call with
  | .ok (reply, _, _) =>
    { sent := l.sent ++ c.sent call reply
      out := l.out ++ reply.taken
      closed := l.closed || call.closes
      ended := l.ended || match call, reply with
        | .recv _, .recv (.ready none) => true
        | _, _ => false }
  | .error _ => l

def ledgered (T W : Type) [Wakers W] (buffer : Option Nat) :
    System (Channel T W × Ledger T) (Call T W) ChanFault :=
  (machine T W buffer).observed ⟨[], [], false, false⟩ Ledger.observe

instance : DecidablePred (ledgered T W buffer).within := fun _ => inferInstanceAs (Decidable True)

/-- The channel holds what has been sent and has not come out. -/
structure Ledger.Matches (l : Ledger T) (buffer : Option Nat) (c : Channel T W) (q : Fifo T) : Prop where
  sound : Sound buffer c q
  carried : l.sent = l.out ++ q.values
  closed : c.chan.rxClosed = l.closed
  ended : l.ended = true → c.chan.Ended q

omit [Wakers W] in
theorem answer_ended (c : Chan T W) (q : Fifo T) : c.answer q = .ready none ↔ c.Ended q := by
  unfold Chan.answer Chan.Ended
  cases q.values with
  | nil => cases q.closed <;> cases c.rxClosed <;> cases c.semaphore.isIdle <;> simp
  | cons value rest => simp

theorem observe_matches {call : Call T W} {l : Ledger T} (matched : l.Matches buffer c q)
    (stepped : c.step call = .next d) : ∃ r, (l.observe c call d).Matches buffer d r := by
  obtain ⟨reply, r, wakers, ran, performed⟩ := step_performed matched.sound stepped
  refine ⟨r, ?_⟩
  simp only [Ledger.observe, ran]
  constructor
  · exact performed.sound
  · rw [matched.carried, List.append_assoc, performed.values, List.append_assoc]
  · rw [performed.rxClosed, matched.closed]
  · intro told
    apply performed.ended
    rcases Bool.or_eq_true_iff.mp told with before | now
    · exact matched.ended before
    · cases call with
      | recv waker =>
        obtain ⟨answered, _⟩ := performed.polled waker rfl
        rw [answered] at now
        rw [← answer_ended]
        split at now
        next none => exact Reply.recv.inj none
        next => exact absurd now (by decide)
      | _ => simp at now

theorem ledgered_matches {l : Ledger T} (reached : (ledgered T W buffer).Reachable (c, l)) :
    ∃ q, l.Matches buffer c q := by
  apply System.Reachable.watched (P := fun c l => ∃ q, l.Matches buffer c q) _ _ reached
  · intro c initial
    have sound := initial_sound initial
    refine ⟨_, sound, rfl, ?_, nofun⟩
    cases buffer with
    | some size =>
      obtain ⟨_, made⟩ := Option.ite_none_right_eq_some.mp initial
      obtain rfl := Option.some.inj made
      rfl
    | none =>
      obtain rfl : c = unboundedChannel := initial
      rfl
  · rintro c l call d _ ⟨q, matched⟩ _ stepped
    exact observe_matches matched stepped

end Traffic

section Capacity

/-- Whether no permit is outstanding, or assigned to a reserve that has not been polled since. -/
def Unreserved (c : Channel T W) : Prop :=
  c.permits = [] ∧ c.ownedPermits = 0 ∧ ∀ entry ∈ c.requests, c.chan.semaphore.share entry.1 = 0

theorem Sound.idle_iff (sound : Sound buffer c q) :
    c.chan.semaphore.isIdle = true ↔ q.values = [] ∧ c.Unreserved := by
  have keys : (∀ i, c.chan.semaphore.Pending i → c.chan.semaphore.share i = 0) ↔
      ∀ entry ∈ c.requests, c.chan.semaphore.share entry.1 = 0 := by
    simp only [sound.pending, List.mem_map]
    constructor
    · exact fun none entry member => none _ ⟨entry, member, rfl⟩
    · rintro none _ ⟨entry, member, rfl⟩
      exact none entry member
  rw [sound.keeps.idle_iff, ChanSemaphore.shares_eq_zero_iff sound.keeps.lends, keys, Unreserved, Nat.add_eq_zero_iff,
    List.length_eq_zero_iff]
  constructor
  · rintro ⟨⟨permits, owned⟩, values, none⟩
    exact ⟨values, permits, owned, none⟩
  · rintro ⟨values, permits, owned, none⟩
    exact ⟨⟨permits, owned⟩, values, none⟩

theorem Sound.bounded_balance {size : Nat} (sound : Sound (some size) c q) :
    ∃ s, c.chan.semaphore = .bounded s size ∧
      s.availablePermits + ∑ i ∈ Finset.range s.created, s.assigned i + (c.permits.length + c.ownedPermits) +
        q.values.length = size := by
  have kind := sound.kind
  have lends := sound.keeps.lends
  cases semaphore : c.chan.semaphore with
  | unbounded state => simp [semaphore, ChanSemaphore.buffer] at kind
  | bounded s bound =>
    rw [semaphore] at kind lends
    obtain rfl : bound = size := Option.some.inj kind
    have balance : s.availablePermits + s.heldSum + (c.permits.length + c.ownedPermits + q.values.length) = bound :=
      lends.balance
    have total : ∑ i ∈ Finset.range s.created, s.assigned i = s.heldSum :=
      Finset.sum_congr rfl fun i _ => Semaphore.assigned_eq lends.wellFormed i
    exact ⟨s, rfl, by omega⟩

theorem Sound.unbounded_count (sound : Sound none c q) :
    ∃ state, c.chan.semaphore = .unbounded state ∧ (state >>> 1).toNat = q.values.length := by
  have kind := sound.kind
  have lends := sound.keeps.lends
  obtain ⟨permits, owned⟩ := sound.plain rfl
  cases semaphore : c.chan.semaphore with
  | bounded s bound => simp [semaphore, ChanSemaphore.buffer] at kind
  | unbounded state =>
    rw [semaphore, permits, owned] at lends
    refine ⟨state, rfl, ?_⟩
    rw [BitVec.toNat_ushiftRight, Nat.shiftRight_eq_div_pow]
    exact lends.2.trans (Nat.zero_add _)

variable [Wakers W]

theorem step_eq {call : Call T W} {reply : Reply T} {wakers : List W} (allowed : c.allowed call = true)
    (ran : c.perform call = .ok (reply, d, wakers)) : c.step call = .next d := by
  rw [step, if_pos allowed, ran]
  rfl

theorem permitSend_pushed {sender : Nat} (sound : Sound buffer c q) (there : sender ∈ c.permits) (value : T) :
    ∃ d r, c.step (.permitSend sender value) = .next d ∧ Queued r d.chan.list ∧ r.values = q.values ++ [value] := by
  obtain ⟨reply, d, r, wakers, ran, performed⟩ := permitSend_performed sound there value
  refine ⟨d, r, step_eq (by simpa [allowed] using there) ran, performed.sound.keeps.list, ?_⟩
  have values := performed.values
  rw [performed.kept rfl] at values
  exact values.symm

theorem ownedPermitSend_pushed (sound : Sound buffer c q) (some : 0 < c.ownedPermits) (value : T) :
    ∃ d r, c.step (.ownedPermitSend value) = .next d ∧ Queued r d.chan.list ∧ r.values = q.values ++ [value] := by
  obtain ⟨reply, d, r, wakers, ran, performed⟩ := ownedPermitSend_performed sound some value
  refine ⟨d, r, step_eq (by simpa [allowed] using some) ran, performed.sound.keeps.list, ?_⟩
  have values := performed.values
  rw [performed.kept rfl] at values
  exact values.symm

theorem Sound.faultless (sound : Sound buffer c q) {call : Call T W} {fault : ChanFault}
    (failed : c.step call = .failed fault) :
    fault = .tooManyMessages ∧ buffer = none ∧ q.values.length = 2 ^ 63 - 1 := by
  unfold step at failed
  split at failed
  next allowed =>
    rcases perform_performed sound allowed with ⟨reply, e, r, wakers, ran, _⟩ | ⟨⟨sender, value, rfl⟩, ran, _, full⟩
    · rw [ran] at failed
      cases failed
    · rw [ran] at failed
      obtain rfl := Outcome.failed.inj failed
      have none : buffer = none := by
        rw [← sound.kind]
        have unbounded : c.chan.isBounded = false := by
          simp only [Channel.allowed, Bool.and_eq_true, Bool.not_eq_true'] at allowed
          exact allowed.2
        unfold Chan.isBounded at unbounded
        split at unbounded
        next => cases unbounded
        next semaphore => rw [semaphore]; rfl
      obtain ⟨permits, owned⟩ := sound.plain none
      rw [permits, owned] at full
      exact ⟨rfl, none, by simpa using full⟩
  next => cases failed

/-- The capacity is all there: available, assigned, reserved or with a value. -/
theorem capacity_conserved {l : Ledger T} (reached : (ledgered T W buffer).Reachable (c, l)) :
    ∃ q : Fifo T, Queued q c.chan.list ∧ l.sent = l.out ++ q.values ∧
      (∀ size, buffer = some size → ∃ s, c.chan.semaphore = .bounded s size ∧
        s.availablePermits + ∑ i ∈ Finset.range s.created, s.assigned i + (c.permits.length + c.ownedPermits) +
          q.values.length = size) ∧
      (∀ size, buffer = some size → q.values.length ≤ size) ∧
      (buffer = none → ∃ state, c.chan.semaphore = .unbounded state ∧ (state >>> 1).toNat = q.values.length) ∧
      (c.chan.semaphore.isIdle = true ↔ q.values = [] ∧ c.Unreserved) ∧
      -- a permit always has its slot
      (∀ sender ∈ c.permits, ∀ value, ∃ d r, c.step (.permitSend sender value) = .next d ∧
        Queued r d.chan.list ∧ r.values = q.values ++ [value]) ∧
      (0 < c.ownedPermits → ∀ value, ∃ d r, c.step (.ownedPermitSend value) = .next d ∧
        Queued r d.chan.list ∧ r.values = q.values ++ [value]) ∧
      -- no assertion fails, and of the aborts only that of a send is reached
      ∀ call fault, c.step call = .failed fault →
        fault = .tooManyMessages ∧ buffer = none ∧ q.values.length = 2 ^ 63 - 1 := by
  obtain ⟨q, matched⟩ := ledgered_matches reached
  have sound := matched.sound
  refine ⟨q, sound.keeps.list, matched.carried, ?_, ?_, ?_, sound.idle_iff, fun sender => permitSend_pushed sound,
    ownedPermitSend_pushed sound, fun call fault => sound.faultless⟩
  · rintro size rfl
    exact sound.bounded_balance
  · rintro size rfl
    obtain ⟨s, _, total⟩ := sound.bounded_balance
    omega
  · rintro rfl
    exact sound.unbounded_count

def exampleChannel : Channel Nat Nat := ⟨.channel (.bounded (.new 2) 2), true, [0], 1, [], 0, []⟩

theorem exampleChannel_reachable :
    (ledgered Nat Nat (some 2)).Reachable (exampleChannel, ⟨[], [], false, false⟩) :=
  .initial ⟨if_pos (by decide), rfl⟩

/-- A value is in the buffer, and the permit that is dropped goes to the reserve that waits. -/
def exampleCalls : List (Call Nat Nat) := [.trySend 0 7, .tryReserve 0, .reserve 0, .poll 0 5, .permitDrop 0]

theorem exampleCalls_move :
    ((ledgered Nat Nat (some 2)).run (exampleChannel, ⟨[], [], false, false⟩) exampleCalls).map
      (fun r => (r.2.sent, r.2.out, r.1.permits.length)) = some ([7], [], 0) := by
  decide +kernel

theorem capacity_conserved_run : ∃ c : Channel Nat Nat, ∃ q : Fifo Nat, Queued q c.chan.list ∧ q.values = [7] ∧
    ∃ s, c.chan.semaphore = .bounded s 2 := by
  obtain ⟨⟨c, l⟩, ran, moved⟩ := Option.map_eq_some_iff.mp exampleCalls_move
  have reached := System.reachable_run _ exampleChannel_reachable ran
  simp only [Prod.mk.injEq] at moved
  obtain ⟨sent, out, _⟩ := moved
  obtain ⟨q, queued, carried, balance, _⟩ := capacity_conserved reached
  rw [sent, out, List.nil_append] at carried
  obtain ⟨s, semaphore, _⟩ := balance 2 rfl
  exact ⟨c, q, queued, carried.symm, s, semaphore⟩

end Capacity

end Channel

end Osaka.Sync.Mpsc
