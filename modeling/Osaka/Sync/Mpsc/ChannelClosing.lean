import Osaka.Sync.Mpsc.ChannelRuns

set_option autoImplicit false

namespace Osaka.Sync.Mpsc

open Transitions

variable {T W : Type}

namespace Channel

variable {c : Channel T W} {q : Fifo T} {buffer : Option Nat}

/-- Whether every sender is gone, also those in permits and in calls. -/
def Gone (c : Channel T W) : Prop :=
  c.senders = [] ∧ c.ownedPermits = 0 ∧ ∀ entry ∈ c.requests, entry.2.owns = false

theorem Sound.gone_iff (sound : Sound buffer c q) : q.closed = true ↔ c.Gone := by
  have counted := sound.counted
  have owning : c.requests.countP (fun entry => entry.2.owns) = 0 ↔ ∀ entry ∈ c.requests, entry.2.owns = false := by
    simp [List.countP_eq_zero]
  rw [sound.keeps.closed, decide_eq_true_iff, Gone, ← owning, ← List.length_eq_zero_iff]
  omega

theorem Sound.ended_iff (sound : Sound buffer c q) :
    c.chan.Ended q ↔ q.values = [] ∧ (c.Gone ∨ c.chan.rxClosed = true ∧ c.Unreserved) := by
  rw [Chan.Ended, sound.gone_iff, sound.idle_iff]
  constructor
  · rintro ⟨values, gone | ⟨closed, _, unreserved⟩⟩
    · exact ⟨values, .inl gone⟩
    · exact ⟨values, .inr ⟨closed, unreserved⟩⟩
  · rintro ⟨values, gone | ⟨closed, unreserved⟩⟩
    · exact ⟨values, .inl gone⟩
    · exact ⟨values, .inr ⟨closed, values, unreserved⟩⟩

theorem answer_value (c : Chan T W) (q : Fifo T) (value : T) :
    c.answer q = .ready (some value) ↔ q.values.head? = some value := by
  unfold Chan.answer
  cases q.values with
  | nil => cases q.closed <;> cases c.rxClosed <;> cases c.semaphore.isIdle <;> simp
  | cons first rest => simp

variable [Wakers W]

theorem Sound.refuses (sound : Sound buffer c q) (closed : c.chan.rxClosed = true) {call : Call T W} {answer : Reply T}
    (allowed : c.allowed call = true) (refused : c.refusal call = some answer) :
    ∃ d wakers, c.perform call = .ok (answer, d, wakers) ∧ d.senders = c.senders := by
  rcases perform_performed sound allowed with ⟨reply, d, r, wakers, ran, performed⟩ | ⟨_, _, opened, _⟩
  · obtain ⟨rfl, kept⟩ := performed.refused closed answer refused
    exact ⟨d, wakers, ran, kept⟩
  · rw [closed] at opened
    exact absurd opened (by decide)

/-- After the receiver has closed a channel, what was let in comes out, and nothing else is let in. -/
theorem closed_channel {l : Ledger T} (reached : (ledgered T W buffer).Reachable (c, l)) :
    ∃ q : Fifo T, Queued q c.chan.list ∧ l.sent = l.out ++ q.values ∧
      -- no capacity is given out any more, and the senders stay where they are
      (l.closed = true → ∀ call answer, c.allowed call = true → c.refusal call = some answer →
        ∃ d wakers, c.perform call = .ok (answer, d, wakers) ∧ d.senders = c.senders) ∧
      (∀ sender ∈ c.permits, ∀ value, ∃ d r, c.step (.permitSend sender value) = .next d ∧
        Queued r d.chan.list ∧ r.values = q.values ++ [value]) ∧
      (0 < c.ownedPermits → ∀ value, ∃ d r, c.step (.ownedPermitSend value) = .next d ∧
        Queued r d.chan.list ∧ r.values = q.values ++ [value]) ∧
      -- what a poll of the receiver answers
      (∀ waker, ∃ result d wakers, c.perform (.recv waker) = .ok (.recv result, d, wakers) ∧
        (∀ value, result = .ready (some value) ↔ q.values.head? = some value) ∧
        (result = .ready none ↔ q.values = [] ∧ (c.Gone ∨ l.closed = true ∧ c.Unreserved)) ∧
        (l.ended = true → result = .ready none)) ∧
      -- after None nothing comes
      (l.ended = true → q.values = []) := by
  obtain ⟨q, matched⟩ := ledgered_matches reached
  have sound := matched.sound
  refine ⟨q, sound.keeps.list, matched.carried, ?_, fun sender => permitSend_pushed sound, ownedPermitSend_pushed sound,
    ?_, fun ended => (matched.ended ended).1⟩
  · intro closed call answer
    exact sound.refuses (matched.closed.trans closed)
  · intro waker
    obtain ⟨reply, d, r, wakers, ran, performed⟩ := recv_performed sound waker
    obtain ⟨rfl, _⟩ := performed.polled waker rfl
    refine ⟨c.chan.answer q, d, wakers, ran, answer_value c.chan q, ?_, ?_⟩
    · rw [answer_ended, sound.ended_iff, matched.closed]
    · exact fun ended => (answer_ended c.chan q).mpr (matched.ended ended)

def exampleClosing : List (Call Nat Nat) := [.trySend 0 7, .tryReserve 0, .close, .permitSend 0 8, .recv 5]

theorem exampleClosing_moves :
    ((ledgered Nat Nat (some 2)).run (exampleChannel, ⟨[], [], false, false⟩) exampleClosing).map
      (fun r => (r.2.sent, r.2.out, r.2.closed)) = some ([7, 8], [7], true) := by
  decide +kernel

theorem closed_channel_run : ∃ c : Channel Nat Nat, ∃ d wakers,
    c.perform (.recv 5) = .ok (.recv (.ready (some 8)), d, wakers) := by
  obtain ⟨⟨c, l⟩, ran, moved⟩ := Option.map_eq_some_iff.mp exampleClosing_moves
  have reached := System.reachable_run _ exampleChannel_reachable ran
  simp only [Prod.mk.injEq] at moved
  obtain ⟨sent, out, _⟩ := moved
  obtain ⟨q, _, carried, _, _, _, answers, _⟩ := closed_channel reached
  obtain ⟨result, d, wakers, received, first, _⟩ := answers 5
  have values : q.values = [8] := by
    rw [sent, out, List.cons_append, List.nil_append] at carried
    exact (List.cons.inj carried).2.symm
  obtain rfl : result = .ready (some 8) := (first 8).mpr (by rw [values]; rfl)
  exact ⟨c, d, wakers, received⟩

/-- `reserve_owned` takes the sender, and when the channel is closed it is dropped. -/
theorem reserveOwned_closed :
    ((machine Nat Nat (some 2)).run exampleChannel [.close, .reserveOwned 0]).bind (fun c =>
      (c.perform (.poll 0 7)).toOption.map fun (reply, d, _) =>
        (match reply with
          | .reserveOwned (.error ()) => true
          | _ => false, d.senders, d.chan.txCount)) = some (true, [], 0) := by
  decide +kernel

end Channel

end Osaka.Sync.Mpsc
