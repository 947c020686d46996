import Osaka.Sync.BroadcastRuns

set_option autoImplicit false

namespace Osaka.Sync.Broadcast

open Transitions

variable {T W : Type} {s t : Broadcast T W} {r : Nat} {sent : List T} {cursor : Nat → Nat}

section Closing

def receives (r : Nat) : BroadcastAction T W → Prop
  | .tryRecv i => i = r
  | .pollRecv i _ => i = r
  | _ => False

def Answer.receipt : Answer T → Option (Except TryRecvError T)
  | .received result => some result
  | .polled result => some (Broadcast.polled result)
  | _ => Option.none

/-- The close marker is all that is left for a receiver. -/
def Exhausted (s : Broadcast T W) (r : Nat) : Prop := (s.tail.pos - (s.receivers r).next).toNat ≤ 1

theorem Ring.level_iff (ring : Ring s sent cursor) (alive : (s.receivers r).dropped = false)
    (recent : s.positions sent < cursor r + 2 ^ 64) :
    ¬s.Level sent (cursor r) ↔ s.len ≤ ((s.receivers r).next - s.tail.pos).toNat := by
  obtain ⟨next, least⟩ := ring.next r alive
  have positive := ring.positive
  have distance : ((s.receivers r).next - s.tail.pos).toNat = (2 ^ 64 - (s.positions sent - cursor r)) % 2 ^ 64 := by
    rw [next, ring.pos, BitVec.toNat_sub, BitVec.toNat_ofNat, BitVec.toNat_ofNat]
    omega
  rw [distance, Level, Near]
  omega

variable [Wakers W]

theorem receive_taken {a : BroadcastAction T W} (sound : Sound s sent cursor) (recent : Recent s sent cursor)
    (receives : receives r a) (allowed : s.allowed a = true) :
    (s.receivers r).dropped = false ∧ ∃ answer t result after, s.perform a = .ok (answer, t, []) ∧
      answer.receipt = some result ∧ Taken s sent (cursor r) result after ∧ Served s t r ∧
      Performed s t sent cursor a answer [] sent (Function.update cursor r after) := by
  rcases perform_performed sound allowed recent with ⟨_, rfl | ⟨_, rfl⟩⟩ | ⟨_, _, rfl, _⟩ | ⟨_, t, _, _, _, ran, performed⟩
  · exact receives.elim
  · exact receives.elim
  · exact receives.elim
  · have done := performed
    cases performed with
    | received alive _ taken _ _ served _ _ =>
      obtain rfl := receives
      exact ⟨alive, _, t, _, _, ran, rfl, taken, served, done⟩
    | polled alive taken _ _ served _ =>
      obtain rfl := receives
      exact ⟨alive, _, t, _, _, ran, rfl, taken, served, done⟩
    | joined about _ _ =>
      rcases about with rfl | ⟨_, rfl, _⟩
      · exact receives.elim
      · exact receives.elim
    | _ => exact receives.elim

/-- When all senders are gone, a receive is Closed at the end and never Empty, if and only if the receiver's word is
none of those from the tail on that the slots are taken to wait for. -/
theorem closed_sticky {capacity : Nat} {a : BroadcastAction T W} (reached : (machine T W capacity).Reachable s)
    (gone : s.numTx = 0) (receives : receives r a) (allowed : s.allowed a = true) :
    ∃ answer t result, s.perform a = .ok (answer, t, []) ∧ answer.receipt = some result ∧
      ((result ≠ .error .empty ∧ (s.Exhausted r → result = .error .closed)) ↔
        s.len ≤ ((s.receivers r).next - s.tail.pos).toNat) := by
  obtain ⟨sent, cursor, sound, recent⟩ := machine_sound reached
  obtain ⟨alive, answer, t, result, _, ran, told, taken, _, _⟩ := receive_taken sound recent receives allowed
  have closed : s.tail.closed = true := by
    rcases sound.ended gone with closed | count
    · exact closed
    · exact absurd count (sound.count_pos alive)
  have positions : s.positions sent = sent.length + 1 := by simp [Broadcast.positions, closed]
  refine ⟨answer, t, result, ran, told, ?_⟩
  rw [← sound.ring.level_iff alive (recent r alive), Exhausted, sound.ring.behind alive (recent r alive), positions]
  have near (close : s.Near sent (cursor r)) (before : cursor r ≤ sent.length) : ¬s.Level sent (cursor r) := by
    rintro (here | far)
    · omega
    · exact far close
  cases taken with
  | value close retained _ =>
    have before := retained.1
    simp only [near close before.le, not_false_eq_true, iff_true]
    exact ⟨by simp, fun _ => by omega⟩
  | lagged close apart =>
    simp only [near close (by omega), not_false_eq_true, iff_true]
    exact ⟨by simp, fun _ => by omega⟩
  | closed close _ here =>
    simp only [near close here.le, not_false_eq_true, iff_true]
    exact ⟨by simp, fun _ => trivial⟩
  | empty level => simp [level]

instance (capacity : Nat) : DecidablePred (machine T W capacity).within := fun _ => inferInstanceAs (Decidable True)

def answers (s : Broadcast T W) (r : Nat) : Option (Except TryRecvError T) := (s.tryRecv r).toOption.map Prod.fst

theorem exampleClosing_answered :
    ((channel 1).bind fun s => (machine Nat Nat 1).run s [.dropSender]).map (fun s =>
      (s.numTx, s.answers 0, ((machine Nat Nat 1).run s [.tryRecv 0]).bind fun t => t.answers 0)) =
        some (0, some (.error .closed), some (.error .empty)) := by
  decide +kernel

/-- The second answer is not Closed. -/
theorem closed_once : ∃ s t : Broadcast Nat Nat, (machine Nat Nat 1).Reachable s ∧ s.numTx = 0 ∧
    s.answers 0 = some (.error .closed) ∧ (machine Nat Nat 1).run s [.tryRecv 0] = some t ∧
    t.answers 0 = some (.error .empty) := by
  obtain ⟨s, ran, facts⟩ := Option.map_eq_some_iff.mp exampleClosing_answered
  obtain ⟨first, made, ran⟩ := Option.bind_eq_some_iff.mp ran
  simp only [Prod.mk.injEq] at facts
  obtain ⟨gone, closed, again⟩ := facts
  obtain ⟨t, ran', empty⟩ := Option.bind_eq_some_iff.mp again
  have start : (machine Nat Nat 1).Reachable first := .initial made
  exact ⟨s, t, System.reachable_run _ start ran, gone, closed, ran', empty⟩

theorem closed_sticky_run : ∃ (s t : Broadcast Nat Nat) (result : Except TryRecvError Nat) (answer : Answer Nat),
    s.numTx = 0 ∧ s.perform (.tryRecv 0) = .ok (answer, t, []) ∧ answer.receipt = some result ∧
      result ≠ .error .empty := by
  have before : ((channel 1).bind fun s => (machine Nat Nat 1).run s [.send 4, .dropSender]).map (fun s =>
      (s.numTx, s.allowed (.tryRecv 0), decide (s.len ≤ ((s.receivers 0).next - s.tail.pos).toNat))) =
        some (0, true, true) := by
    decide +kernel
  obtain ⟨s, ran, facts⟩ := Option.map_eq_some_iff.mp before
  obtain ⟨first, made, ran⟩ := Option.bind_eq_some_iff.mp ran
  simp only [Prod.mk.injEq, decide_eq_true_eq] at facts
  obtain ⟨gone, allowed, behind⟩ := facts
  have start : (machine Nat Nat 1).Reachable first := .initial made
  obtain ⟨answer, t, result, ran, told, answered⟩ :=
    closed_sticky (r := 0) (a := .tryRecv 0) (System.reachable_run _ start ran) gone rfl allowed
  exact ⟨s, t, result, answer, gone, ran, told, (answered.mpr behind).1⟩

end Closing

end Osaka.Sync.Broadcast
