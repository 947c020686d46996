import Osaka.Sync.Mpsc.ChannelRuns

set_option autoImplicit false

namespace Osaka.Sync.Mpsc

open Transitions

variable {T W : Type}

namespace Channel

variable {c d : Channel T W} {q : Fifo T} {buffer : Option Nat}

section Watching

def ready (c : Channel T W) (waker : W) : Bool :=
  match c.chan.recv waker with
  | .ok (.ready _, _, _) => true
  | _ => false

structure Watch (W : Type) where
  -- the waker of that poll, if it returned Pending
  asked : Option W
  -- whether a call that is not the receiver's has made the receiver ready
  turned : Bool
  woken : List W
  -- whether a call, ever, was silent
  silent : Bool

variable [Wakers W]

def Watch.observe (v : Watch W) (c : Channel T W) (call : Call T W) (d : Channel T W) : Watch W :=
  match c.perform call with
  | .ok (reply, _, wakers) =>
    match call with
    | .recv waker =>
      { asked := match reply with
          | .recv .pending => some waker
          | _ => none
        turned := false
        woken := []
        silent := v.silent }
    | call =>
      { asked := v.asked
        turned := v.turned || (!call.receives && v.asked.any fun waker => !c.ready waker && d.ready waker)
        woken := v.woken ++ wakers
        silent := v.silent || c.silent call }
  | .error _ => v

def watched (T W : Type) [Wakers W] (buffer : Option Nat) :
    System (Channel T W × Watch W) (Call T W) ChanFault :=
  (machine T W buffer).observed ⟨none, false, [], false⟩ Watch.observe

instance : DecidablePred (watched T W buffer).within := fun _ => inferInstanceAs (Decidable True)

omit [Wakers W] in
theorem Sound.ready_iff (sound : Sound buffer c q) (waker : W) : c.ready waker = true ↔ c.chan.Ready q := by
  obtain ⟨d, wakers, ran, _⟩ := Chan.recv_spec sound.keeps sound.idle waker
  have pending := Chan.answer_pending c.chan q
  simp only [ready, ran]
  cases answer : c.chan.answer q with
  | pending => simpa [answer] using pending
  | ready value => simpa [answer] using pending

/-- The receiver that waits has its waker in the channel, or has been woken. -/
structure Watch.Matches (v : Watch W) (buffer : Option Nat) (c : Channel T W) (q : Fifo T) : Prop where
  sound : Sound buffer c q
  stored : ∀ w, v.asked = some w → w ∈ v.woken ∨ c.chan.rxWaker = some w
  turned : v.silent = false → v.turned = true → ∀ w, v.asked = some w → w ∈ v.woken

theorem observe_watch {call : Call T W} {v : Watch W} (matched : v.Matches buffer c q)
    (stepped : c.step call = .next d) : ∃ r, (v.observe c call d).Matches buffer d r := by
  obtain ⟨reply, r, wakers, ran, performed⟩ := step_performed matched.sound stepped
  refine ⟨r, ?_⟩
  by_cases polls : ∃ w, call = .recv w
  · obtain ⟨w, rfl⟩ := polls
    obtain ⟨rfl, stored⟩ := performed.polled w rfl
    simp only [Watch.observe, ran]
    refine ⟨performed.sound, ?_, nofun⟩
    intro w' asked
    cases answer : c.chan.answer q with
    | pending =>
      simp only [answer, Option.some.injEq] at asked
      rw [← asked]
      exact .inr (stored answer)
    | ready value => simp [answer] at asked
  · have other : ∀ w, call ≠ .recv w := fun w same => polls ⟨w, same⟩
    have observed : v.observe c call d =
        { asked := v.asked
          turned := v.turned || (!call.receives && v.asked.any fun waker => !c.ready waker && d.ready waker)
          woken := v.woken ++ wakers
          silent := v.silent || c.silent call } := by
      cases call with
      | recv w => exact absurd rfl (other w)
      | _ => simp only [Watch.observe, ran]
    rw [observed]
    -- a waker that leaves the channel is woken
    have follows (w : W) (asked : v.asked = some w) : w ∈ v.woken ++ wakers ∨ d.chan.rxWaker = some w := by
      rcases matched.stored w asked with woken | stored
      · exact .inl (List.mem_append_left _ woken)
      · rcases performed.waker other with same | ⟨_, woken⟩
        · exact .inr (same.trans stored)
        · exact .inl (List.mem_append_right _ (woken w stored))
    refine ⟨performed.sound, follows, ?_⟩
    intro loud turned w asked
    obtain ⟨loud, loud'⟩ := Bool.or_eq_false_iff.mp loud
    rcases Bool.or_eq_true_iff.mp turned with before | now
    · exact List.mem_append_left _ (matched.turned loud before w asked)
    · have same : v.asked = some w := asked
      rw [same, Option.any_some] at now
      obtain ⟨sends, unready, turns⟩ : call.receives = false ∧ c.ready w = false ∧ d.ready w = true := by
        simpa using now
      have here : ¬c.chan.Ready q := by
        rw [← matched.sound.ready_iff w, unready]
        decide
      have there := (performed.sound.ready_iff w).mp turns
      have none := (performed.told sends loud' there).resolve_left here
      rcases follows w asked with woken | stored
      · exact woken
      · rw [none] at stored
        cases stored

theorem watched_matches {v : Watch W} (reached : (watched T W buffer).Reachable (c, v)) :
    ∃ q, v.Matches buffer c q := by
  apply System.Reachable.watched (P := fun c v => ∃ q, v.Matches buffer c q) _ _ reached
  · intro c initial
    exact ⟨_, initial_sound initial, nofun, nofun⟩
  · rintro c v call d _ ⟨q, matched⟩ _ stepped
    exact observe_watch matched stepped

/-- No wakeup is lost while no call is silent. -/
theorem receiver_woken {v : Watch W} (reached : (watched T W buffer).Reachable (c, v)) (loud : v.silent = false)
    (turned : v.turned = true) (w : W) (asked : v.asked = some w) : w ∈ v.woken := by
  obtain ⟨q, matched⟩ := watched_matches reached
  exact matched.turned loud turned w asked

end Watching

section Examples

theorem exampleWakeup_moves :
    ((watched Nat Nat (some 2)).run (exampleChannel, ⟨none, false, [], false⟩)
      [.tryReserve 0, .close, .recv 9, .permitDrop 0]).map (fun r => (r.2.asked, r.2.turned, r.2.silent)) =
      some (some 9, true, false) := by
  decide +kernel

theorem exampleChannel_watched : (watched Nat Nat (some 2)).Reachable (exampleChannel, ⟨none, false, [], false⟩) :=
  .initial ⟨if_pos (by decide), rfl⟩

theorem receiver_woken_run : ∃ c : Channel Nat Nat, ∃ v : Watch Nat,
    (watched Nat Nat (some 2)).Reachable (c, v) ∧ 9 ∈ v.woken := by
  obtain ⟨⟨c, v⟩, ran, moved⟩ := Option.map_eq_some_iff.mp exampleWakeup_moves
  have reached := System.reachable_run _ exampleChannel_watched ran
  simp only [Prod.mk.injEq] at moved
  obtain ⟨asked, turned, loud⟩ := moved
  exact ⟨c, v, reached, receiver_woken reached loud turned 9 asked⟩

/-- It comes back through `OwnedPermit::release`, or with a reserve that is dropped or fails: nobody is woken. -/
theorem receiver_asleep :
    [[.tryReserveOwned 0, .close, .recv 9, .ownedPermitRelease],
      [.tryReserve 0, .tryReserve 0, .reserve 0, .poll 0 5, .permitDrop 0, .permitDrop 0, .close, .recv 9, .dropRequest 0],
      [.tryReserve 0, .tryReserve 0, .reserve 0, .poll 0 5, .permitDrop 0, .permitDrop 0, .close, .recv 9, .poll 0 5]].map
      (fun calls => ((watched Nat Nat (some 2)).run (exampleChannel, ⟨none, false, [], false⟩) calls).map
        fun r => (r.2.asked, r.2.turned, r.2.woken)) =
      List.replicate 3 (some (some 9, true, [])) := by
  decide +kernel

end Examples

end Channel

end Osaka.Sync.Mpsc
