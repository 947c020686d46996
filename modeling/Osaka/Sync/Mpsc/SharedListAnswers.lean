import Osaka.Sync.Mpsc.SharedListRuns

set_option autoImplicit false

namespace Osaka.Sync.Mpsc.SharedList

open Transitions

variable {I T : Type} {c d : Chart I T} {s t : SharedList I T}

def Answer.value : Answer T → Option T
  | .pop (some (.value value)) | .tryPop (.ok value) => some value
  | .pop none | .pop (some .closed) | .tryPop .empty | .tryPop .closed | .tryPop .busy => none

def Receiving.tried : Receiving → Option Nat
  | .advancing tried | .stepping tried | .reclaiming tried | .inspecting tried | .unlinking tried | .resetting tried _
  | .tailing tried _ | .numbering tried _ _ _ | .appending tried _ _ _ | .freeing tried _ | .reading tried
  | .taking tried => tried
  | .idle | .called | .dropping _ => none

section Journal

/-- What has been pushed, and `none` when the list has been closed, in the order of the claims; what has been received;
and how many slots had been claimed when `try_pop` looked last. -/
structure Journal (T : Type) where
  claims : List (Option T)
  received : List T
  asked : Nat

def journal : Journal T := ⟨[], [], 0⟩

def returned (s : SharedList I T) : SharedListAction I T → Option (Answer T)
  | .stepReceiver =>
    match s.stepReceiver with
    | .ok (answer, _) => answer
    | .error _ => none
  | .push _ _ | .close _ | .stepSender _ _ | .pop | .tryPop | .freeBlocks => none

def observe (j : Journal T) (s : SharedList I T) (a : SharedListAction I T) (_ : SharedList I T) : Journal T where
  claims := j.claims ++ a.claim.toList
  received := j.received ++ ((s.returned a).bind Answer.value).toList
  asked :=
    match a, s.receiver with
    | .stepReceiver, .called => j.claims.length
    | _, _ => j.asked

def journaled (I T : Type) [Fintype I] [DecidableEq I] :
    System (SharedList I T × Journal T) (SharedListAction I T) Fault :=
  (machine I T).observed journal observe

instance [Fintype I] [DecidableEq I] : DecidablePred (journaled I T).within := fun _ => inferInstanceAs (Decidable True)

structure Tells (c : Chart I T) (s : SharedList I T) (j : Journal T) : Prop where
  length : j.claims.length = s.tailPosition
  claims : ∀ k, j.claims[k]? = (c.slots k).claim
  received : j.received.map some = j.claims.take s.index
  asked : ∀ tailPosition, s.receiver.tried = some tailPosition →
    tailPosition = j.asked ∧ s.index ≤ tailPosition ∧ tailPosition ≤ s.tailPosition

end Journal

section Effects

theorem Inv.index_le (inv : Inv c s) : s.index ≤ s.tailPosition := by
  refine Nat.le_of_not_lt fun before => ?_
  have taken := (inv.ledger.taken _).mpr before
  rw [(inv.ledger.free _).mpr (Nat.le_refl _)] at taken
  cases taken

theorem answer_value (s : SharedList I T) (tried : Option Nat) (value : T) :
    (s.answer tried (some (.value value))).value = some value := by
  cases tried <;> rfl

theorem answer_closed (s : SharedList I T) (tried : Option Nat) : (s.answer tried (some .closed)).value = none := by
  cases tried <;> rfl

theorem answer_none (s : SharedList I T) (tried : Option Nat) : (s.answer tried none).value = none := by
  cases tried with
  | none => rfl
  | some tailPosition =>
    simp only [answer]
    split <;> rfl

theorem ReceivingMoves.takes_next {r : Option (Answer T) × SharedList I T} (moves : ReceivingMoves c s r) :
    r.2.tailPosition = s.tailPosition ∧
      (r.1.bind Answer.value = none ∧ r.2.index = s.index ∨ ∃ value, r.1.bind Answer.value = some value ∧
        c.slots s.index = .ready value ∧ r.2.index = s.index + 1 ∧ r.2.receiver = .idle) := by
  cases moves with
  | misses tried => exact ⟨rfl, .inl ⟨answer_none s tried, rfl⟩⟩
  | closes tried => exact ⟨rfl, .inl ⟨answer_closed s tried, rfl⟩⟩
  | waits tried => exact ⟨rfl, .inl ⟨answer_none s tried, rfl⟩⟩
  | takes tried value b stage slot => exact ⟨rfl, .inr ⟨value, answer_value s tried value, slot, rfl, rfl⟩⟩
  | loads | arrives | seeks | steps | skips | looks | spares | frees | unlinks | resets | tails | numbers | links
  | runsOn | gives | deallocates | finds => exact ⟨rfl, .inl ⟨rfl, rfl⟩⟩

theorem ReceivingMoves.tried {r : Option (Answer T) × SharedList I T} (moves : ReceivingMoves c s r)
    {tailPosition : Nat} (tried : r.2.receiver.tried = some tailPosition) :
    (s.receiver = .called ∧ tailPosition = s.tailPosition) ∨
      s.receiver ≠ .called ∧ s.receiver.tried = some tailPosition := by
  cases moves with
  | loads stage => exact .inl ⟨stage, (Option.some.inj tried).symm⟩
  | misses | closes | waits | takes => cases tried
  | arrives _ stage | seeks _ stage | steps _ stage | skips _ stage | looks _ stage | spares _ stage | frees _ _ stage
  | unlinks _ stage | resets _ _ _ stage | tails _ _ stage | numbers _ _ _ _ _ _ stage | links _ _ _ _ _ stage
  | runsOn _ _ _ _ _ stage | gives _ _ _ _ stage | deallocates _ _ stage | finds _ stage =>
    rw [stage]
    exact .inr ⟨by simp, tried⟩

variable [DecidableEq I] {i : I} {call : Sending T}

theorem SendingMoves.apart (moves : SendingMoves c s i call t) :
    t.tailPosition = s.tailPosition ∧ t.index = s.index ∧ t.receiver = s.receiver := by
  cases moves <;> exact ⟨rfl, rfl, rfl⟩

end Effects

section Order

variable {a : SharedListAction I T} {j : Journal T}

theorem Tells.claims_after (tells : Tells c s j)
    (claimed : ∀ k, (d.slots k).claim = if k = s.tailPosition then a.claim else (c.slots k).claim) (k : Nat) :
    (j.claims ++ a.claim.toList)[k]? = (d.slots k).claim := by
  rw [claimed]
  have before := tells.claims k
  rw [← before, ← tells.length]
  cases a.claim with
  | none =>
    split
    next last => simp [last]
    next => simp
  | some value =>
    by_cases last : k = j.claims.length
    · simp [last]
    · rw [if_neg last, List.getElem?_append]
      split
      next => rfl
      next beyond =>
        have more : k - j.claims.length ≠ 0 := by omega
        simp [List.getElem?_eq_none (Nat.le_of_not_lt beyond), more]

theorem Tells.stays (tells : Tells c s j) (inv : Inv c s)
    (claimed : ∀ k, (d.slots k).claim = if k = s.tailPosition then a.claim else (c.slots k).claim)
    (length : t.tailPosition = s.tailPosition + a.claim.toList.length) (index : t.index = s.index)
    (tried : ∀ tailPosition, t.receiver.tried = some tailPosition → s.receiver.tried = some tailPosition)
    (returned : s.returned a = none) (asked : (observe j s a t).asked = j.asked) : Tells d t (observe j s a t) := by
  refine ⟨?_, tells.claims_after claimed, ?_, fun tailPosition still => ?_⟩
  · simp [observe, tells.length, length]
  · have within := inv.index_le
    simp only [observe, returned, Option.bind_none, Option.toList_none, List.append_nil, index]
    rw [List.take_append_of_le_length (by rw [tells.length]; exact within)]
    exact tells.received
  · obtain ⟨same, before, after⟩ := tells.asked tailPosition (tried tailPosition still)
    rw [asked, index, length]
    exact ⟨same, before, Nat.le_add_right_of_le after⟩

theorem Tells.receives {r : Option (Answer T) × SharedList I T} (tells : Tells c s j) (inv : Inv c s)
    (moves : ReceivingMoves c s r) (stepped : s.stepReceiver = .ok r)
    (same : ∀ k, (d.slots k).claim = (c.slots k).claim) : Tells d r.2 (observe j s .stepReceiver r.2) := by
  obtain ⟨position, step⟩ := moves.takes_next
  have returned : s.returned .stepReceiver = r.1 := by simp [SharedList.returned, stepped]
  have claims : (observe j s .stepReceiver r.2).claims = j.claims := by simp [observe, SharedListAction.claim]
  refine ⟨by rw [claims, tells.length, position], fun k => by rw [claims, same, tells.claims], ?_, ?_⟩
  · rw [claims]
    simp only [observe, returned]
    rcases step with ⟨none', index⟩ | ⟨value, some', slot, index, _⟩
    · rw [none', index, Option.toList_none, List.append_nil]
      exact tells.received
    · have there : j.claims[s.index]? = some (some value) := by
        rw [tells.claims, slot]
        rfl
      obtain ⟨inside, there⟩ := List.getElem?_eq_some_iff.mp there
      rw [some', index, Option.toList_some, List.map_append, tells.received, ← List.take_concat_get' _ _ inside, there]
      rfl
  · intro tailPosition still
    have index : r.2.index = s.index := by
      rcases step with ⟨_, index⟩ | ⟨_, _, _, _, idle⟩
      · exact index
      · rw [idle] at still
        cases still
    rw [position, index]
    rcases moves.tried still with ⟨stage, rfl⟩ | ⟨other, before⟩
    · refine ⟨?_, inv.index_le, Nat.le_refl _⟩
      rw [← tells.length]
      simp only [observe, stage]
    · obtain ⟨asked, within⟩ := tells.asked tailPosition before
      refine ⟨?_, within⟩
      rw [asked]
      cases stage : s.receiver with
      | called => exact absurd stage other
      | _ => simp only [observe, stage]

theorem channel_tells : Tells (Chart.channel : Chart I T) channel journal := by
  refine ⟨rfl, fun _ => rfl, rfl, fun _ tried => ?_⟩
  cases tried

theorem Tells.in_order (tells : Tells c s j) : j.received.map some <+: j.claims := by
  rw [tells.received]
  exact List.take_prefix _ _

theorem Tells.index (tells : Tells c s j) (inv : Inv c s) : j.received.length = s.index := by
  have received := congrArg List.length tells.received
  rw [List.length_map, List.length_take, tells.length, Nat.min_eq_left inv.index_le] at received
  exact received

end Order

section Runs

variable [Fintype I] [DecidableEq I] {a : SharedListAction I T} {j : Journal T}

/-- While the blocks are freed, there is nothing left to receive. -/
def Told (s : SharedList I T) (j : Journal T) : Prop :=
  (∃ c, Inv c s ∧ Tells c s j) ∨ (∃ c, Fading c s) ∧ j.received.map some <+: j.claims

theorem step_performs (stepped : (machine I T).step s a = .next t) :
    s.allowed a = true ∧ ∃ answer, s.perform a = .ok (answer, t) := by
  have stepped : s.step a = .next t := stepped
  unfold SharedList.step at stepped
  split at stepped
  next allowed =>
    refine ⟨allowed, ?_⟩
    cases performed : s.perform a with
    | ok r =>
      rw [performed] at stepped
      obtain rfl : r.2 = t := Outcome.next.inj stepped
      exact ⟨r.1, rfl⟩
    | error fault =>
      rw [performed] at stepped
      cases stepped
  next => cases stepped

theorem Inv.leaves {answer : Option (Answer T)} (inv : Inv c s) (allowed : s.allowed a = true)
    (other : a ≠ .stepReceiver) (performed : s.perform a = .ok (answer, t)) :
    t.tailPosition = s.tailPosition + a.claim.toList.length ∧ t.index = s.index ∧
      (∀ tailPosition, t.receiver.tried = some tailPosition → s.receiver.tried = some tailPosition) ∧
      s.returned a = none ∧ (observe j s a t).asked = j.asked := by
  cases a with
  | push i value | close i =>
    cases performed
    exact ⟨rfl, rfl, fun _ tried => tried, rfl, rfl⟩
  | stepSender i address =>
    cases sender : s.senders i with
    | none => simp [SharedList.allowed, sender] at allowed
    | some call =>
      obtain ⟨u, stepped, moves⟩ := inv.sends sender allowed
      obtain rfl : u = t := by
        simp only [perform, sender, stepped, Except.ok.injEq, Prod.mk.injEq] at performed
        exact performed.2
      obtain ⟨position, index, receiver⟩ := moves.apart
      refine ⟨position, index, fun tailPosition tried => ?_, rfl, rfl⟩
      rwa [receiver] at tried
  | pop | tryPop | freeBlocks =>
    cases performed
    refine ⟨rfl, rfl, fun _ tried => ?_, rfl, rfl⟩
    cases tried
  | stepReceiver => exact absurd rfl other

theorem Told.step (told : Told s j) (stepped : (machine I T).step s a = .next t) : Told t (observe j s a t) := by
  obtain ⟨allowed, answer, performed⟩ := step_performs stepped
  rcases told with ⟨c, inv, tells⟩ | ⟨⟨c, fading⟩, ordered⟩
  · by_cases own : a = .stepReceiver
    · subst own
      obtain ⟨r, stepped, moves⟩ := stepReceiver_moves inv (receiver_busy allowed).1
      obtain ⟨d, inv', same, _⟩ := moves.inv inv
      obtain rfl : r = (answer, t) := Except.ok.inj (stepped.symm.trans performed)
      exact .inl ⟨d, inv', tells.receives inv moves stepped same⟩
    · obtain ⟨length, index, tried, returned, asked⟩ := inv.leaves (j := j) allowed own performed
      obtain ⟨r, performed', settled⟩ := inv.performs allowed
      obtain rfl : r = (answer, t) := Except.ok.inj (performed'.symm.trans performed)
      rcases settled with ⟨d, inv', claimed⟩ | fading
      · exact .inl ⟨d, inv', tells.stays inv claimed length index tried returned asked⟩
      · refine .inr ⟨⟨c, fading⟩, ?_⟩
        simp only [observe, returned, Option.bind_none, Option.toList_none, List.append_nil]
        exact tells.in_order.trans (List.prefix_append _ _)
  · obtain ⟨rfl, u, stepped', fading'⟩ := fading.performs allowed
    obtain ⟨rfl, rfl⟩ : none = answer ∧ u = t := Prod.mk.inj (Except.ok.inj (stepped'.symm.trans performed))
    refine .inr ⟨⟨_, fading'⟩, ?_⟩
    simp only [observe, returned, stepped', SharedListAction.claim, Option.bind_none, Option.toList_none,
      List.append_nil]
    exact ordered

theorem told (reached : (journaled I T).Reachable (s, j)) : Told s j := by
  apply System.Reachable.watched (P := Told) _ _ reached
  · intro s first
    obtain rfl : s = channel := first
    exact .inl ⟨_, channel_inv, channel_tells⟩
  · intro s j a t _ told _ stepped
    exact told.step stepped

/-- What is received has been pushed, in the order in which the calls of `push` have claimed their slots: nothing is
lost, repeated or overtaken. -/
theorem values_in_order (reached : (journaled I T).Reachable (s, j)) : j.received.map some <+: j.claims := by
  rcases told reached with ⟨c, _, tells⟩ | ⟨_, ordered⟩
  · exact tells.in_order
  · exact ordered

def examplePop : List (SharedListAction Bool Nat) :=
  exampleRace ++
    [.stepSender true 1, .stepSender true 1, .pop, .stepReceiver, .stepReceiver, .stepReceiver, .stepReceiver]

theorem examplePop_journal :
    ((journaled Bool Nat).run (channel, journal) examplePop).map (fun r => (r.2.claims, r.2.received)) =
      some ([some 7, some 8], [7]) := by rfl

theorem values_in_order_run : ∃ j : Journal Nat, j.claims = [some 7, some 8] ∧ j.received = [7] ∧
    j.received.map some <+: j.claims := by
  obtain ⟨⟨s, j⟩, ran, facts⟩ := Option.map_eq_some_iff.mp examplePop_journal
  obtain ⟨claims, received⟩ := Prod.mk.inj facts
  have start : (journaled Bool Nat).Reachable (channel, journal) := .initial ⟨rfl, rfl⟩
  exact ⟨j, claims, received, values_in_order (System.reachable_run _ start ran)⟩

end Runs

section Answers

variable {j : Journal T} {answer : Answer T} {r : Option (Answer T) × SharedList I T}

/-- A call has claimed the slot, and has not returned. -/
def Held (s : SharedList I T) (slot : Nat) : Prop := ∃ i call, s.senders i = some call ∧ call.slot = slot

def Answer.Right (answer : Answer T) (s : SharedList I T) (j : Journal T) : Prop :=
  match answer with
  | .pop (some (.value value)) | .tryPop (.ok value) => j.claims[j.received.length]? = some (some value)
  | .pop (some .closed) | .tryPop .closed => j.claims = j.received.map some ++ [none]
  | .pop none => j.claims.length = j.received.length ∨ s.Held j.received.length
  | .tryPop .empty => j.asked = j.received.length
  | .tryPop .busy => j.received.length < j.asked ∧ s.Held j.received.length

theorem Inv.waits (inv : Inv c s) (unready : (c.slots s.index).isReady = false)
    (unsealed : c.slots s.index ≠ .sealed) : s.tailPosition = s.index ∨ s.Held s.index := by
  cases slot : c.slots s.index with
  | free => exact .inl (Nat.le_antisymm ((inv.ledger.free _).mp slot) inv.index_le)
  | claimed | written => exact .inr (inv.ledger.held _ (by rw [slot]; rfl))
  | ready | taken =>
    rw [slot] at unready
    cases unready
  | sealed => exact absurd slot unsealed

/-- The slot of `close` is the last, and the values before it have been received. -/
theorem Inv.closed_here (inv : Inv c s) (unready : (c.slots s.index).isReady = false) {k : Nat}
    (sealed : c.slots k = .sealed) : c.slots s.index = .sealed ∧ s.tailPosition = s.index + 1 := by
  have closed : s.closed = true := by
    by_contra opened
    exact inv.ledger.opened (Bool.eq_false_iff.mpr opened) k (by rw [sealed]; rfl)
  obtain ⟨last, position, _, ready⟩ := inv.ledger.closed closed
  have used : ¬ s.tailPosition ≤ k := by
    rw [← inv.ledger.free k, sealed]
    simp
  have behind : ¬ k < last := by
    intro before
    have ready := ready k before
    rw [sealed] at ready
    cases ready
  have untaken : ¬ k < s.index := by
    rw [← inv.ledger.taken k, sealed]
    simp [Slot.isTaken]
  have reached : ¬ s.index < last := by
    intro before
    rw [ready _ before] at unready
    cases unready
  obtain rfl : k = s.index := by omega
  exact ⟨sealed, by omega⟩

theorem Tells.right_none (tells : Tells c s j) (inv : Inv c s) {tried : Option Nat} (stage : s.receiver.tried = tried)
    (waits : s.tailPosition = s.index ∨ s.Held s.index) : (s.answer tried none).Right s j := by
  have index := tells.index inv
  cases tried with
  | none =>
    show j.claims.length = j.received.length ∨ s.Held j.received.length
    rw [index, tells.length]
    exact waits
  | some tailPosition =>
    obtain ⟨rfl, before, after⟩ := tells.asked tailPosition stage
    by_cases empty : j.asked = s.index
    · simp only [answer, if_pos empty]
      show j.asked = j.received.length
      rw [empty, index]
    · simp only [answer, if_neg empty]
      show j.received.length < j.asked ∧ s.Held j.received.length
      rw [index]
      refine ⟨by omega, waits.resolve_left ?_⟩
      omega

theorem ReceivingMoves.right (moves : ReceivingMoves c s r) (inv : Inv c s) (tells : Tells c s j)
    (given : r.1 = some answer) : answer.Right s j := by
  have index := tells.index inv
  cases moves with
  | misses tried stage last =>
    obtain rfl := Option.some.inj given
    have before := inv.receiver
    rw [stage] at before
    have before : c.head < s.index / 32 := before
    have untouched : (c.slots s.index).touched ≠ true := by
      intro touched
      have within := inv.ledger.touched _ touched
      omega
    refine tells.right_none inv (by rw [stage]; rfl) (inv.waits ?_ ?_)
    · cases slot : c.slots s.index <;> simp [slot, Slot.touched, Slot.isReady] at untouched ⊢
    · intro sealed
      exact untouched (by rw [sealed]; rfl)
  | closes tried stage unready closed =>
    obtain rfl := Option.some.inj given
    obtain ⟨k, sealed⟩ := closed
    obtain ⟨here, position⟩ := inv.closed_here unready sealed
    have there : j.claims[s.index]? = some none := by
      rw [tells.claims, here]
      rfl
    obtain ⟨inside, there⟩ := List.getElem?_eq_some_iff.mp there
    have claims : j.claims = j.received.map some ++ [none] := by
      rw [tells.received, ← there, List.take_concat_get' _ _ inside, List.take_of_length_le]
      rw [tells.length, position]
    cases tried <;> exact claims
  | waits tried stage unready unsealed =>
    obtain rfl := Option.some.inj given
    exact tells.right_none inv (by rw [stage]; rfl) (inv.waits unready unsealed)
  | takes tried value b stage slot =>
    obtain rfl := Option.some.inj given
    have there : j.claims[j.received.length]? = some (some value) := by
      rw [index, tells.claims, slot]
      rfl
    cases tried <;> exact there
  | loads | arrives | seeks | steps | skips | looks | spares | frees | unlinks | resets | tails | numbers | links
  | runsOn | gives | deallocates | finds => cases given

/-- `pop` and `try_pop` return the value of the next slot. If they return none, nothing else has been pushed, or the
call that is next has not returned; `Empty` only if nothing else had been pushed when the call looked, and `Busy` only
if it had; and `Closed` only if all has been received. -/
theorem answer_right [Fintype I] [DecidableEq I] (reached : (journaled I T).Reachable (s, j))
    (given : s.returned .stepReceiver = some answer) : answer.Right s j := by
  rcases told reached with ⟨c, inv, tells⟩ | ⟨⟨c, fading⟩, _⟩
  · by_cases busy : s.receiver = .idle
    · simp [returned, stepReceiver, busy] at given
    · obtain ⟨r, stepped, moves⟩ := stepReceiver_moves inv busy
      refine moves.right inv tells ?_
      rw [returned, stepped] at given
      exact given
  · by_cases done : s.receiver = .dropping none
    · simp [returned, stepReceiver, done] at given
    · obtain ⟨t, stepped, _⟩ := fading.step done
      simp [returned, stepped] at given

def exampleWait : List (SharedListAction Bool Nat) := exampleRace ++ [.pop, .stepReceiver, .stepReceiver]

theorem exampleWait_journal :
    ((journaled Bool Nat).run (channel, journal) exampleWait).map
      (fun r => (r.2.claims, r.2.received, r.1.returned .stepReceiver)) =
      some ([some 7, some 8], [], some (.pop none)) := by rfl

theorem answer_right_run : ∃ s : SharedList Bool Nat, s.Held 0 := by
  obtain ⟨⟨s, j⟩, ran, facts⟩ := Option.map_eq_some_iff.mp exampleWait_journal
  simp only [Prod.mk.injEq] at facts
  obtain ⟨claims, received, given⟩ := facts
  have start : (journaled Bool Nat).Reachable (channel, journal) := .initial ⟨rfl, rfl⟩
  have right := answer_right (System.reachable_run _ start ran) given
  rcases right with all | held
  · rw [claims, received] at all
    cases all
  · rw [received] at held
    exact ⟨s, held⟩

end Answers

end Osaka.Sync.Mpsc.SharedList
