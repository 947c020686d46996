import Osaka.Sync.BarrierSteps

set_option autoImplicit false

namespace Osaka.Sync.Barrier

open Transitions

variable {W : Type} {b t : Barrier W} {j k : Watch.Journal W} {c : Nat} {waker : W} {wakers : List W} {ready : Option Bool}

section Rolls

structure Roll (W : Type) where
  -- the calls in the order in which they have arrived
  arrivals : List Nat
  -- the waker given last to a call that is pending, and the wakers woken since
  asked : Nat → Option W
  woken : Nat → List W

def Roll.note (roll : Roll W) (b : Barrier W) (c : Nat) (waker : W) (ready : Option Bool) (wakers : List W) : Roll W :=
  { arrivals := if b.calls c = .called then roll.arrivals ++ [c] else roll.arrivals
    asked := Function.update roll.asked c (if ready.isNone then some waker else none)
    woken := fun d => Function.update roll.woken c [] d ++ wakers }

variable {roll : Roll W}

def Placed (n generation p : Nat) : BarrierCall → Prop
  | .called => False
  | .waiting g _ => g = p / n + 1 ∧ (p + 1) % n ≠ 0
  | .returned true => (p + 1) % n = 0
  | .returned false => (p + 1) % n ≠ 0 ∧ p / n + 1 < generation

structure Enrolled (b : Barrier W) (j : Watch.Journal W) (roll : Roll W) : Prop where
  count : roll.arrivals.length + b.n = b.generation * b.n + b.arrived
  nodup : roll.arrivals.Nodup
  called : ∀ c, b.calls c = .called ↔ c ∉ roll.arrivals
  place : ∀ p c, roll.arrivals[p]? = some c → Placed b.n b.generation p (b.calls c)
  heard : ∀ c g r, b.calls c = .waiting g r → ∃ waker, roll.asked c = some waker ∧ j.rxAsked r = some waker ∧
    ∀ other ∈ j.rxWoken r, other ∈ roll.woken c
  unasked : ∀ c, (∀ g r, b.calls c ≠ .waiting g r) → roll.asked c = none

theorem place_of {p n generation arrived : Nat} (count : p + n = generation * n + arrived) (short : arrived < n) :
    p / n + 1 = generation ∧ ((p + 1) % n = 0 ↔ arrived + 1 = n) := by
  obtain ⟨g, rfl⟩ : ∃ g, generation = g + 1 := by
    refine ⟨generation - 1, ?_⟩
    cases generation with
    | zero => omega
    | succ g => rfl
  have position : arrived + n * g = p := by
    rw [Nat.add_mul, Nat.one_mul, Nat.mul_comm] at count
    omega
  have divided : p / n = g ∧ p % n = arrived := (Nat.div_mod_unique (by omega)).mpr ⟨position, short⟩
  refine ⟨by rw [divided.1], ?_⟩
  rw [Nat.add_mod, divided.2]
  by_cases last : arrived + 1 = n
  · simp only [last, iff_true]
    by_cases one : n = 1
    · rw [one, Nat.mod_one]
    · rw [Nat.mod_eq_of_lt (by omega : 1 < n), last, Nat.mod_self]
  · simp only [last, iff_false]
    rw [Nat.mod_eq_of_lt (by omega : 1 < n), Nat.mod_eq_of_lt (by omega)]
    omega

theorem Placed.later {n generation later p : Nat} {call : BarrierCall} (placed : Placed n generation p call)
    (le : generation ≤ later) : Placed n later p call := by
  cases call with
  | called => exact placed
  | waiting g r => exact placed
  | returned leader =>
    cases leader with
    | true => exact placed
    | false => exact ⟨placed.1, placed.2.trans_le le⟩

structure Others (b t : Barrier W) (roll : Roll W) (c : Nat) (k : Watch.Journal W) (wakers : List W) : Prop where
  calls : ∀ d, d ≠ c → t.calls d = b.calls d
  heard : ∀ d g r, d ≠ c → b.calls d = .waiting g r → ∃ waker, roll.asked d = some waker ∧ k.rxAsked r = some waker ∧
    ∀ other ∈ k.rxWoken r, other ∈ roll.woken d ++ wakers

theorem Polled.others (sound : Sound b j) (enrolled : Enrolled b j roll)
    (polled : Polled b t j k c waker wakers ready) : Others b t roll c k wakers := by
  have heard (d g r : Nat) (waiting : b.calls d = .waiting g r) (same : k.rxAsked r = j.rxAsked r)
      (woken : k.rxWoken r = j.rxWoken r ++ wakers) : ∃ waker, roll.asked d = some waker ∧
        k.rxAsked r = some waker ∧ ∀ other ∈ k.rxWoken r, other ∈ roll.woken d ++ wakers := by
    obtain ⟨waker, asked, asked', before⟩ := enrolled.heard d g r waiting
    refine ⟨waker, asked, same.trans asked', ?_⟩
    intro other member
    rw [woken] at member
    rcases List.mem_append.mp member with old | new
    · exact List.mem_append_left _ (before other old)
    · exact List.mem_append_right _ new
  cases polled with
  | leads called last calls generation arrived all =>
    constructor
    · intro d other
      rw [calls, Function.update_of_ne other]
    · intro d g r _ waiting
      exact heard d g r waiting (all r).1 (all r).2
  | joins called short calls generation arrived keeps asked woken =>
    constructor
    · intro d other
      rw [calls, Function.update_of_ne other]
    · intro d g r _ waiting
      have older := (sound.watch.alive (sound.waits d g r waiting).2.1).ne
      exact heard d g r waiting (keeps.asked r older) (keeps.woken r older)
  | stays g r here multiple calls generation arrived keeps asked woken =>
    constructor
    · intro d _
      rw [calls]
    · intro d h q other waiting
      have apart : q ≠ r := by
        rintro rfl
        exact other (sound.apart d c h g q waiting here)
      exact heard d h q waiting (keeps.asked q apart) (keeps.woken q apart)
  | returns g r here newer calls generation arrived keeps =>
    constructor
    · intro d other
      rw [calls, Function.update_of_ne other]
    · intro d h q other waiting
      have apart : q ≠ r := by
        rintro rfl
        exact other (sound.apart d c h g q waiting here)
      exact heard d h q waiting (keeps.asked q apart) (keeps.woken q apart)

theorem mem_note {d : Nat} : d ∈ (roll.note b c waker ready wakers).arrivals ↔
    d ∈ roll.arrivals ∨ b.calls c = .called ∧ d = c := by
  unfold Roll.note
  dsimp only
  split
  next called => simp [called]
  next here => simp [here]

theorem Others.enrolled (others : Others b t roll c k wakers) (enrolled : Enrolled b j roll) (size : t.n = b.n)
    (later : b.generation ≤ t.generation) (arrived : t.calls c ≠ .called)
    (count : (roll.note b c waker ready wakers).arrivals.length + t.n = t.generation * t.n + t.arrived)
    (place : ∀ p, (roll.note b c waker ready wakers).arrivals[p]? = some c → Placed t.n t.generation p (t.calls c))
    (own : ∀ g r, t.calls c = .waiting g r → ready = none ∧ k.rxAsked r = some waker ∧ k.rxWoken r = [])
    (done : (∀ g r, t.calls c ≠ .waiting g r) → ready.isNone = false) :
    Enrolled t k (roll.note b c waker ready wakers) := by
  have here : b.calls c = .called ∨ c ∈ roll.arrivals := by
    by_cases called : b.calls c = .called
    · exact .inl called
    · exact .inr (not_not.mp fun absent => called ((enrolled.called c).mpr absent))
  constructor
  · exact count
  · unfold Roll.note
    dsimp only
    split
    next called =>
      rw [List.nodup_append]
      refine ⟨enrolled.nodup, List.nodup_singleton c, ?_⟩
      intro d old e new same
      rw [List.mem_singleton.mp new] at same
      exact (enrolled.called c).mp called (same ▸ old)
    next => exact enrolled.nodup
  · intro d
    rw [mem_note]
    by_cases same : d = c
    · subst same
      simp only [arrived, false_iff, not_not]
      exact here.symm.imp_right fun called => ⟨called, trivial⟩
    · rw [others.calls d same, enrolled.called]
      simp [same]
  · intro p d found
    by_cases same : d = c
    · subst same
      exact place p found
    · rw [others.calls d same, size]
      refine (enrolled.place p d ?_).later later
      unfold Roll.note at found
      dsimp only at found
      split at found
      next =>
        rw [List.getElem?_append] at found
        split at found
        next => exact found
        next =>
          have member := List.mem_of_getElem? found
          exact absurd (List.mem_singleton.mp member) same
      next => exact found
  · intro d g r waiting
    by_cases same : d = c
    · subst same
      obtain ⟨rfl, asked, woken⟩ := own g r waiting
      refine ⟨waker, Function.update_self .., asked, ?_⟩
      simp [woken]
    · rw [others.calls d same] at waiting
      obtain ⟨asked, before⟩ := others.heard d g r same waiting
      refine ⟨asked, ?_⟩
      simpa [Roll.note, Function.update_of_ne same] using before
  · intro d quiet
    by_cases same : d = c
    · subst same
      change Function.update roll.asked d _ d = none
      rw [Function.update_self, done quiet]
      rfl
    · change Function.update roll.asked c _ d = none
      rw [Function.update_of_ne same]
      apply enrolled.unasked
      intro g r waiting
      rw [← others.calls d same] at waiting
      exact quiet g r waiting

theorem note_enrolled (sound : Sound b j) (enrolled : Enrolled b j roll) (size : t.n = b.n)
    (polled : Polled b t j k c waker wakers ready) : Enrolled t k (roll.note b c waker ready wakers) := by
  have others := polled.others sound enrolled
  have count := enrolled.count
  have short := sound.short
  obtain ⟨position, last⟩ := place_of count short
  -- the position of a call that arrives
  have new (called : b.calls c = .called) : (roll.note b c waker ready wakers).arrivals = roll.arrivals ++ [c] :=
    if_pos called
  have fresh (called : b.calls c = .called) (p : Nat)
      (found : (roll.note b c waker ready wakers).arrivals[p]? = some c) : p = roll.arrivals.length := by
    rw [new called, List.getElem?_append] at found
    split at found
    next => exact absurd (List.mem_of_getElem? found) ((enrolled.called c).mp called)
    next =>
      obtain ⟨within, _⟩ := List.getElem?_eq_some_iff.mp found
      simp only [List.length_singleton] at within
      omega
  have old (waiting : b.calls c ≠ .called) : (roll.note b c waker ready wakers).arrivals = roll.arrivals :=
    if_neg waiting
  cases polled with
  | leads called ends calls generation arrived all =>
    have self : t.calls c = .returned true := by rw [calls, Function.update_self]
    refine others.enrolled enrolled size (by omega) (by simp [self]) ?_ ?_ (by simp [self]) (by simp)
    · rw [new called, List.length_append, List.length_singleton, size, generation, arrived, Nat.add_mul]
      omega
    · intro p found
      rw [self, size, fresh called p found]
      exact last.mpr ends
  | joins called early calls generation arrived keeps asked woken =>
    have self : t.calls c = .waiting b.generation b.wait.made := by rw [calls, Function.update_self]
    refine others.enrolled enrolled size generation.ge (by simp [self]) ?_ ?_ ?_ (fun quiet => absurd self (quiet _ _))
    · rw [new called, List.length_append, List.length_singleton, size, generation, arrived]
      omega
    · intro p found
      rw [self, size, fresh called p found]
      exact ⟨position.symm, last.not.mpr (by omega)⟩
    · intro g r waiting
      rw [self, BarrierCall.waiting.injEq] at waiting
      obtain ⟨_, rfl⟩ := waiting
      exact ⟨rfl, asked, woken⟩
  | stays g r waiting multiple calls generation arrived keeps asked woken =>
    have self : t.calls c = .waiting g r := by rw [calls, waiting]
    refine others.enrolled enrolled size generation.ge (by simp [self]) ?_ ?_ ?_ (fun quiet => absurd self (quiet _ _))
    · rw [old (by simp [waiting]), size, generation, arrived]
      exact count
    · intro p found
      rw [old (by simp [waiting])] at found
      rw [calls, size, generation]
      exact enrolled.place p c found
    · intro h q again
      rw [self, BarrierCall.waiting.injEq] at again
      obtain ⟨_, rfl⟩ := again
      exact ⟨rfl, asked, woken⟩
  | returns g r waiting newer calls generation arrived keeps =>
    have self : t.calls c = .returned false := by rw [calls, Function.update_self]
    refine others.enrolled enrolled size generation.ge (by simp [self]) ?_ ?_ (by simp [self]) (by simp)
    · rw [old (by simp [waiting]), size, generation, arrived]
      exact count
    · intro p found
      rw [old (by simp [waiting])] at found
      have placed := enrolled.place p c found
      rw [waiting] at placed
      obtain ⟨same, follower⟩ := placed
      have apart : b.generation - g ≠ 0 := fun none => newer (none ▸ Nat.dvd_zero _)
      rw [self, size, generation]
      exact ⟨follower, by omega⟩

theorem new_enrolled (n : Nat) : Enrolled (new n : Barrier W) .first ⟨[], fun _ => none, fun _ => []⟩ := by
  constructor
  · simp [new]
  · exact List.nodup_nil
  · intro c
    simp [new]
  · intro p c found
    simp at found
  · intro c g r waiting
    cases waiting
  · exact fun _ _ => rfl

variable [Wakers W]

def Roll.observe (roll : Roll W) (b : Barrier W) (a : BarrierAction W) (_ : Barrier W) : Roll W :=
  match a with
  | .poll c waker =>
    match b.poll c waker with
    | .ok (ready, _, wakers) => roll.note b c waker ready wakers
    | .error _ => roll

def enrolled (W : Type) [Wakers W] (n : Nat) : System (Barrier W × Roll W) (BarrierAction W) BarrierFault :=
  (machine W n).observed ⟨[], fun _ => none, fun _ => []⟩ Roll.observe

instance (n : Nat) : DecidablePred (enrolled W n).within := fun _ => inferInstanceAs (Decidable True)

theorem step_next {a : BarrierAction W} (stepped : b.step a = .next t) : ∃ c waker ready wakers,
    a = .poll c waker ∧ b.allowed a = true ∧ b.poll c waker = .ok (ready, t, wakers) := by
  unfold step at stepped
  split at stepped
  next allowed =>
    cases a with
    | poll c waker =>
      cases ran : b.poll c waker with
      | error fault => simp [perform, ran, Outcome.attempt] at stepped
      | ok result =>
        obtain ⟨ready, u, wakers⟩ := result
        rw [perform, ran] at stepped
        obtain rfl := Outcome.next.inj stepped
        exact ⟨c, waker, ready, wakers, rfl, allowed, ran⟩
  next => cases stepped

theorem reachable_enrolled {n : Nat} (reached : (enrolled W n).Reachable (b, roll)) :
    b.n = max n 1 ∧ ∃ j, Sound b j ∧ Enrolled b j roll := by
  apply System.Reachable.watched (P := fun b roll => b.n = max n 1 ∧ ∃ j, Sound b j ∧ Enrolled b j roll) _ _ reached
  · rintro _ rfl
    refine ⟨?_, .first, new_sound n, new_enrolled n⟩
    change (if n = 0 then 1 else n) = max n 1
    split <;> omega
  · rintro b roll a t _ ⟨size, j, sound, enrolled⟩ _ stepped
    obtain ⟨c, waker, ready, wakers, rfl, allowed, ran⟩ := step_next stepped
    rcases poll_cases sound allowed with ⟨ready', t', wakers', k, ran', sound', size', polled⟩ | ⟨failed, _⟩
    · rw [ran'] at ran
      obtain ⟨rfl, rfl, rfl⟩ : ready' = ready ∧ t' = t ∧ wakers' = wakers := by simpa using ran
      refine ⟨size'.trans size, k, sound', ?_⟩
      rw [Roll.observe, ran']
      exact note_enrolled sound enrolled size' polled
    · rw [failed] at ran
      cases ran

end Rolls

section Generations

variable {roll : Roll W} [Wakers W]

omit [Wakers W] in
theorem Enrolled.filled (enrolled : Enrolled b j roll) (sound : Sound b j) :
    roll.arrivals.length / b.n + 1 = b.generation :=
  (place_of enrolled.count sound.short).1

theorem arrive_ok (sound : Sound b j) (enrolled : Enrolled b j roll) (called : b.calls c = .called)
    (room : (roll.arrivals.length + 1) % b.n = 0 → b.generation + 1 < 2 ^ 64) (waker : W) :
    ∃ t wakers, b.poll c waker =
      .ok (if (roll.arrivals.length + 1) % b.n = 0 then some true else none, t, wakers) := by
  have last := (place_of enrolled.count sound.short).2
  have shorter := sound.short
  unfold poll
  rw [called]
  by_cases ends : b.arrived + 1 = b.n
  · rw [if_pos (last.mpr ends)]
    obtain ⟨t, wakers, k, ran, _⟩ := lead_ok sound called ends (room (last.mpr ends)) waker
    exact ⟨t, wakers, ran⟩
  · rw [if_neg (last.not.mpr ends)]
    obtain ⟨t, k, ran, _⟩ := join_ok sound called (by omega) waker
    exact ⟨t, [], ran⟩

theorem wait_generation {p g r : Nat} (sound : Sound b j) (enrolled : Enrolled b j roll)
    (place : roll.arrivals[p]? = some c) (waiting : b.calls c = .waiting g r)
    (near : 2 ^ 63 ∣ roll.arrivals.length / b.n - p / b.n → roll.arrivals.length / b.n = p / b.n) (waker : W) :
    ∃ t wakers, b.poll c waker =
      .ok (if p / b.n < roll.arrivals.length / b.n then some false else none, t, wakers) := by
  have filled := enrolled.filled sound
  have placed := enrolled.place p c place
  rw [waiting] at placed
  obtain ⟨same, _⟩ := placed
  have most := (sound.waits c g r waiting).2.2.2.2
  obtain ⟨ready, t, wakers, k, ran, _, _, polled⟩ := wait_ok sound waiting waker
  have lag : b.generation - g = roll.arrivals.length / b.n - p / b.n := by omega
  refine ⟨t, wakers, ?_⟩
  unfold poll
  rw [waiting]
  dsimp only
  rw [ran]
  cases polled with
  | leads called | joins called =>
    rw [waiting] at called
    cases called
  | stays h q here multiple =>
    obtain ⟨rfl, rfl⟩ := BarrierCall.waiting.inj (waiting.symm.trans here)
    have level := near (lag ▸ multiple)
    rw [if_neg (by omega)]
  | returns h q here newer =>
    obtain ⟨rfl, rfl⟩ := BarrierCall.waiting.inj (waiting.symm.trans here)
    have behind : b.generation - g ≠ 0 := fun none => newer (none ▸ Nat.dvd_zero _)
    rw [if_pos (by omega)]

omit [Wakers W] in
theorem woken_generation {p : Nat} (sound : Sound b j) (enrolled : Enrolled b j roll)
    (place : roll.arrivals[p]? = some c) (asked : roll.asked c = some waker)
    (newer : ¬2 ^ 63 ∣ roll.arrivals.length / b.n - p / b.n) : waker ∈ roll.woken c := by
  have filled := enrolled.filled sound
  cases phase : b.calls c with
  | called | returned leader =>
    rw [enrolled.unasked c (by simp [phase])] at asked
    cases asked
  | waiting g r =>
    obtain ⟨given, asked', stored, woken⟩ := enrolled.heard c g r phase
    obtain rfl : given = waker := Option.some.inj (asked'.symm.trans asked)
    apply woken
    apply sound.watch.rxHeard stored
    left
    obtain ⟨_, _, version, positive, most⟩ := sound.waits c g r phase
    have placed := enrolled.place p c place
    rw [phase] at placed
    have count := sound.filled
    have lag : j.increments - (g - 1) = roll.arrivals.length / b.n - p / b.n := by
      have same := placed.1
      omega
    rw [ne_eq, sound.watch.differs_iff version (by omega), lag]
    exact newer

/-- The calls in the order of their arrival, at positions 0, 1, ..., are grouped by n. -/
theorem generations {n : Nat} (reached : (enrolled W n).Reachable (b, roll)) :
    b.n = max n 1 ∧ roll.arrivals.Nodup ∧ b.generation = roll.arrivals.length / b.n + 1 ∧
    -- the last of its generation returns at once, as the leader, and the others wait
    (∀ c waker, b.calls c = .called →
      ((roll.arrivals.length + 1) % b.n = 0 → b.generation + 1 < 2 ^ 64) → ∃ t wakers, b.poll c waker =
      .ok (if (roll.arrivals.length + 1) % b.n = 0 then some true else none, t, wakers)) ∧
    (∀ p c, roll.arrivals[p]? = some c → (b.calls c = .returned true ↔ (p + 1) % b.n = 0) ∧
      (∀ leader, b.calls c = .returned leader → p / b.n < roll.arrivals.length / b.n)) ∧
    -- a call that waits returns at the next poll if its generation is full, and not before
    (∀ p c g r waker, roll.arrivals[p]? = some c → b.calls c = .waiting g r →
      (2 ^ 63 ∣ roll.arrivals.length / b.n - p / b.n → roll.arrivals.length / b.n = p / b.n) →
      ∃ t wakers, b.poll c waker =
        .ok (if p / b.n < roll.arrivals.length / b.n then some false else none, t, wakers)) ∧
    (∀ p c waker, roll.arrivals[p]? = some c → roll.asked c = some waker →
      ¬2 ^ 63 ∣ roll.arrivals.length / b.n - p / b.n → waker ∈ roll.woken c) ∧
    -- there is at least one receiver
    (∀ a fault, b.step a = .failed fault → fault = .overflow ∧ b.generation + 1 = 2 ^ 64) := by
  obtain ⟨size, j, sound, enrolled⟩ := reachable_enrolled reached
  have filled := enrolled.filled sound
  refine ⟨size, enrolled.nodup, filled.symm, ?_, ?_, ?_, ?_, ?_⟩
  · exact fun c waker called room => arrive_ok sound enrolled called room waker
  · intro p c place
    have placed := enrolled.place p c place
    have inside := (List.getElem?_eq_some_iff.mp place).1
    cases phase : b.calls c with
    | called =>
      rw [phase] at placed
      exact placed.elim
    | waiting g r =>
      rw [phase] at placed
      exact ⟨by simpa using placed.2, by simp⟩
    | returned leader =>
      rw [phase] at placed
      cases leader with
      | true =>
        have multiple : (p + 1) % b.n = 0 := placed
        refine ⟨by simp [multiple], fun _ _ => ?_⟩
        obtain ⟨q, product⟩ := Nat.dvd_of_mod_eq_zero multiple
        have positive : 0 < b.n := (Nat.zero_le _).trans_lt sound.short
        rw [Nat.div_lt_iff_lt_mul positive]
        have above : (p + 1) / b.n * b.n ≤ roll.arrivals.length / b.n * b.n :=
          Nat.mul_le_mul_right _ (Nat.div_le_div_right inside)
        rw [Nat.div_mul_cancel (Nat.dvd_of_mod_eq_zero multiple)] at above
        omega
      | false =>
        obtain ⟨follower, full⟩ := placed
        exact ⟨by simp [follower], fun _ _ => by omega⟩
  · exact fun p c g r waker place waiting near => wait_generation sound enrolled place waiting near waker
  · exact fun p c waker place asked newer => woken_generation sound enrolled place asked newer
  · intro a fault failed
    unfold step at failed
    split at failed
    next allowed =>
      cases a with
      | poll c waker =>
        rcases poll_cases sound allowed with ⟨ready, t, wakers, k, ran, _⟩ | ⟨ran, most⟩
        · rw [perform, ran] at failed
          cases failed
        · rw [perform, ran] at failed
          cases failed
          exact ⟨rfl, most⟩
    next => cases failed

/-- The first call is slow: it is polled again after the second generation. -/
def exampleWaits : List (BarrierAction Nat) := [.poll 0 7, .poll 1 8, .poll 2 9, .poll 3 10]

theorem exampleWaits_asked : ((enrolled Nat 2).run (new 2, ⟨[], fun _ => none, fun _ => []⟩) exampleWaits).map
    (fun s => (s.1.n, s.2.arrivals, s.2.asked 0)) = some (2, [0, 1, 2, 3], some 7) := by
  decide +kernel

theorem generations_run : ∃ roll : Roll Nat, 7 ∈ roll.woken 0 := by
  obtain ⟨⟨b, roll⟩, ran, facts⟩ := Option.map_eq_some_iff.mp exampleWaits_asked
  simp only [Prod.mk.injEq] at facts
  obtain ⟨size, arrivals, asked⟩ := facts
  have start : (enrolled Nat 2).Reachable (new 2, ⟨[], fun _ => none, fun _ => []⟩) := .initial ⟨rfl, rfl⟩
  obtain ⟨_, _, _, _, _, _, woken, _⟩ := generations (System.reachable_run _ start ran)
  refine ⟨roll, woken 0 0 7 (by rw [arrivals]; rfl) asked ?_⟩
  rw [size, arrivals]
  decide

end Generations

section Wrapping

variable {roll : Roll Nat} {b t : Barrier Nat} {j : Watch.Journal Nat}

theorem poll_reachable {n c waker : Nat} {ready : Option Bool} {wakers : List Nat}
    (reached : (enrolled Nat n).Reachable (b, roll)) (called : b.calls c = .called)
    (ran : b.arrive c waker = .ok (ready, t, wakers)) :
    (enrolled Nat n).Reachable (t, roll.note b c waker ready wakers) := by
  have polled : b.poll c waker = .ok (ready, t, wakers) := by
    unfold poll
    rw [called]
    exact ran
  refine reached.step (a := .poll c waker) trivial ?_
  simp [enrolled, System.observed, machine, step, Barrier.allowed, called, perform, polled, Outcome.attempt,
    Roll.observe]

theorem note_first {c waker : Nat} {ready : Option Bool} {wakers : List Nat} (place : roll.arrivals[0]? = some 0) :
    (roll.note b c waker ready wakers).arrivals[0]? = some 0 := by
  unfold Roll.note
  dsimp only
  split
  next => exact List.getElem?_append_left (List.getElem?_eq_some_iff.mp place).1 ▸ place
  next => exact place

/-- Two calls fill a generation, while the first call of all is not polled again. -/
theorem pair_reachable {c r : Nat} (reached : (enrolled Nat 2).Reachable (b, roll))
    (room : b.generation + 1 < 2 ^ 64) (empty : b.arrived = 0) (first : b.calls 0 = .waiting 1 r)
    (place : roll.arrivals[0]? = some 0) (called : b.calls c = .called ∧ b.calls (c + 1) = .called) :
    ∃ t roll', (enrolled Nat 2).Reachable (t, roll') ∧ t.generation = b.generation + 1 ∧ t.arrived = 0 ∧
      t.calls 0 = .waiting 1 r ∧ roll'.arrivals[0]? = some 0 ∧ ∀ d, d ≠ c → d ≠ c + 1 → t.calls d = b.calls d := by
  obtain ⟨size, j, sound, _⟩ := reachable_enrolled reached
  have two : b.n = 2 := size
  have apart : c ≠ 0 ∧ c + 1 ≠ 0 := by
    refine ⟨?_, by omega⟩
    rintro rfl
    rw [first] at called
    cases called.1
  obtain ⟨u, k, ran, sound', size', polled⟩ := join_ok sound called.1 (by omega) 0
  have reached' := poll_reachable reached called.1 ran
  cases polled with
  | stays g r here =>
    rw [called.1] at here
    cases here
  | joins _ _ calls generation arrived =>
    have next : u.calls (c + 1) = .called := by
      rw [calls, Function.update_of_ne (by omega)]
      exact called.2
    obtain ⟨t, wakers, k', ran', sound'', size'', polled'⟩ := lead_ok sound' next (by omega) (by omega) 0
    have reached'' := poll_reachable reached' next ran'
    cases polled' with
    | leads _ _ calls' generation' arrived' =>
      refine ⟨t, _, reached'', by omega, arrived', ?_, ?_, ?_⟩
      · rw [calls', Function.update_of_ne apart.2.symm, calls, Function.update_of_ne apart.1.symm]
        exact first
      · exact note_first (note_first place)
      · intro d other other'
        rw [calls', Function.update_of_ne other', calls, Function.update_of_ne other]

theorem generations_reachable (filled : Nat) (room : filled + 2 < 2 ^ 64) :
    ∃ b roll, (enrolled Nat 2).Reachable (b, roll) ∧ b.generation = filled + 1 + 1 ∧ b.arrived = 0 ∧
      b.calls 0 = .waiting 1 1 ∧ roll.arrivals[0]? = some 0 ∧ ∀ d, 2 * filled + 2 ≤ d → b.calls d = .called := by
  induction filled with
  | zero =>
    have start : (enrolled Nat 2).Reachable (new 2, ⟨[], fun _ => none, fun _ => []⟩) := .initial ⟨rfl, rfl⟩
    obtain ⟨b, k, ran, sound, size, polled⟩ := join_ok (new_sound 2) (c := 0) rfl (by decide) 0
    have reached := poll_reachable start rfl ran
    cases polled with
    | stays g r here => cases here
    | joins _ _ calls generation arrived =>
      have next : b.calls 1 = .called := by
        rw [calls]
        rfl
      have two : b.n = 2 := size
      have one : b.generation = 1 := generation
      have last : b.arrived + 1 = b.n := by
        rw [arrived, two]
        rfl
      obtain ⟨t, wakers, k', ran', _, _, polled'⟩ := lead_ok sound next last (by omega) 0
      have reached' := poll_reachable reached next ran'
      cases polled' with
      | leads _ _ calls' generation' arrived' =>
        refine ⟨t, _, reached', by omega, arrived', ?_, note_first rfl, ?_⟩
        · rw [calls', calls]
          rfl
        · intro d beyond
          rw [calls', Function.update_of_ne (by omega), calls, Function.update_of_ne (by omega)]
          rfl
  | succ filled ih =>
    obtain ⟨b, roll, reached, generation, empty, first, place, called⟩ := ih (by omega)
    obtain ⟨t, roll', reached', generation', empty', first', place', others⟩ := pair_reachable (c := 2 * filled + 2)
      reached (by omega) empty first place ⟨called _ (le_refl _), called _ (by omega)⟩
    refine ⟨t, roll', reached', by omega, empty', first', place', ?_⟩
    intro d beyond
    rw [others d (by omega) (by omega)]
    exact called d (by omega)

/-- A call that is not polled while exactly 2^63 generations fill takes the version for one that it has seen. -/
theorem generation_missed : ∃ (b t : Barrier Nat) (roll : Roll Nat) (wakers : List Nat),
    (enrolled Nat 2).Reachable (b, roll) ∧ roll.arrivals[0]? = some 0 ∧ b.calls 0 = .waiting 1 1 ∧
      0 / b.n < roll.arrivals.length / b.n ∧ b.poll 0 7 = .ok (none, t, wakers) := by
  obtain ⟨b, roll, reached, generation, empty, first, place, _⟩ := generations_reachable (2 ^ 63 - 1) (by omega)
  obtain ⟨size, j, sound, enrolled⟩ := reachable_enrolled reached
  have filled := enrolled.filled sound
  have lag : b.generation - 1 = 2 ^ 63 := by omega
  obtain ⟨ready, t, wakers, k, ran, _, _, polled⟩ := wait_ok sound first 7
  have polls : b.poll 0 7 = .ok (ready, t, wakers) := by
    unfold poll
    rw [first]
    exact ran
  refine ⟨b, t, roll, wakers, reached, place, first, ?_, ?_⟩
  · rw [Nat.zero_div]
    omega
  · cases polled with
    | leads called | joins called =>
      rw [first] at called
      cases called
    | stays => exact polls
    | returns g r here newer =>
      obtain ⟨rfl, rfl⟩ := BarrierCall.waiting.inj (first.symm.trans here)
      rw [lag] at newer
      exact absurd (dvd_refl _) newer

end Wrapping

end Osaka.Sync.Barrier
