import Mathlib.Data.List.Nodup
import Mathlib.Data.List.Perm.Basic
import Osaka.Sync.Mpsc.ChanSteps

set_option autoImplicit false

namespace Osaka.Sync.Mpsc

variable {T W : Type}

def Request.owns : Request T → Bool
  | .reserveOwned => true
  | _ => false

-- the calls of the receiver
def Call.receives : Call T W → Bool
  | .recv _ | .tryRecv | .close | .dropReceiver => true
  | _ => false

def Call.closes : Call T W → Bool
  | .close | .dropReceiver => true
  | _ => false

def Reply.taken : Reply T → List T
  | .recv (.ready (some value)) => [value]
  | .tryRecv (.ok value) => [value]
  | .dropped values => values
  | _ => []

namespace Channel

variable {c d : Channel T W} {q r : Fifo T} {buffer : Option Nat} {wakers : List W} {i sender : Nat}
  {request : Request T}

def sent (c : Channel T W) : Call T W → Reply T → List T
  | .unboundedSend _ value, .send (.ok ()) => [value]
  | .trySend _ value, .trySend (.ok ()) => [value]
  | .poll i _, .send (.ok ()) =>
    match c.request i with
    | some (.send _ value) => [value]
    | _ => []
  | .permitSend _ value, _ => [value]
  | .ownedPermitSend value, _ => [value]
  | _, _ => []

/-- What a call for capacity answers when the channel is closed: the value or the sender comes back with it. -/
def refusal (c : Channel T W) : Call T W → Option (Reply T)
  | .unboundedSend _ value => some (.send (.error value))
  | .trySend _ value => some (.trySend (.error (.closed value)))
  | .tryReserve _ => some (.tryReserve (.error (.closed ())))
  | .tryReserveOwned sender => some (.tryReserveOwned (.error (.closed sender)))
  | .poll i _ =>
    (c.request i).map fun
      | .reserve _ => .reserve (.error ())
      | .reserveOwned => .reserveOwned (.error ())
      | .send _ value => .send (.error value)
  | _ => none

/-- Whether the call gives the last permit of a closed channel back, and wakes no receiver for it. -/
def silent (c : Channel T W) (call : Call T W) : Bool :=
  c.chan.rxClosed && c.chan.rxWaker.isSome && c.chan.semaphore.lastOut &&
    match call with
    | .ownedPermitRelease => true
    | .poll i _ | .dropRequest i =>
      c.chan.semaphore.share i == 1 && !((c.request i).any Request.owns && c.chan.txCount == 1)
    | _ => false

structure Sound (buffer : Option Nat) (c : Channel T W) (q : Fifo T) : Prop where
  keeps : c.chan.Keeps q (c.permits.length + c.ownedPermits)
  kind : c.chan.semaphore.buffer = buffer
  counted : c.chan.txCount = c.senders.length + c.ownedPermits + c.requests.countP fun entry => entry.2.owns
  lent : ∀ sender ∈ c.permits, sender ∈ c.senders
  asked : ∀ entry ∈ c.requests, ∀ sender, entry.2.sender = some sender → sender ∈ c.senders
  pending : ∀ i, c.chan.semaphore.Pending i ↔ i ∈ c.requests.map Prod.fst
  once : (c.requests.map Prod.fst).Nodup
  plain : buffer = none → c.permits = [] ∧ c.ownedPermits = 0
  dropped : c.receiver = false → c.chan.rxClosed = true

section Handles

theorem Sound.sending (sound : Sound buffer c q) (there : sender ∈ c.senders) : 0 < c.chan.txCount := by
  have some := List.length_pos_of_mem there
  rw [sound.counted]
  omega

theorem Sound.opened (sound : Sound buffer c q) (some : 0 < c.chan.txCount) : q.closed = false := by
  rw [sound.keeps.closed]
  simp only [decide_eq_false_iff_not]
  omega

theorem Sound.gone (sound : Sound buffer c q) (closed : q.closed = true) :
    c.senders = [] ∧ c.permits = [] ∧ c.ownedPermits = 0 ∧ c.requests = [] := by
  have none : c.chan.txCount = 0 := by simpa [sound.keeps.closed] using closed
  have counted := sound.counted
  have senders : c.senders = [] := by
    rw [← List.length_eq_zero_iff]
    omega
  have permits : c.permits = [] := by
    apply List.eq_nil_iff_forall_not_mem.mpr
    intro sender member
    have there := sound.lent sender member
    simp [senders] at there
  have requests : c.requests = [] := by
    apply List.eq_nil_iff_forall_not_mem.mpr
    intro entry member
    have owned : c.requests.countP (fun entry => entry.2.owns) = 0 := by omega
    have other := List.countP_eq_zero.mp owned entry member
    cases asked : entry.2 with
    | reserveOwned => simp [asked, Request.owns] at other
    | reserve sender | send sender value =>
      have there := sound.asked entry member sender (by rw [asked]; rfl)
      simp [senders] at there
  exact ⟨senders, permits, by omega, requests⟩

theorem Sound.idle (sound : Sound buffer c q) (closed : q.closed = true) (values : q.values = []) :
    c.chan.semaphore.isIdle = true := by
  obtain ⟨_, permits, owned, requests⟩ := sound.gone closed
  rw [sound.keeps.idle_iff, permits, owned]
  refine ⟨rfl, values, ChanSemaphore.shares_eq_zero sound.keeps.lends fun i pending => ?_⟩
  have listed := (sound.pending i).mp pending
  simp [requests] at listed

theorem perm_filter {entries : List (Nat × Request T)} (once : (entries.map Prod.fst).Nodup)
    (member : (i, request) ∈ entries) :
    entries.Perm ((i, request) :: entries.filter fun entry => entry.1 ≠ i) := by
  induction entries with
  | nil => simp at member
  | cons entry entries ih =>
    obtain ⟨fresh, once⟩ := List.nodup_cons.mp once
    by_cases same : entry.1 = i
    · have others : ∀ other ∈ entries, decide (other.1 ≠ i) = true := by
        intro other listed
        have away : other.1 ≠ entry.1 := fun equal => fresh (equal ▸ List.mem_map_of_mem listed)
        simpa [← same] using away
      have here : entry = (i, request) := by
        rcases List.mem_cons.mp member with first | later
        · exact first.symm
        · exact absurd (others _ later) (by simp)
      rw [List.filter_cons_of_neg (by simp [same]), List.filter_eq_self.mpr others, here]
    · have later : (i, request) ∈ entries := by
        rcases List.mem_cons.mp member with first | later
        · exact absurd (congrArg Prod.fst first.symm) same
        · exact later
      rw [List.filter_cons_of_pos (by simpa using same)]
      exact ((ih once later).cons entry).trans (.swap _ _ _)

theorem request_mem (found : c.request i = some request) : (i, request) ∈ c.requests := by
  obtain ⟨entry, at', rfl⟩ := Option.map_eq_some_iff.mp found
  have key : entry.1 = i := by simpa using List.find?_some at'
  rw [← key]
  exact List.mem_of_find?_eq_some at'

theorem Sound.finished (sound : Sound buffer c q) (found : c.request i = some request) :
    c.requests.Perm ((i, request) :: (c.finish i).requests) :=
  perm_filter sound.once (request_mem found)

theorem Sound.pending_request (sound : Sound buffer c q) (found : c.request i = some request) :
    c.chan.semaphore.Pending i :=
  (sound.pending i).mpr (List.mem_map_of_mem (request_mem found))

end Handles

structure Performed (buffer : Option Nat) (c : Channel T W) (q : Fifo T) (call : Call T W) (reply : Reply T)
    (d : Channel T W) (r : Fifo T) (wakers : List W) : Prop where
  sound : Sound buffer d r
  values : q.values ++ c.sent call reply = reply.taken ++ r.values
  kept : call.receives = false → reply.taken = []
  rxClosed : d.chan.rxClosed = (c.chan.rxClosed || call.closes)
  waker : (∀ w, call ≠ .recv w) →
    d.chan.rxWaker = c.chan.rxWaker ∨ d.chan.rxWaker = none ∧ ∀ w, c.chan.rxWaker = some w → w ∈ wakers
  told : call.receives = false → c.silent call = false → d.chan.Ready r → c.chan.Ready q ∨ d.chan.rxWaker = none
  ended : c.chan.Ended q → d.chan.Ended r
  refused : c.chan.rxClosed = true → ∀ answer, c.refusal call = some answer → reply = answer ∧ d.senders = c.senders
  polled : ∀ w, call = .recv w →
    reply = .recv (c.chan.answer q) ∧ (c.chan.answer q = .pending → d.chan.rxWaker = some w)

def Performs [Wakers W] (buffer : Option Nat) (c : Channel T W) (q : Fifo T) (call : Call T W) : Prop :=
  ∃ reply d r wakers, c.perform call = .ok (reply, d, wakers) ∧ Performed buffer c q call reply d r wakers

theorem Performed.of_leads {call : Call T W} {reply : Reply T} (other : call.receives = false)
    (kept : reply.taken = []) (sound : Sound buffer d r) (values : q.values ++ c.sent call reply = r.values)
    (leads : Chan.Leads (c.silent call = true) c.chan q d.chan r wakers)
    (refused : c.chan.rxClosed = true → ∀ answer, c.refusal call = some answer → reply = answer ∧ d.senders = c.senders) :
    Performed buffer c q call reply d r wakers := by
  have open' : call.closes = false := by cases call <;> simp_all [Call.receives, Call.closes]
  constructor
  · exact sound
  · rw [kept, values]
    rfl
  · exact fun _ => kept
  · rw [open', Bool.or_false]
    exact leads.rxClosed
  · exact fun _ => leads.waker
  · exact fun _ loud => leads.told (by simp [loud])
  · exact leads.ended
  · exact refused
  · rintro w rfl
    simp [Call.receives] at other

theorem Performed.of_takes {call : Call T W} {reply : Reply T} (own : call.receives = true) (sound : Sound buffer d r)
    (values : q.values = reply.taken ++ r.values) (takes : Chan.Takes c.chan q d.chan r)
    (rxClosed : d.chan.rxClosed = (c.chan.rxClosed || call.closes))
    (waker : (∀ w, call ≠ .recv w) → d.chan.rxWaker = c.chan.rxWaker)
    (polled : ∀ w, call = .recv w →
      reply = .recv (c.chan.answer q) ∧ (c.chan.answer q = .pending → d.chan.rxWaker = some w)) :
    Performed buffer c q call reply d r wakers := by
  have nothing : c.sent call reply = [] := by cases call <;> simp_all [Call.receives, sent]
  have asks : c.refusal call = none := by cases call <;> simp_all [Call.receives, refusal]
  constructor
  · exact sound
  · rw [nothing, List.append_nil]
    exact values
  · simp [own]
  · exact rxClosed
  · exact fun other => .inl (waker other)
  · intro other
    rw [own] at other
    exact absurd other (by decide)
  · exact takes.ended
  · simp [asks]
  · exact polled

theorem Sound.chan {e : Chan T W} (sound : Sound buffer c q) (keeps : e.Keeps r (c.permits.length + c.ownedPermits))
    (alike : c.chan.semaphore.Alike e.semaphore) (txCount : e.txCount = c.chan.txCount)
    (rxClosed : c.chan.rxClosed = true → e.rxClosed = true) : Sound buffer { c with chan := e } r :=
  { sound with
    keeps := keeps
    kind := alike.buffer.trans sound.kind
    counted := txCount.trans sound.counted
    pending := fun i => (alike.pending i).trans (sound.pending i)
    dropped := fun gone => rxClosed (sound.dropped gone) }

theorem bounded_buffer (bounded : c.chan.isBounded = true) : c.chan.semaphore.buffer ≠ none := by
  unfold Chan.isBounded at bounded
  cases semaphore : c.chan.semaphore with
  | bounded s bound => simp [ChanSemaphore.buffer]
  | unbounded state => simp [semaphore] at bounded

theorem Sound.lend {e : Chan T W} (sound : Sound buffer c q) (there : sender ∈ c.senders)
    (bounded : c.chan.semaphore.buffer ≠ none) (keeps : e.Keeps q (c.permits.length + c.ownedPermits + 1))
    (alike : c.chan.semaphore.Alike e.semaphore) (txCount : e.txCount = c.chan.txCount)
    (rxClosed : e.rxClosed = c.chan.rxClosed) :
    Sound buffer { c with chan := e, permits := sender :: c.permits } q := by
  refine { sound with
    keeps := ?_
    kind := alike.buffer.trans sound.kind
    counted := txCount.trans sound.counted
    lent := ?_
    pending := fun i => (alike.pending i).trans (sound.pending i)
    plain := fun none => absurd (sound.kind.trans none) bounded
    dropped := fun gone => rxClosed.trans (sound.dropped gone) }
  · rw [List.length_cons, Nat.add_right_comm]
    exact keeps
  · rintro other (_ | ⟨_, later⟩)
    · exact there
    · exact sound.lent other later

section Senders

theorem clone_performed [Wakers W] (sound : Sound buffer c q) (there : sender ∈ c.senders) : c.Performs buffer q (.clone sender) := by
  have some := sound.sending there
  have keeps := sound.keeps
  refine ⟨_, _, q, _, rfl, .of_leads rfl rfl ?_ (List.append_nil _) ?_ (by simp [refusal])⟩
  rotate_left
  · exact ⟨rfl, rfl, .inl rfl, fun _ ready => .inl ready, id⟩
  refine { sound with keeps := ⟨keeps.list, ?_, keeps.lends⟩, counted := ?_, lent := ?_, asked := ?_ }
  · rw [sound.opened some]
    simp [clone, Chan.cloneTx]
  · have counted := sound.counted
    simp only [clone, Chan.cloneTx, List.length_cons]
    omega
  · exact fun other member => List.mem_cons_of_mem _ (sound.lent other member)
  · exact fun entry member other borrows => List.mem_cons_of_mem _ (sound.asked entry member other borrows)

theorem not_borrowed (free : c.borrowed sender = false) :
    (∀ other ∈ c.permits, other ≠ sender) ∧ ∀ entry ∈ c.requests, entry.2.sender ≠ some sender := by
  simp only [borrowed, Bool.or_eq_false_iff, List.contains_eq_mem, decide_eq_false_iff_not, List.any_eq_false,
    beq_iff_eq] at free
  refine ⟨?_, free.2⟩
  rintro other member rfl
  exact free.1 member

theorem erase_length (there : sender ∈ c.senders) : (c.senders.erase sender).length + 1 = c.senders.length := by
  have some := List.length_pos_of_mem there
  rw [List.length_erase_of_mem there]
  omega

theorem Sound.lent_erase (sound : Sound buffer c q) (free : c.borrowed sender = false) :
    (∀ other ∈ c.permits, other ∈ c.senders.erase sender) ∧
      ∀ entry ∈ c.requests, ∀ other, entry.2.sender = some other → other ∈ c.senders.erase sender := by
  obtain ⟨permits, requests⟩ := not_borrowed free
  constructor
  · intro other member
    exact (List.mem_erase_of_ne (permits other member)).mpr (sound.lent other member)
  · intro entry member other borrows
    have apart : other ≠ sender := by
      rintro rfl
      exact requests entry member borrows
    exact (List.mem_erase_of_ne apart).mpr (sound.asked entry member other borrows)

theorem dropSender_performed [Wakers W] (sound : Sound buffer c q) (there : sender ∈ c.senders) (free : c.borrowed sender = false) :
    c.Performs buffer q (.dropSender sender) := by
  obtain ⟨d, wakers, ran, keeps, semaphore, txCount, _, leads⟩ := Chan.dropTx_spec sound.keeps (sound.sending there)
  obtain ⟨lent, asked⟩ := sound.lent_erase free
  refine ⟨.unit, { c with chan := d, senders := c.senders.erase sender }, c.chan.less q, wakers, ?_, ?_⟩
  · rw [perform, dropSender, ran]
    rfl
  · refine .of_leads rfl rfl ?_ (by simp [sent, Chan.less_values]) (leads _) (by simp [refusal])
    refine { sound with keeps := keeps, kind := ?_, counted := ?_, lent := lent, asked := asked, pending := ?_, dropped := ?_ }
    · rw [semaphore, sound.kind]
    · have counted := sound.counted
      have one := erase_length there
      simp only [txCount]
      omega
    · simp only [semaphore]
      exact sound.pending
    · intro gone
      rw [(leads True).rxClosed]
      exact sound.dropped gone

theorem trySend_performed [Wakers W] (sound : Sound buffer c q) (there : sender ∈ c.senders)
    (bounded : c.chan.isBounded = true) (value : T) : c.Performs buffer q (.trySend sender value) := by
  rcases Chan.tryAcquire_leads sound.keeps bounded with
    ⟨closed, ran⟩ | ⟨opened, ran⟩ | ⟨opened, d, ran, keeps, alike, txCount, leads⟩
  · refine ⟨.trySend (.error (.closed value)), c, q, [], by rw [perform, trySend, ran]; rfl, ?_⟩
    refine .of_leads rfl rfl sound (List.append_nil _) (.refl _ c.chan q) ?_
    rintro _ _ ⟨⟩
    exact ⟨rfl, rfl⟩
  · refine ⟨.trySend (.error (.full value)), c, q, [], by rw [perform, trySend, ran]; rfl, ?_⟩
    exact .of_leads rfl rfl sound (List.append_nil _) (.refl _ c.chan q) (by simp [opened])
  · obtain ⟨e, pushed, keeps', semaphore, txCount', leads'⟩ :=
      Chan.send_spec keeps (sound.opened (sound.sending there)) value
    refine ⟨.trySend (.ok ()), { c with chan := e }, { q with values := q.values ++ [value] }, d.rxWaker.toList, ?_, ?_⟩
    · rw [perform, trySend, ran]
      simp only [bind, Except.bind, pushed]
      rfl
    · refine .of_leads rfl rfl ?_ rfl ((leads _).trans (leads' _)) (by simp [opened])
      exact sound.chan keeps' (semaphore ▸ alike) (txCount'.trans txCount) (by simp [opened])

theorem unboundedSend_performed [Wakers W] (sound : Sound buffer c q) (there : sender ∈ c.senders)
    (unbounded : c.chan.isBounded = false) (value : T) :
    c.Performs buffer q (.unboundedSend sender value) ∨
      c.perform (.unboundedSend sender value) = .error .tooManyMessages ∧ c.chan.rxClosed = false ∧
        c.permits.length + c.ownedPermits + q.values.length = 2 ^ 63 - 1 := by
  rcases Chan.incNumMessages_leads sound.keeps unbounded with
    ⟨closed, ran⟩ | ⟨opened, full, ran⟩ | ⟨opened, d, ran, keeps, alike, txCount, leads⟩
  · left
    refine ⟨.send (.error value), c, q, [], by rw [perform, unboundedSend, ran]; rfl, ?_⟩
    refine .of_leads rfl rfl sound (List.append_nil _) (.refl _ c.chan q) ?_
    rintro _ _ ⟨⟩
    exact ⟨rfl, rfl⟩
  · exact .inr ⟨by rw [perform, unboundedSend, ran]; rfl, opened, full⟩
  · left
    obtain ⟨e, pushed, keeps', semaphore, txCount', leads'⟩ :=
      Chan.send_spec keeps (sound.opened (sound.sending there)) value
    refine ⟨.send (.ok ()), { c with chan := e }, { q with values := q.values ++ [value] }, d.rxWaker.toList, ?_, ?_⟩
    · rw [perform, unboundedSend, ran]
      simp only [bind, Except.bind, pushed]
      rfl
    · refine .of_leads rfl rfl ?_ rfl ((leads _).trans (leads' _)) (by simp [opened])
      exact sound.chan keeps' (semaphore ▸ alike) (txCount'.trans txCount) (by simp [opened])

theorem tryReserve_performed [Wakers W] (sound : Sound buffer c q) (there : sender ∈ c.senders)
    (bounded : c.chan.isBounded = true) : c.Performs buffer q (.tryReserve sender) := by
  rcases Chan.tryAcquire_leads sound.keeps bounded with
    ⟨closed, ran⟩ | ⟨opened, ran⟩ | ⟨opened, d, ran, keeps, alike, txCount, leads⟩
  · refine ⟨.tryReserve (.error (.closed ())), c, q, [], by rw [perform, tryReserve, ran]; rfl, ?_⟩
    refine .of_leads rfl rfl sound (List.append_nil _) (.refl _ c.chan q) ?_
    rintro _ _ ⟨⟩
    exact ⟨rfl, rfl⟩
  · refine ⟨.tryReserve (.error (.full ())), c, q, [], by rw [perform, tryReserve, ran]; rfl, ?_⟩
    exact .of_leads rfl rfl sound (List.append_nil _) (.refl _ c.chan q) (by simp [opened])
  · refine ⟨.tryReserve (.ok ()), { c with chan := d, permits := sender :: c.permits }, q, [], ?_, ?_⟩
    · rw [perform, tryReserve, ran]
      rfl
    · refine .of_leads rfl rfl ?_ (List.append_nil _) (leads _) (by simp [opened])
      exact sound.lend there (bounded_buffer bounded) keeps alike txCount (leads True).rxClosed

theorem tryReserveOwned_performed [Wakers W] (sound : Sound buffer c q) (there : sender ∈ c.senders)
    (bounded : c.chan.isBounded = true) (free : c.borrowed sender = false) :
    c.Performs buffer q (.tryReserveOwned sender) := by
  rcases Chan.tryAcquire_leads sound.keeps bounded with
    ⟨closed, ran⟩ | ⟨opened, ran⟩ | ⟨opened, d, ran, keeps, alike, txCount, leads⟩
  · refine ⟨.tryReserveOwned (.error (.closed sender)), c, q, [], by rw [perform, tryReserveOwned, ran]; rfl, ?_⟩
    refine .of_leads rfl rfl sound (List.append_nil _) (.refl _ c.chan q) ?_
    rintro _ _ ⟨⟩
    exact ⟨rfl, rfl⟩
  · refine ⟨.tryReserveOwned (.error (.full sender)), c, q, [], by rw [perform, tryReserveOwned, ran]; rfl, ?_⟩
    exact .of_leads rfl rfl sound (List.append_nil _) (.refl _ c.chan q) (by simp [opened])
  · refine ⟨.tryReserveOwned (.ok ()),
      { c with chan := d, senders := c.senders.erase sender, ownedPermits := c.ownedPermits + 1 }, q, [], ?_, ?_⟩
    · rw [perform, tryReserveOwned, ran]
      rfl
    · refine .of_leads rfl rfl ?_ (List.append_nil _) (leads _) (by simp [opened])
      obtain ⟨lent, asked⟩ := sound.lent_erase free
      refine { sound with
        keeps := keeps
        kind := alike.buffer.trans sound.kind
        counted := ?_
        lent := lent
        asked := asked
        pending := fun i => (alike.pending i).trans (sound.pending i)
        plain := ?_
        dropped := fun gone => (leads True).rxClosed.trans (sound.dropped gone) }
      · have counted := sound.counted
        have one := erase_length there
        simp only [txCount]
        omega
      · intro none
        rw [← sound.kind] at none
        exact absurd none (bounded_buffer bounded)

end Senders

section Asking

theorem Sound.ask {e : Chan T W} {senders : List Nat} (sound : Sound buffer c q)
    (keeps : e.Keeps q (c.permits.length + c.ownedPermits)) (kind : e.semaphore.buffer = c.chan.semaphore.buffer)
    (fresh : ¬c.chan.semaphore.Pending i) (pending : ∀ j, e.semaphore.Pending j ↔ j = i ∨ c.chan.semaphore.Pending j)
    (txCount : e.txCount = c.chan.txCount) (rxClosed : e.rxClosed = c.chan.rxClosed)
    (counted : senders.length + request.owns.toNat = c.senders.length)
    (lent : ∀ sender ∈ c.permits, sender ∈ senders)
    (asked : ∀ entry ∈ c.requests, ∀ sender, entry.2.sender = some sender → sender ∈ senders)
    (borrows : ∀ sender, request.sender = some sender → sender ∈ senders) :
    Sound buffer { c with chan := e, senders := senders, requests := (i, request) :: c.requests } q := by
  refine { sound with
    keeps := keeps
    kind := kind.trans sound.kind
    counted := ?_
    lent := lent
    asked := ?_
    pending := ?_
    once := ?_
    dropped := fun gone => rxClosed.trans (sound.dropped gone) }
  · have before := sound.counted
    simp only [txCount, List.countP_cons]
    cases owns : request.owns <;> simp only [owns, Bool.toNat_true, Bool.toNat_false] at counted ⊢ <;> simp <;> omega
  · rintro entry (_ | ⟨_, later⟩)
    · exact borrows
    · exact asked entry later
  · intro j
    rw [pending, sound.pending]
    simp
  · refine List.nodup_cons.mpr ⟨?_, sound.once⟩
    rw [← sound.pending]
    exact fresh

theorem ask_spec {senders : List Nat} (request : Request T) (sound : Sound buffer c q) (bounded : c.chan.isBounded = true)
    (counted : senders.length + request.owns.toNat = c.senders.length)
    (lent : ∀ sender ∈ c.permits, sender ∈ senders)
    (asked : ∀ entry ∈ c.requests, ∀ sender, entry.2.sender = some sender → sender ∈ senders)
    (borrows : ∀ sender, request.sender = some sender → sender ∈ senders) :
    ∃ i d, { c with senders := senders }.ask request = .ok (i, d) ∧ Sound buffer d q ∧
      ∀ lost, Chan.Leads lost c.chan q d.chan q [] := by
  obtain ⟨i, e, ran, keeps, fresh, pending, txCount, leads⟩ := Chan.acquire_leads sound.keeps bounded
  refine ⟨i, _, ?_, sound.ask keeps (leads True).buffer fresh pending txCount (leads True).rxClosed counted lent
    asked borrows, leads⟩
  simp only [Channel.ask, ran]
  rfl

variable [Wakers W]

theorem send_performed (sound : Sound buffer c q) (there : sender ∈ c.senders) (bounded : c.chan.isBounded = true)
    (value : T) : c.Performs buffer q (.send sender value) := by
  obtain ⟨i, d, ran, after, leads⟩ := ask_spec (.send sender value) sound bounded rfl sound.lent sound.asked
    (by rintro _ ⟨⟩; exact there)
  refine ⟨.request i, d, q, [], by rw [perform, send, ran]; rfl, ?_⟩
  exact .of_leads rfl rfl after (List.append_nil _) (leads _) (by simp [refusal])

theorem reserve_performed (sound : Sound buffer c q) (there : sender ∈ c.senders) (bounded : c.chan.isBounded = true) :
    c.Performs buffer q (.reserve sender) := by
  obtain ⟨i, d, ran, after, leads⟩ := ask_spec (.reserve sender) sound bounded rfl sound.lent sound.asked
    (by rintro _ ⟨⟩; exact there)
  refine ⟨.request i, d, q, [], by rw [perform, reserve, ran]; rfl, ?_⟩
  exact .of_leads rfl rfl after (List.append_nil _) (leads _) (by simp [refusal])

theorem reserveOwned_performed (sound : Sound buffer c q) (there : sender ∈ c.senders)
    (bounded : c.chan.isBounded = true) (free : c.borrowed sender = false) :
    c.Performs buffer q (.reserveOwned sender) := by
  obtain ⟨lent, asked⟩ := sound.lent_erase free
  obtain ⟨i, d, ran, after, leads⟩ := ask_spec .reserveOwned sound bounded (erase_length there) lent asked
    (by rintro _ ⟨⟩)
  refine ⟨.request i, d, q, [], by rw [perform, reserveOwned, ran]; rfl, ?_⟩
  exact .of_leads rfl rfl after (List.append_nil _) (leads _) (by simp [refusal])

end Asking

section Finishing

theorem Sound.finish {e : Chan T W} {permits : List Nat} {owned : Nat} (sound : Sound buffer c q)
    (found : c.request i = some request) (keeps : e.Keeps r (permits.length + owned))
    (without : c.chan.semaphore.Without i e.semaphore)
    (counted : e.txCount + c.ownedPermits + request.owns.toNat = c.chan.txCount + owned)
    (lent : ∀ sender ∈ permits, sender ∈ c.senders) (rxClosed : e.rxClosed = c.chan.rxClosed) :
    Sound buffer { ({ c with chan := e }.finish i) with permits := permits, ownedPermits := owned } r := by
  have perm := sound.finished found
  have keys := perm.map Prod.fst
  have once := keys.nodup_iff.mp sound.once
  constructor
  · exact keeps
  · exact without.buffer.trans sound.kind
  · have before := sound.counted
    have count := perm.countP_eq fun entry => entry.2.owns
    rw [List.countP_cons] at count
    change e.txCount = c.senders.length + owned + (c.finish i).requests.countP fun entry => entry.2.owns
    cases owns : request.owns <;> simp [owns] at counted count <;> omega
  · exact lent
  · intro entry later
    exact sound.asked entry (perm.mem_iff.mpr (List.mem_cons_of_mem _ later))
  · intro j
    have listed := keys.mem_iff (a := j)
    rw [List.map_cons, List.mem_cons] at listed
    change e.semaphore.Pending j ↔ j ∈ (c.finish i).requests.map Prod.fst
    rw [without.pending, sound.pending, listed]
    constructor
    · rintro ⟨other, same | later⟩
      · exact absurd same other
      · exact later
    · intro later
      refine ⟨?_, .inr later⟩
      rintro rfl
      exact (List.nodup_cons.mp once).1 later
  · exact (List.nodup_cons.mp once).2
  · intro none
    rw [← sound.kind] at none
    exact absurd none (ChanSemaphore.pending_bounded (sound.pending_request found))
  · exact fun gone => rxClosed.trans (sound.dropped gone)

theorem Sound.waiting (sound : Sound buffer c q) (found : c.request i = some request) : 0 < c.chan.txCount := by
  cases asked : request.sender with
  | some sender => exact sound.sending (sound.asked _ (request_mem found) sender asked)
  | none =>
    have owns : request.owns = true := by cases request <;> simp_all [Request.sender, Request.owns]
    have some := List.countP_pos_iff (p := fun entry : Nat × Request T => entry.2.owns).mpr ⟨_, request_mem found, owns⟩
    rw [sound.counted]
    omega

theorem silent_leads {call : Call T W} {e : Chan T W} (calls : (∃ w, call = .poll i w) ∨ call = .dropRequest i)
    (found : c.request i = some request)
    (leads : Chan.Leads (c.chan.rxClosed = true ∧ c.chan.semaphore.lastOut = true ∧ c.chan.semaphore.share i = 1)
      c.chan q e r wakers)
    (woken : request.owns = true → c.chan.txCount = 1 → e.rxWaker = none) :
    Chan.Leads (c.silent call = true) c.chan q e r wakers := by
  apply leads.weaken
  rintro ⟨closed, last, share⟩
  cases stored : c.chan.rxWaker with
  | none =>
    right
    rcases leads.waker with same | ⟨none, _⟩
    · rw [same, stored]
    · exact none
  | some waker =>
    by_cases alone : request.owns = true ∧ c.chan.txCount = 1
    · exact .inr (woken alone.1 alone.2)
    · left
      have quiet : (request.owns && c.chan.txCount == 1) = false := by simpa using alone
      rcases calls with ⟨w, rfl⟩ | rfl <;>
        simp only [silent, closed, stored, last, share, found, Option.any_some, quiet] <;> rfl

variable [Wakers W]

theorem dropRequest_performed (sound : Sound buffer c q) (found : c.request i = some request) :
    c.Performs buffer q (.dropRequest i) := by
  have pending := sound.pending_request found
  obtain ⟨d, wakers, ran, keeps, without, txCount, leads⟩ := Chan.dropAcquire_leads sound.keeps pending
  cases request with
  | reserve sender | send sender value =>
    refine ⟨.unit, { c with chan := d }.finish i, q, wakers, ?_, ?_⟩
    · simp only [perform, found, dropRequest, ran, bind, Except.bind]
      rfl
    · refine .of_leads rfl rfl ?_ (by simp [sent]) (silent_leads (.inr rfl) found leads nofun) (by simp [refusal])
      exact sound.finish found keeps without (by rw [txCount]; rfl) sound.lent leads.rxClosed
  | reserveOwned =>
    have some := sound.waiting found
    obtain ⟨e, more, dropped, keeps', semaphore, txCount', woken, leads'⟩ := Chan.dropTx_spec keeps (by omega)
    have both := leads.trans (leads' _)
    refine ⟨.unit, { c with chan := e }.finish i, d.less q, wakers ++ more, ?_, ?_⟩
    · simp only [perform, found, dropRequest, ran, bind, Except.bind, dropped]
      rfl
    · refine .of_leads rfl rfl ?_ (by simp [sent, Chan.less_values])
        (silent_leads (.inr rfl) found both fun _ one => woken (txCount.trans one)) (by simp [refusal])
      refine sound.finish found keeps' (semaphore ▸ without) ?_ sound.lent both.rxClosed
      simp only [Request.owns, Bool.toNat_true]
      omega

theorem poll_performed (sound : Sound buffer c q) (found : c.request i = some request) (waker : W) :
    c.Performs buffer q (.poll i waker) := by
  have pending := sound.pending_request found
  have some := sound.waiting found
  rcases Chan.pollAcquire_leads sound.keeps pending waker with
    ⟨opened, d, ran, keeps, alike, txCount, leads⟩ | ⟨opened, d, ran, keeps, without, txCount, leads⟩ |
    ⟨closed, d, ran, keeps, without, txCount, leads⟩
  · refine ⟨.pending, { c with chan := d }, q, [], ?_, ?_⟩
    · simp only [perform, found, poll, ran, bind, Except.bind]
      rfl
    · refine .of_leads rfl rfl ?_ (by simp [sent]) (leads _) (by simp [opened])
      exact sound.chan keeps alike txCount (by simp [opened])
  · cases request with
    | reserve sender =>
      refine ⟨.reserve (.ok ()), { ({ c with chan := d }.finish i) with permits := sender :: c.permits }, q, [], ?_, ?_⟩
      · simp only [perform, found, poll, ran, bind, Except.bind, resume]
        rfl
      · refine .of_leads rfl rfl ?_ (by simp [sent]) (leads _) (by simp [opened])
        refine sound.finish found ?_ without (by rw [txCount]; rfl) ?_ (leads True).rxClosed
        · rw [List.length_cons, Nat.add_right_comm]
          exact keeps
        · rintro other (_ | ⟨_, later⟩)
          · exact sound.asked _ (request_mem found) _ rfl
          · exact sound.lent other later
    | reserveOwned =>
      refine ⟨.reserveOwned (.ok ()), { ({ c with chan := d }.finish i) with ownedPermits := c.ownedPermits + 1 }, q, [], ?_, ?_⟩
      · simp only [perform, found, poll, ran, bind, Except.bind, resume]
        rfl
      · refine .of_leads rfl rfl ?_ (by simp [sent]) (leads _) (by simp [opened])
        refine sound.finish found keeps without ?_ sound.lent (leads True).rxClosed
        simp only [Request.owns, Bool.toNat_true]
        omega
    | send sender value =>
      obtain ⟨e, pushed, keeps', semaphore, txCount', leads'⟩ := Chan.send_spec keeps (sound.opened some) value
      refine ⟨.send (.ok ()), { c with chan := e }.finish i, { q with values := q.values ++ [value] }, d.rxWaker.toList, ?_, ?_⟩
      · simp only [perform, found, poll, ran, bind, Except.bind, resume, finish, pushed]
        rfl
      · refine .of_leads rfl rfl ?_ ?_ ((leads _).trans (leads' _)) (by simp [opened])
        · exact sound.finish found keeps' (semaphore ▸ without) (by rw [txCount', txCount]; rfl) sound.lent
            ((leads' True).rxClosed.trans (leads True).rxClosed)
        · simp [sent, found]
  · cases request with
    | reserve sender =>
      refine ⟨.reserve (.error ()), { c with chan := d }.finish i, q, [], ?_, ?_⟩
      · simp only [perform, found, poll, ran, bind, Except.bind, resume]
        rfl
      · refine .of_leads rfl rfl ?_ (by simp [sent]) (silent_leads (.inl ⟨waker, rfl⟩) found leads nofun) ?_
        · exact sound.finish found keeps without (by rw [txCount]; rfl) sound.lent leads.rxClosed
        · simp [refusal, found, finish]
    | reserveOwned =>
      obtain ⟨e, more, dropped, keeps', semaphore, txCount', woken, leads'⟩ := Chan.dropTx_spec keeps (by omega)
      have both := leads.trans (leads' _)
      refine ⟨.reserveOwned (.error ()), { c with chan := e }.finish i, d.less q, more, ?_, ?_⟩
      · simp only [perform, found, poll, ran, bind, Except.bind, resume, finish, dropped]
        rfl
      · refine .of_leads rfl rfl ?_ (by simp [sent, Chan.less_values])
          (silent_leads (.inl ⟨waker, rfl⟩) found both fun _ one => woken (txCount.trans one)) (by simp [refusal, found, finish])
        refine sound.finish found keeps' (semaphore ▸ without) ?_ sound.lent both.rxClosed
        simp only [Request.owns, Bool.toNat_true]
        omega
    | send sender value =>
      refine ⟨.send (.error value), { c with chan := d }.finish i, q, [], ?_, ?_⟩
      · simp only [perform, found, poll, ran, bind, Except.bind, resume]
        rfl
      · refine .of_leads rfl rfl ?_ (by simp [sent]) (silent_leads (.inl ⟨waker, rfl⟩) found leads nofun) ?_
        · exact sound.finish found keeps without (by rw [txCount]; rfl) sound.lent leads.rxClosed
        · simp [refusal, found, finish]

end Finishing

section Permits

theorem one_permit (there : sender ∈ c.permits) :
    c.permits.length + c.ownedPermits = (c.permits.erase sender).length + c.ownedPermits + 1 := by
  have some := List.length_pos_of_mem there
  rw [List.length_erase_of_mem there]
  omega

theorem Sound.spend {e : Chan T W} (sound : Sound buffer c q)
    (keeps : e.Keeps r ((c.permits.erase sender).length + c.ownedPermits))
    (alike : c.chan.semaphore.Alike e.semaphore) (txCount : e.txCount = c.chan.txCount)
    (rxClosed : e.rxClosed = c.chan.rxClosed) :
    Sound buffer { c with chan := e, permits := c.permits.erase sender } r := by
  refine { sound with
    keeps := keeps
    kind := alike.buffer.trans sound.kind
    counted := txCount.trans sound.counted
    lent := fun other member => sound.lent other (List.mem_of_mem_erase member)
    pending := fun i => (alike.pending i).trans (sound.pending i)
    plain := ?_
    dropped := fun gone => rxClosed.trans (sound.dropped gone) }
  intro none
  obtain ⟨permits, owned⟩ := sound.plain none
  refine ⟨?_, owned⟩
  simp [permits]

theorem Sound.unwrap {e : Chan T W} (sound : Sound buffer c q) (some : 0 < c.ownedPermits)
    (keeps : e.Keeps r (c.permits.length + (c.ownedPermits - 1)))
    (alike : c.chan.semaphore.Alike e.semaphore) (txCount : e.txCount = c.chan.txCount)
    (rxClosed : e.rxClosed = c.chan.rxClosed) : Sound buffer { c with chan := e }.unwrapPermit r := by
  refine { sound with
    keeps := keeps
    kind := alike.buffer.trans sound.kind
    counted := ?_
    lent := fun other member => List.mem_cons_of_mem _ (sound.lent other member)
    asked := fun entry member other borrows => List.mem_cons_of_mem _ (sound.asked entry member other borrows)
    pending := fun i => (alike.pending i).trans (sound.pending i)
    plain := ?_
    dropped := fun gone => rxClosed.trans (sound.dropped gone) }
  · have counted := sound.counted
    simp only [unwrapPermit, txCount, List.length_cons]
    omega
  · intro none
    obtain ⟨_, owned⟩ := sound.plain none
    omega

theorem Sound.owner (sound : Sound buffer c q) (some : 0 < c.ownedPermits) :
    0 < c.chan.txCount ∧ c.permits.length + c.ownedPermits = c.permits.length + (c.ownedPermits - 1) + 1 := by
  have counted := sound.counted
  omega

theorem Sound.owner_bounded (sound : Sound buffer c q) (some : 0 < c.ownedPermits) :
    c.chan.semaphore.buffer ≠ none := by
  rw [sound.kind]
  intro none
  obtain ⟨_, owned⟩ := sound.plain none
  omega

variable [Wakers W]

theorem permitSend_performed (sound : Sound buffer c q) (there : sender ∈ c.permits) (value : T) :
    c.Performs buffer q (.permitSend sender value) := by
  have keeps := sound.keeps
  rw [one_permit there] at keeps
  obtain ⟨e, pushed, keeps', semaphore, txCount, leads⟩ :=
    Chan.send_spec keeps (sound.opened (sound.sending (sound.lent sender there))) value
  refine ⟨.unit, { c with chan := e, permits := c.permits.erase sender }, { q with values := q.values ++ [value] },
    c.chan.rxWaker.toList, by rw [perform, permitSend, pushed]; rfl, ?_⟩
  refine .of_leads rfl rfl ?_ rfl (leads _) (by simp [refusal])
  exact sound.spend keeps' (semaphore ▸ .refl _) txCount (leads True).rxClosed

theorem permitDrop_performed (sound : Sound buffer c q) (there : sender ∈ c.permits) :
    c.Performs buffer q (.permitDrop sender) := by
  have keeps := sound.keeps
  rw [one_permit there] at keeps
  obtain ⟨e, wakers, ran, keeps', alike, txCount, leads⟩ := Chan.dropPermit_spec keeps
  refine ⟨.unit, { c with chan := e, permits := c.permits.erase sender }, q, wakers,
    by rw [perform, permitDrop, ran]; rfl, ?_⟩
  refine .of_leads rfl rfl ?_ (List.append_nil _) (leads _) (by simp [refusal])
  exact sound.spend keeps' alike txCount (leads True).rxClosed

theorem ownedPermitSend_performed (sound : Sound buffer c q) (some : 0 < c.ownedPermits) (value : T) :
    c.Performs buffer q (.ownedPermitSend value) := by
  obtain ⟨sending, one⟩ := sound.owner some
  have keeps := sound.keeps
  rw [one] at keeps
  obtain ⟨e, pushed, keeps', semaphore, txCount, leads⟩ := Chan.send_spec keeps (sound.opened sending) value
  refine ⟨.sender c.made, { c with chan := e }.unwrapPermit, { q with values := q.values ++ [value] },
    c.chan.rxWaker.toList, by rw [perform, ownedPermitSend, pushed]; rfl, ?_⟩
  refine .of_leads rfl rfl ?_ rfl (leads _) (by simp [refusal])
  exact sound.unwrap some keeps' (semaphore ▸ .refl _) txCount (leads True).rxClosed

theorem ownedPermitRelease_performed (sound : Sound buffer c q) (some : 0 < c.ownedPermits) :
    c.Performs buffer q .ownedPermitRelease := by
  obtain ⟨sending, one⟩ := sound.owner some
  have keeps := sound.keeps
  rw [one] at keeps
  obtain ⟨e, wakers, ran, keeps', alike, txCount, leads⟩ := Chan.addPermit_leads keeps (sound.owner_bounded some)
  refine ⟨.sender c.made, { c with chan := e }.unwrapPermit, q, wakers, by rw [perform, ownedPermitRelease, ran]; rfl, ?_⟩
  refine .of_leads rfl rfl ?_ (List.append_nil _) ?_ (by simp [refusal])
  · exact sound.unwrap some keeps' alike txCount leads.rxClosed
  · apply leads.weaken
    rintro ⟨closed, last⟩
    cases stored : c.chan.rxWaker with
    | none =>
      right
      rcases leads.waker with same | ⟨none, _⟩
      · exact same.trans stored
      · exact none
    | some waker => exact .inl (by simp [silent, closed, stored, last])

theorem ownedPermitDrop_performed (sound : Sound buffer c q) (some : 0 < c.ownedPermits) :
    c.Performs buffer q .ownedPermitDrop := by
  obtain ⟨sending, one⟩ := sound.owner some
  have keeps := sound.keeps
  rw [one] at keeps
  obtain ⟨d, wakers, ran, keeps', alike, txCount, leads⟩ := Chan.dropPermit_spec keeps
  obtain ⟨e, more, dropped, keeps'', semaphore, txCount', _, leads'⟩ := Chan.dropTx_spec keeps' (by omega)
  refine ⟨.unit, { c with chan := e, ownedPermits := c.ownedPermits - 1 }, d.less q, wakers ++ more, ?_, ?_⟩
  · simp only [perform, ownedPermitDrop, ran, bind, Except.bind, dropped]
    rfl
  · refine .of_leads rfl rfl ?_ (by simp [sent, Chan.less_values]) ((leads _).trans (leads' _)) (by simp [refusal])
    refine { sound with keeps := keeps'', kind := ?_, counted := ?_, pending := ?_, plain := ?_, dropped := ?_ }
    · rw [semaphore, alike.buffer, sound.kind]
    · have counted := sound.counted
      simp only [txCount']
      omega
    · intro i
      simp only [semaphore, alike.pending, sound.pending]
    · intro none
      obtain ⟨_, owned⟩ := sound.plain none
      omega
    · intro gone
      rw [(leads' True).rxClosed, (leads True).rxClosed]
      exact sound.dropped gone

end Permits

section Receiving

variable [Wakers W]

theorem recv_performed (sound : Sound buffer c q) (waker : W) : c.Performs buffer q (.recv waker) := by
  obtain ⟨d, wakers, ran, keeps, takes, rxClosed, pending⟩ := Chan.recv_spec sound.keeps sound.idle waker
  refine ⟨.recv (c.chan.answer q), { c with chan := d }, q.pop.2, wakers, by rw [perform, ran]; rfl, ?_⟩
  refine .of_takes rfl ?_ ?_ takes (by simp [rxClosed, Call.closes]) (fun other => absurd rfl (other waker)) ?_
  · exact sound.chan keeps takes.alike takes.txCount (by simp [rxClosed])
  · unfold Chan.answer
    cases values : q.values with
    | nil =>
      rw [Chan.pop_nil values]
      simp only [values]
      split <;> rfl
    | cons value rest =>
      rw [Chan.pop_cons values]
      rfl
  · rintro _ ⟨⟩
    exact ⟨rfl, pending⟩

theorem tryRecv_performed (sound : Sound buffer c q) : c.Performs buffer q .tryRecv := by
  obtain ⟨d, wakers, ran, keeps, takes, rxClosed, rxWaker⟩ := Chan.tryRecv_spec sound.keeps
  refine ⟨.tryRecv (Chan.tryAnswer q), { c with chan := d }, q.pop.2, wakers, by rw [perform, ran]; rfl, ?_⟩
  refine .of_takes rfl ?_ ?_ takes (by simp [rxClosed, Call.closes]) (fun _ => rxWaker) (by rintro _ ⟨⟩)
  · exact sound.chan keeps takes.alike takes.txCount (by simp [rxClosed])
  · unfold Chan.tryAnswer
    cases values : q.values with
    | nil =>
      rw [Chan.pop_nil values]
      cases q.closed <;> simp [Reply.taken, values]
    | cons value rest =>
      rw [Chan.pop_cons values]
      rfl

theorem close_performed (sound : Sound buffer c q) : c.Performs buffer q .close := by
  obtain ⟨keeps, takes, rxClosed, rxWaker, _⟩ := Chan.close_keeps sound.keeps
  refine ⟨.unit, { c with chan := c.chan.close.1 }, q, c.chan.close.2, rfl, ?_⟩
  refine .of_takes rfl ?_ rfl takes (by simp [rxClosed, Call.closes]) (fun _ => rxWaker) (by rintro _ ⟨⟩)
  exact sound.chan keeps takes.alike takes.txCount (by simp [rxClosed])

theorem dropReceiver_performed (sound : Sound buffer c q) : c.Performs buffer q .dropReceiver := by
  obtain ⟨d, wakers, ran, keeps, takes, rxClosed, rxWaker⟩ := Chan.dropRx_spec sound.keeps
  refine ⟨.dropped q.values, { c with chan := d, receiver := false }, { q with values := [] }, wakers,
    by rw [perform, ran]; rfl, ?_⟩
  refine .of_takes rfl ?_ (List.append_nil _).symm takes (by simp [rxClosed, Call.closes]) (fun _ => rxWaker)
    (by rintro _ ⟨⟩)
  exact { sound.chan keeps takes.alike takes.txCount (by simp [rxClosed]) with dropped := fun _ => rxClosed }

end Receiving

section Steps

variable [Wakers W]

theorem perform_performed {call : Call T W} (sound : Sound buffer c q) (allowed : c.allowed call = true) :
    c.Performs buffer q call ∨
      (∃ sender value, call = .unboundedSend sender value) ∧ c.perform call = .error .tooManyMessages ∧
        c.chan.rxClosed = false ∧ c.permits.length + c.ownedPermits + q.values.length = 2 ^ 63 - 1 := by
  cases call with
  | clone sender => exact .inl (clone_performed sound (by simpa [Channel.allowed] using allowed))
  | dropSender sender =>
    obtain ⟨there, free⟩ : sender ∈ c.senders ∧ c.borrowed sender = false := by simpa [Channel.allowed] using allowed
    exact .inl (dropSender_performed sound there free)
  | unboundedSend sender value =>
    obtain ⟨there, unbounded⟩ : sender ∈ c.senders ∧ c.chan.isBounded = false := by simpa [Channel.allowed] using allowed
    rcases unboundedSend_performed sound there unbounded value with performs | full
    · exact .inl performs
    · exact .inr ⟨⟨sender, value, rfl⟩, full⟩
  | trySend sender value =>
    obtain ⟨there, bounded⟩ : sender ∈ c.senders ∧ c.chan.isBounded = true := by simpa [Channel.allowed] using allowed
    exact .inl (trySend_performed sound there bounded value)
  | tryReserve sender =>
    obtain ⟨there, bounded⟩ : sender ∈ c.senders ∧ c.chan.isBounded = true := by simpa [Channel.allowed] using allowed
    exact .inl (tryReserve_performed sound there bounded)
  | tryReserveOwned sender =>
    obtain ⟨⟨there, bounded⟩, free⟩ : (sender ∈ c.senders ∧ c.chan.isBounded = true) ∧ c.borrowed sender = false := by
      simpa [Channel.allowed] using allowed
    exact .inl (tryReserveOwned_performed sound there bounded free)
  | send sender value =>
    obtain ⟨there, bounded⟩ : sender ∈ c.senders ∧ c.chan.isBounded = true := by simpa [Channel.allowed] using allowed
    exact .inl (send_performed sound there bounded value)
  | reserve sender =>
    obtain ⟨there, bounded⟩ : sender ∈ c.senders ∧ c.chan.isBounded = true := by simpa [Channel.allowed] using allowed
    exact .inl (reserve_performed sound there bounded)
  | reserveOwned sender =>
    obtain ⟨⟨there, bounded⟩, free⟩ : (sender ∈ c.senders ∧ c.chan.isBounded = true) ∧ c.borrowed sender = false := by
      simpa [Channel.allowed] using allowed
    exact .inl (reserveOwned_performed sound there bounded free)
  | poll i waker =>
    obtain ⟨request, found⟩ := Option.isSome_iff_exists.mp allowed
    exact .inl (poll_performed sound found waker)
  | dropRequest i =>
    obtain ⟨request, found⟩ := Option.isSome_iff_exists.mp allowed
    exact .inl (dropRequest_performed sound found)
  | permitSend sender value =>
    exact .inl (permitSend_performed sound (by simpa [Channel.allowed] using allowed) value)
  | permitDrop sender => exact .inl (permitDrop_performed sound (by simpa [Channel.allowed] using allowed))
  | ownedPermitSend value => exact .inl (ownedPermitSend_performed sound (of_decide_eq_true allowed) value)
  | ownedPermitRelease => exact .inl (ownedPermitRelease_performed sound (of_decide_eq_true allowed))
  | ownedPermitDrop => exact .inl (ownedPermitDrop_performed sound (of_decide_eq_true allowed))
  | recv waker => exact .inl (recv_performed sound waker)
  | tryRecv => exact .inl (tryRecv_performed sound)
  | close => exact .inl (close_performed sound)
  | dropReceiver => exact .inl (dropReceiver_performed sound)

end Steps

end Channel

end Osaka.Sync.Mpsc
