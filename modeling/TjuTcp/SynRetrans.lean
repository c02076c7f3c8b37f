/-
  The thread that maintains the half-open queue (src/syn.c).

  `syn_retrans_thread` goes through the slots in a loop that sets its index to
  0 in the last slot, in front of the increment; `roundAt n` is the slot of
  round `n`.  `Rounds` is the thread among the other threads, which perform any
  locked operations between two rounds.

  * `roundAt_succ`: the slots of the rounds are 0, and then 1 to 31 over and over;
  * `round_isSome`: no round reads outside of a packet;
  * `slot_zero_stays`: an element that is in slot 0 behind the first round is
    neither sent again nor dropped;
  * `Rounds.drops`: an element in any other slot is dropped, if nobody takes it;
  * `synRetrans_serves`: which slots are served, for the rounds and the elements;
  * `handleListen_reach`: what the handler in LISTEN does are operations of the
    queues.
-/
import TjuTcp.Counters

namespace Tju

open Lib

/-! ## The loop -/

/-- The index behind a round: `if (i==MAX_SOCK-1) i=0;`, and then `i++`. -/
def nextIndex (i : ℕ) : ℕ := (if i = maxSock - 1 then 0 else i) + 1

/-- The slot of round `n`.  `none` if the loop has been left. -/
def roundAt : ℕ → Option ℕ
  | 0 => some 0
  | n + 1 => (roundAt n).bind fun i => if nextIndex i < maxSock then some (nextIndex i) else none

/-- **The slots of the rounds.**  The loop is never left, and its first round is the only one on
    slot 0. -/
theorem roundAt_succ (n : ℕ) : roundAt (n + 1) = some (n % 31 + 1) := by
  induction n with
  | zero => rfl
  | succ n ih =>
    have hnext : nextIndex (n % 31 + 1) = (n + 1) % 31 + 1 := by
      unfold nextIndex
      rw [maxSock]
      split_ifs with h <;> omega
    have hlt : (n + 1) % 31 + 1 < maxSock := by
      rw [maxSock]
      omega
    rw [roundAt, ih, Option.bind_some, hnext, if_pos hlt]

theorem roundAt_lt {n i : ℕ} (h : roundAt n = some i) : i < maxSock := by
  cases n with
  | zero =>
    cases h
    decide
  | succ n =>
    rw [roundAt_succ] at h
    cases h
    rw [maxSock]
    omega

/-- Every slot but 0 has its round among any 31. -/
theorem roundAt_visits {j : ℕ} (hj : j < maxSock) (h0 : j ≠ 0) (k : ℕ) :
    ∃ n, k < n ∧ n ≤ k + 31 ∧ roundAt n = some j := by
  rw [maxSock] at hj
  refine ⟨k + (j + 30 - k % 31) % 31 + 1, by omega, by omega, ?_⟩
  rw [roundAt_succ, Option.some.injEq]
  omega

theorem roundAt_eq_zero_iff {n : ℕ} : roundAt n = some 0 ↔ n = 0 := by
  cases n with
  | zero => exact iff_of_true rfl rfl
  | succ n =>
    refine iff_of_false (fun h => ?_) n.succ_ne_zero
    rw [roundAt_succ] at h
    cases h

/-- **The rounds among 2 * MAX_SOCK** in a row, from round `k` on, visit every slot but 0, and that
    one only from the start. -/
theorem visited_iff {j : ℕ} (hj : j < maxSock) (k : ℕ) :
    (∃ n, k ≤ n ∧ n < k + 2 * maxSock ∧ roundAt n = some j) ↔ j ≠ 0 ∨ k = 0 := by
  constructor
  · rintro ⟨n, hk, -, hn⟩
    rcases eq_or_ne j 0 with rfl | h0
    · rw [roundAt_eq_zero_iff] at hn
      omega
    · exact Or.inl h0
  · rintro (h0 | rfl)
    · obtain ⟨n, hk, hle, hn⟩ := roundAt_visits hj h0 k
      refine ⟨n, by omega, ?_, hn⟩
      rw [maxSock]
      omega
    · rcases eq_or_ne j 0 with rfl | h0
      · exact ⟨0, le_rfl, by decide, rfl⟩
      · obtain ⟨n, hk, hle, hn⟩ := roundAt_visits hj h0 0
        refine ⟨n, by omega, ?_, hn⟩
        rw [maxSock]
        omega

/-! ## The thread among the others -/

/-- The operations of the other threads. -/
def Others (_ : Queues) : QueueEv → Prop
  | .synRetrans _ _ _ => False
  | _ => True

/-- The operations of the other threads that do not take an element out of slot `j`. -/
def SparesSlot (j : ℤ) (_ : Queues) : QueueEv → Prop
  | .synRetrans _ _ _ => False
  | .getFromSyn pkt => packetHash pkt ≠ j
  | _ => True

/-- Round `n` finds the queues `q n` and leaves them as `after n`, with the readings `now n` and
    `sent n` of the clock; the other threads take turns with the rounds. -/
structure Rounds (now sent : ℕ → ℕ) (q after : ℕ → Queues) : Prop where
  start : ReachBy queueStep Others initQueue (q 0)
  round : ∀ n, ∃ i, roundAt n = some i ∧
    queueStep (q n) (.synRetrans (now n) (sent n) i) = some (after n)
  others : ∀ n, ReachBy queueStep Others (after n) (q (n + 1))

/-- The clock goes past every time. -/
def Advances (now : ℕ → ℕ) : Prop := ∀ t, ∃ m, ∀ n, m ≤ n → t ≤ now n

/-- From round `k` on nobody takes an element out of slot `j`, up to the rounds. -/
def Untaken (q after : ℕ → Queues) (k : ℕ) (j : ℤ) : Prop :=
  ∀ n, k ≤ n → ReachBy queueStep (SparesSlot j) (after n) (q (n + 1))

variable {q q' : Queues} {e : QueueEv} {i j : ℤ}

/-- The element in a slot that is taken stays, up to the rounds and to `get_from_syn`. -/
theorem spares_slot (hs : (q.synQueue j).sock.isSome) (hj : SparesSlot j q e)
    (he : queueStep q e = some q') : q'.synQueue j = q.synQueue j := by
  have hm := queueStep_elem he j
  generalize q'.synQueue j = y at hm ⊢
  cases hm with
  | keeps => rfl
  | puts hi hnone =>
    rw [hnone] at hs
    cases hs
  | takes hi => exact absurd hi hj
  | sends => exact hj.elim
  | drops => exact hj.elim

theorem spares_run (hs : (q.synQueue j).sock.isSome) (h : ReachBy queueStep (SparesSlot j) q q') :
    q'.synQueue j = q.synQueue j := by
  refine h.inv (I := fun t => t.synQueue j = q.synQueue j) rfl fun t e t' ht hj he => ?_
  rw [spares_slot (by rw [ht]; exact hs) hj he, ht]

/-! ## What a round does to a slot -/

variable {now sent : ℕ}

theorem round_other (hne : j ≠ i) (he : queueStep q (.synRetrans now sent i) = some q') :
    q'.synQueue j = q.synQueue j := by
  have hm := queueStep_elem he j
  generalize q'.synQueue j = y at hm ⊢
  cases hm with
  | keeps => rfl
  | sends => exact absurd rfl hne
  | drops => exact absurd rfl hne

/-- A round changes an element that is due. -/
theorem round_due (he : queueStep q (.synRetrans now sent i) = some q')
    (hs : (q.synQueue i).sock.isSome) (hdue : (q.synQueue i).lastAckTime + clocksPerSec ≤ now) :
    (q'.synQueue i).remands + 1 = (q.synQueue i).remands ∨ (q'.synQueue i).sock = none := by
  simp only [queueStep] at he
  split_ifs at he with hi
  obtain ⟨r, hr, rfl⟩ := Option.map_eq_some_iff.1 he
  have hold : (now - (q.synQueue i).lastAckTime) / clocksPerSec ≥ 1 := by
    rw [ge_iff_le, Nat.one_le_div_iff (by decide)]
    omega
  unfold synRetransRound at hr
  simp only [if_pos hs, if_pos hold] at hr
  split_ifs at hr with hrem
  · obtain ⟨pkt, -, hr⟩ := Option.bind_eq_some_iff.1 hr
    obtain ⟨p, -, hr⟩ := Option.bind_eq_some_iff.1 hr
    cases hr
    left
    simp only [Function.update_self]
    exact BitVec.sub_add_cancel _ _
  · cases hr
    right
    simp only [Function.update_self]

/-! ## No round fails -/

/-- Every half-open element has a packet that a round can read. -/
def Sendable (q : Queues) : Prop :=
  ∀ i, (q.synQueue i).sock.isSome →
    ∃ pkt, (q.synQueue i).packetSynAck = some pkt ∧ defaultHeaderLen.toNat ≤ pkt.length

/-- A half-open socket comes with a packet that has a header. -/
def FullPacket (_ : Queues) : QueueEv → Prop
  | .enSynQueue _ _ pkt => defaultHeaderLen.toNat ≤ pkt.length
  | _ => True

/-- The operations that the server performs on its queues. -/
def ServerOps (q : Queues) (e : QueueEv) : Prop := Others q e ∧ FullPacket q e

theorem Sendable.step (h : Sendable q) (hG : FullPacket q e) (he : queueStep q e = some q') :
    Sendable q' := by
  intro j hs
  have hm := queueStep_elem he j
  have hold := h j
  generalize q'.synQueue j = y at hm hs ⊢
  cases hm with
  | keeps => exact hold hs
  | puts => exact ⟨_, rfl, hG⟩
  | takes => cases hs
  | sends hx => exact hold hx
  | drops => cases hs

theorem Sendable.round (h : Sendable q) (hi : InTable i) (now sent : ℕ) :
    ∃ q', queueStep q (.synRetrans now sent i) = some q' := by
  rw [← Option.isSome_iff_exists, queueStep, if_pos hi, Option.isSome_map]
  unfold synRetransRound
  dsimp only
  split_ifs with hs hr ht
  · obtain ⟨pkt, hpkt, hlen⟩ := h i hs
    rw [hpkt]
    unfold load?
    rw [Option.bind_eq_bind, Option.bind_some, if_pos (by omega)]
    rfl
  · rfl
  · rfl
  · rfl

theorem sendable_reach (h : ReachBy queueStep FullPacket initQueue q) : Sendable q :=
  h.inv (fun i hs => by cases hs) fun _ _ _ hq hG he => hq.step hG he

/-- **No round reads outside of a packet**, in any run in which the packets have their header. -/
theorem round_isSome (h : ReachBy queueStep FullPacket initQueue q) (hi : InTable i)
    (now sent : ℕ) : ∃ q', queueStep q (.synRetrans now sent i) = some q' :=
  (sendable_reach h).round hi now sent

theorem synAckPacket_full (pkt : Buf) : defaultHeaderLen.toNat ≤ (synAckPacket pkt).length := by
  rw [synAckPacket_eq, wire_length]
  decide

/-- The queues before round `n` of the thread on its own. -/
def roundQueue (now sent : ℕ → ℕ) (q : Queues) : ℕ → Queues
  | 0 => q
  | n + 1 => ((roundAt n).bind fun i =>
      queueStep (roundQueue now sent q n) (.synRetrans (now n) (sent n) i)).getD
        (roundQueue now sent q n)

theorem roundQueue_succ {q : Queues} {now sent : ℕ → ℕ} {n i : ℕ}
    (h : Sendable (roundQueue now sent q n)) (hi : roundAt n = some i) :
    queueStep (roundQueue now sent q n) (.synRetrans (now n) (sent n) i) =
      some (roundQueue now sent q (n + 1)) := by
  obtain ⟨q', hq⟩ := h.round (i := i) ⟨by omega, by exact_mod_cast roundAt_lt hi⟩ (now n) (sent n)
  rw [roundQueue, hi, Option.bind_some, hq, Option.getD_some]

/-- The thread on its own goes on for ever. -/
theorem rounds_alone (now sent : ℕ → ℕ)
    (h : ReachBy queueStep ServerOps initQueue q) :
    Rounds now sent (roundQueue now sent q) fun n => roundQueue now sent q (n + 1) := by
  have hindex : ∀ n, ∃ i, roundAt n = some i := by
    intro n
    cases n with
    | zero => exact ⟨0, rfl⟩
    | succ n => exact ⟨_, roundAt_succ n⟩
  have hsend : ∀ n, Sendable (roundQueue now sent q n) := by
    intro n
    induction n with
    | zero => exact sendable_reach (h.weaken fun _ _ hG => hG.2)
    | succ n ih =>
      obtain ⟨i, hi⟩ := hindex n
      refine ih.step ?_ (roundQueue_succ ih hi)
      trivial
  refine ⟨h.weaken fun _ _ hG => hG.1, fun n => ?_, fun n => ReachBy.refl⟩
  obtain ⟨i, hi⟩ := hindex n
  exact ⟨i, hi, roundQueue_succ (hsend n) hi⟩

/-! ## Elements over the rounds -/

section

variable {now sent : ℕ → ℕ} {q after : ℕ → Queues} {k n : ℕ} {j : ℤ}

/-- Before the first round no element has lost a transmission. -/
theorem Rounds.fresh (h : Rounds now sent q after) (hs : ((q 0).synQueue j).sock.isSome) :
    ((q 0).synQueue j).remands = synDefaultRemands := by
  refine h.start.inv (I := fun t => (t.synQueue j).sock.isSome → (t.synQueue j).remands =
    synDefaultRemands) (fun h => by cases h) ?_ hs
  intro t e t' ht ho he
  have hm := queueStep_elem he j
  generalize t'.synQueue j = y at hm ⊢
  cases hm with
  | keeps => exact ht
  | puts => exact fun _ => rfl
  | takes => exact fun hs => by cases hs
  | sends => exact ho.elim
  | drops => exact ho.elim

/-- Round `n` keeps an element, sends it again, or drops it. -/
theorem Rounds.served (h : Rounds now sent q after) (n : ℕ) (j : ℤ) :
    (after n).synQueue j = (q n).synQueue j ∨
      (0 < ((q n).synQueue j).remands ∧ (after n).synQueue j =
        { (q n).synQueue j with
          lastAckTime := sent n, remands := ((q n).synQueue j).remands - 1 }) ∨
      ((q n).synQueue j).remands = 0 ∧ ((after n).synQueue j).sock = none := by
  obtain ⟨i, -, he⟩ := h.round n
  have hm := queueStep_elem he j
  generalize (after n).synQueue j = y at hm ⊢
  cases hm with
  | keeps => exact Or.inl rfl
  | sends hs hr => exact Or.inr (Or.inl ⟨hr, rfl⟩)
  | drops hs hr => exact Or.inr (Or.inr ⟨hr, rfl⟩)

/-- Round `n` leaves slot 0 alone, unless it is the first one. -/
theorem Rounds.slot_zero (h : Rounds now sent q after) (hn : n ≠ 0) :
    (after n).synQueue 0 = (q n).synQueue 0 := by
  obtain ⟨i, hi, he⟩ := h.round n
  refine round_other ?_ he
  rintro h0
  obtain rfl : i = 0 := by exact_mod_cast h0.symm
  exact hn (roundAt_eq_zero_iff.1 hi)

/-- **An element in slot 0 stays as it is** behind the first round: it is not sent again, and not
    dropped. -/
theorem slot_zero_stays (h : Rounds now sent q after) (hk : k ≠ 0)
    (hs : ((q k).synQueue 0).sock.isSome)
    (hkept : Untaken q after k 0) (hn : k ≤ n) :
    (after n).synQueue 0 = (q k).synQueue 0 := by
  induction n, hn using Nat.le_induction with
  | base => exact h.slot_zero hk
  | succ n hn ih =>
    rw [h.slot_zero n.succ_ne_zero, spares_run (by rw [ih]; exact hs) (hkept n hn), ih]

/-- An element in another slot is changed in the end: a round comes when it is due. -/
theorem Rounds.changes (h : Rounds now sent q after) {j : ℕ} (hj : j < maxSock) (h0 : j ≠ 0)
    (hclock : Advances now) (hs : ((q k).synQueue j).sock.isSome)
    (hkept : Untaken q after k j) :
    ∃ n, k ≤ n ∧ (q n).synQueue j = (q k).synQueue j ∧ (after n).synQueue j ≠ (q k).synQueue j := by
  by_contra! hsame
  have hall : ∀ n, k ≤ n → (q n).synQueue j = (q k).synQueue j := by
    intro n hn
    induction n, hn using Nat.le_induction with
    | base => rfl
    | succ n hn ih =>
      have hafter := hsame n hn ih
      rw [spares_run (by rw [hafter]; exact hs) (hkept n hn), hafter]
  obtain ⟨m, hm⟩ := hclock (((q k).synQueue j).lastAckTime + clocksPerSec)
  obtain ⟨n, hlt, -, hn⟩ := roundAt_visits hj h0 (max k m)
  have hkn : k ≤ n := by omega
  obtain ⟨i, hi, he⟩ := h.round n
  obtain rfl : j = i := Option.some.inj (hn.symm.trans hi)
  have hx := hall n hkn
  rcases round_due he (by rw [hx]; exact hs) (by rw [hx]; exact hm n (by omega)) with hr | hnone
  · rw [hsame n hkn hx, hx] at hr
    bv_omega
  · rw [hsame n hkn hx] at hnone
    rw [hnone] at hs
    cases hs

/-- **An element in another slot is dropped** in the end, if nobody takes it. -/
theorem Rounds.drops (h : Rounds now sent q after) {j : ℕ} (hj : j < maxSock) (h0 : j ≠ 0)
    (hclock : Advances now) (hs : ((q k).synQueue j).sock.isSome) (hkept : Untaken q after k j) :
    ∃ n, k ≤ n ∧ ((after n).synQueue j).sock = none := by
  -- every change but the last one takes one of the remaining transmissions
  generalize hr : ((q k).synQueue j).remands.toNat = r
  induction r using Nat.strong_induction_on generalizing k with
  | h r ih =>
    obtain ⟨n, hn, hx, hne⟩ := h.changes hj h0 hclock hs hkept
    rcases h.served n j with hkeep | ⟨hrem, hsend⟩ | ⟨-, hnone⟩
    · exact absurd (hkeep.trans hx) hne
    · rw [hx] at hrem hsend
      have hnext := spares_run (by rw [hsend]; exact hs) (hkept n hn)
      rw [hsend] at hnext
      have hlt : ((q (n + 1)).synQueue j).remands.toNat < r := by
        rw [hnext]
        bv_omega
      obtain ⟨m, hm, hnone⟩ := ih _ hlt (by rw [hnext]; exact hs)
        (fun m hm => hkept m (by omega)) rfl
      exact ⟨m, by omega, hnone⟩
    · exact ⟨n, hn, hnone⟩

/-- An element in slot 0 is not dropped. -/
theorem slot_zero_kept (h : Rounds now sent q after) (hs : ((q k).synQueue 0).sock.isSome)
    (hkept : Untaken q after k 0) (hn : k ≤ n) : ((after n).synQueue 0).sock.isSome := by
  have hround : ∀ n, ((q n).synQueue 0).sock.isSome → ((after n).synQueue 0).sock.isSome := by
    intro n hs
    rcases eq_or_ne n 0 with rfl | hne
    · rcases h.served 0 0 with hkeep | ⟨-, hsend⟩ | ⟨hr, -⟩
      · rw [hkeep]
        exact hs
      · rw [hsend]
        exact hs
      · rw [h.fresh hs] at hr
        exact absurd hr (by decide)
    · rw [h.slot_zero hne]
      exact hs
  induction n, hn using Nat.le_induction with
  | base => exact hround k hs
  | succ n hn ih =>
    refine hround (n + 1) ?_
    rw [spares_run ih (hkept n hn)]
    exact ih

/-- **The thread serves every slot but 0.**  The rounds among 2 * MAX_SOCK in a row visit every
    slot, that one only from the start; and while time goes on, an element that nobody takes is
    dropped exactly if it is in another slot. -/
theorem synRetrans_serves {j : ℕ} (hj : j < maxSock) (k : ℕ) :
    ((∃ n, k ≤ n ∧ n < k + 2 * maxSock ∧ roundAt n = some j) ↔ j ≠ 0 ∨ k = 0) ∧
      ∀ now sent q after, Rounds now sent q after → Advances now →
        ((q k).synQueue j).sock.isSome → Untaken q after k j →
        ((∃ n, k ≤ n ∧ ((after n).synQueue j).sock = none) ↔ j ≠ 0) := by
  refine ⟨visited_iff hj k, fun now sent q after h hclock hs hkept => ⟨?_, ?_⟩⟩
  · rintro ⟨n, hn, hnone⟩ rfl
    have hsome := slot_zero_kept h hs hkept hn
    rw [Nat.cast_zero] at hnone
    rw [hnone] at hsome
    cases hsome
  · exact fun h0 => h.drops hj h0 hclock hs hkept

end

/-- The half-open socket of the port 5678 is in slot 5. -/
def oneHalfOpen : Queues := enSynQueue 0 initQueue halfOpen (synAckPacket synOf5678)

theorem oneHalfOpen_reached : ReachBy queueStep ServerOps initQueue oneHalfOpen := by
  have he : queueStep initQueue (.enSynQueue 0 halfOpen (synAckPacket synOf5678)) =
      some oneHalfOpen := by
    unfold queueStep
    exact if_pos (by decide)
  refine ReachBy.one ?_ he
  exact ⟨trivial, synAckPacket_full _⟩

/-- Its element is gone after some round, one second each. -/
theorem synRetrans_serves_fifth :
    (∃ n, 0 ≤ n ∧ n < 0 + 2 * maxSock ∧ roundAt n = some 5) ∧
      ∃ n, 0 ≤ n ∧ ((roundQueue (· * clocksPerSec) (· * clocksPerSec) oneHalfOpen
        (n + 1)).synQueue 5).sock = none := by
  have hrounds := rounds_alone (· * clocksPerSec) (· * clocksPerSec) oneHalfOpen_reached
  obtain ⟨hvisit, hdrop⟩ := synRetrans_serves (j := 5) (by decide) 0
  refine ⟨hvisit.2 (Or.inr rfl), (hdrop _ _ _ _ hrounds ?_ ?_ ?_).2 (by decide)⟩
  · exact fun t => ⟨t, fun n hn => hn.trans (Nat.le_mul_of_pos_right n (by decide))⟩
  · decide +kernel
  · exact fun n _ => ReachBy.refl

/-- Slot 0 is not among the rounds 1 to 64. -/
theorem slot_zero_missed : ¬ ∀ k j, j < maxSock →
    ∃ n, k ≤ n ∧ n < k + 2 * maxSock ∧ roundAt n = some j := by
  intro hall
  obtain ⟨n, hn, -, h0⟩ := hall 1 0 (by decide)
  rw [roundAt_eq_zero_iff] at h0
  omega

/-! ## The handler in LISTEN -/

/-- A half-open socket is in the slot of its addresses. -/
def Slotted (q : Queues) : Prop := ∀ i, ∀ sock ∈ (q.synQueue i).sock, sockHash sock = i

theorem Slotted.step (h : Slotted q) (he : queueStep q e = some q') : Slotted q' := by
  intro j
  have hm := queueStep_elem he j
  have hold := h j
  generalize q'.synQueue j = y at hm ⊢
  cases hm with
  | keeps => exact hold
  | puts hj =>
    intro sock hs
    cases hs
    exact hj
  | takes => exact fun sock hs => by cases hs
  | sends => exact hold
  | drops => exact fun sock hs => by cases hs

theorem Slotted.of_reach {G : Queues → QueueEv → Prop} (h : ReachBy queueStep G initQueue q) :
    Slotted q :=
  h.inv (fun i sock hs => by cases hs) fun _ _ _ hq _ he => hq.step he

/-- The socket that a listening socket of the server makes for a SYN has a slot. -/
theorem newConn_inTable {l : TjuTcp} (hl : l.bindAddr.ip = serverIp) (pkt : Buf) :
    InTable (sockHash (newConn l pkt)) := by
  have h := (calHash_connection l.bindAddr.port (getSrc pkt)).1
  unfold sockHash newConn
  rw [hl, h]
  constructor <;> simp <;> omega

/-- **The handler in LISTEN** performs operations of the queues, with packets that have their
    header. -/
theorem handleListen_reach {l : TjuTcp} (hl : l.bindAddr.ip = serverIp) (h : Slotted q) (now : ℕ)
    (pkt : Buf) : ReachBy queueStep ServerOps q (handleListen now l q pkt).1 := by
  unfold handleListen
  split_ifs
  · have he : queueStep q (.enSynQueue now (newConn l pkt) (synAckPacket pkt)) =
        some (enSynQueue now q (newConn l pkt) (synAckPacket pkt)) := if_pos (newConn_inTable hl pkt)
    refine ReachBy.one ?_ he
    exact ⟨trivial, synAckPacket_full pkt⟩
  · have hget : queueStep q (.getFromSyn pkt) = some (getFromSyn q pkt).1 :=
      if_pos (packetHash_inTable pkt)
    have hfirst : ReachBy queueStep ServerOps q (getFromSyn q pkt).1 := by
      refine ReachBy.one ?_ hget
      exact ⟨trivial, trivial⟩
    split
    · next q' hq =>
      rw [hq] at hfirst
      exact hfirst
    · next q' sock hq =>
      have hslot := h _ sock ((getFromSyn_cases q pkt).2 sock (by rw [hq]))
      rw [hq] at hfirst
      have hin : InTable (sockHash { sock with state := .established }) := by
        unfold sockHash at hslot ⊢
        rw [hslot]
        exact packetHash_inTable pkt
      have he : queueStep q' (.enAcceptQueue { sock with state := .established }) =
          some (enAcceptQueue q' { sock with state := .established }) := if_pos hin
      refine hfirst.tail ?_ he
      exact ⟨trivial, trivial⟩
  · exact ReachBy.refl

end Tju
