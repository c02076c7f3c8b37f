/-
  The numbers of elements of the two queues (src/syn.c).

  `syn_num` and `accept_num` are kept beside the queues they count.  A run is
  any sequence of the operations that `syn.c` performs under its locks; one
  round of `syn_retrans_thread` is one of them.  `getFromSyn` takes
  an element off the counter, but the round that drops an expired element does not.

  * `queueStep_move`: what an operation can do;
  * `Tallied.run`: `syn_num` is ahead of its queue by the number of elements
    that have expired;
  * `counted_always_iff`: both numbers are right, and a slot has its packet just
    when it has its socket, in every state of a run exactly if nothing expires in
    it.
-/
import TjuTcp.Hash
import TjuTcp.Lib.Run
import TjuTcp.Lib.Filled

namespace Tju

open Lib

/-! ## Runs -/

/-- The operations under the locks. -/
inductive QueueEv where
  | enSynQueue (now : ℕ) (sock : TjuTcp) (pkt : Buf)
  | getFromSyn (pkt : Buf)
  | enAcceptQueue (sock : TjuTcp)
  | getFromAccept
  | synRetrans (now sent : ℕ) (i : ℤ)

/-- `none` if a queue is indexed outside of its slots, or a round reads outside of a packet. -/
def queueStep (q : Queues) : QueueEv → Option Queues
  | .enSynQueue now sock pkt =>
    if InTable (sockHash sock) then some (enSynQueue now q sock pkt) else none
  | .getFromSyn pkt => if InTable (packetHash pkt) then some (getFromSyn q pkt).1 else none
  | .enAcceptQueue sock => if InTable (sockHash sock) then some (enAcceptQueue q sock) else none
  | .getFromAccept => some (getFromAccept q).1
  | .synRetrans now sent i =>
    if InTable i then (synRetransRound now sent q i).map Prod.fst else none

/-- The event is a round on an element that has no transmission left. -/
def QueueEv.expires (q : Queues) : QueueEv → Bool
  | .synRetrans _ _ i => (q.synQueue i).sock.isSome && (q.synQueue i).remands == 0
  | _ => false

/-- How many elements expire in the run. -/
def expiries : Queues → List QueueEv → ℕ
  | _, [] => 0
  | q, e :: es => (e.expires q).toNat + ((queueStep q e).map fun q' => expiries q' es).getD 0

/-- The indices of the queues. -/
def slots : Finset ℤ := (Finset.range maxSock).image Nat.cast

/-- The sockets of the half-open queue. -/
def Queues.synSocks (q : Queues) : ℤ → Option TjuTcp := fun i => (q.synQueue i).sock

/-- A slot of the half-open queue has its packet just when it has its socket. -/
def Queues.Paired (q : Queues) : Prop :=
  ∀ i, InTable i → ((q.synQueue i).packetSynAck.isSome ↔ (q.synQueue i).sock.isSome)

/-- The numbers are those of the queues. -/
structure Counted (q : Queues) : Prop where
  syn : q.synNum.toNat = filled slots q.synSocks
  accept : q.acceptNum.toNat = filled slots q.acceptQueue
  paired : q.Paired

variable {q q' : Queues} {e : QueueEv} {sock : TjuTcp} {pkt : Buf} {i : ℤ} {k now sent : ℕ}

@[simp] theorem mem_slots : i ∈ slots ↔ InTable i := by
  unfold slots
  rw [Finset.mem_image]
  constructor
  · rintro ⟨n, hn, rfl⟩
    exact ⟨by omega, by exact_mod_cast Finset.mem_range.1 hn⟩
  · rintro ⟨h0, hlt⟩
    exact ⟨i.toNat, Finset.mem_range.2 (by omega), Int.toNat_of_nonneg h0⟩

theorem expires_eq_true_iff : (QueueEv.synRetrans now sent i).expires q = true ↔
    (q.synQueue i).sock.isSome ∧ (q.synQueue i).remands = 0 := by
  unfold QueueEv.expires
  rw [Bool.and_eq_true, beq_iff_eq]

/-- An element with transmissions left stays. -/
theorem expires_eq_false (h : 0 < (q.synQueue i).remands) :
    (QueueEv.synRetrans now sent i).expires q = false := by
  rw [Bool.eq_false_iff]
  intro hx
  rw [(expires_eq_true_iff.1 hx).2] at h
  exact absurd h (by decide)

/-- The slot in which `get_from_syn` looks is an index, for every packet. -/
theorem packetHash_inTable (pkt : Buf) : InTable (packetHash pkt) := by
  have h := (calHash_connection (getDst pkt) (getSrc pkt)).1
  unfold packetHash
  rw [h]
  constructor <;> simp <;> omega

/-! ## What the operations do -/

/-- What an operation on the half-open queue makes of it. -/
inductive SynMove (q : Queues) : QueueEv → Queues → Prop
  | keeps {e : QueueEv} : e.expires q = false → SynMove q e q
  | puts {now : ℕ} {sock : TjuTcp} {pkt : Buf} : InTable (sockHash sock) →
      (q.synQueue (sockHash sock)).sock = none →
      SynMove q (.enSynQueue now sock pkt) { q with
        synQueue := Function.update q.synQueue (sockHash sock)
          ⟨some sock, now, synDefaultRemands, some pkt⟩
        synNum := q.synNum + 1 }
  | takes {pkt : Buf} : InTable (packetHash pkt) → (q.synQueue (packetHash pkt)).sock.isSome →
      SynMove q (.getFromSyn pkt) { q with
        synQueue := Function.update q.synQueue (packetHash pkt)
          { q.synQueue (packetHash pkt) with sock := none, packetSynAck := none }
        synNum := q.synNum - 1 }
  | sends {now sent : ℕ} {i : ℤ} : InTable i → (q.synQueue i).sock.isSome →
      0 < (q.synQueue i).remands →
      SynMove q (.synRetrans now sent i) { q with
        synQueue := Function.update q.synQueue i
          { q.synQueue i with lastAckTime := sent, remands := (q.synQueue i).remands - 1 } }
  | drops {now sent : ℕ} {i : ℤ} : InTable i → (q.synQueue i).sock.isSome →
      (q.synQueue i).remands = 0 →
      SynMove q (.synRetrans now sent i) { q with
        synQueue := Function.update q.synQueue i
          { q.synQueue i with sock := none, packetSynAck := none } }

/-- What an operation on the accept queue makes of it. -/
inductive AcceptMove (q : Queues) : Queues → Prop
  | keeps : AcceptMove q q
  | puts {sock : TjuTcp} : InTable (sockHash sock) → q.acceptQueue (sockHash sock) = none →
      AcceptMove q { q with
        acceptQueue := Function.update q.acceptQueue (sockHash sock) (some sock)
        acceptNum := q.acceptNum + 1 }
  | takes {i : ℤ} : InTable i → (q.acceptQueue i).isSome →
      AcceptMove q { q with
        acceptQueue := Function.update q.acceptQueue i none
        acceptNum := q.acceptNum - 1 }

theorem enSynQueue_move (hi : InTable (sockHash sock)) :
    SynMove q (.enSynQueue now sock pkt) (enSynQueue now q sock pkt) := by
  unfold enSynQueue
  dsimp only
  split_ifs with h
  · exact .puts hi (Option.isNone_iff_eq_none.1 h)
  · exact .keeps rfl

theorem getFromSyn_move (hi : InTable (packetHash pkt)) :
    SynMove q (.getFromSyn pkt) (getFromSyn q pkt).1 := by
  unfold getFromSyn
  split_ifs
  · exact .keeps rfl
  · dsimp only
    split
    · next ret h => exact .takes hi (by rw [h]; rfl)
    · exact .keeps rfl

/-- A round leaves the element as it is only if it is not due. -/
theorem synRetransRound_move {r : Queues × List Buf} (hi : InTable i)
    (h : synRetransRound now sent q i = some r) : SynMove q (.synRetrans now sent i) r.1 := by
  unfold synRetransRound at h
  simp only at h
  split_ifs at h with hs hr ht
  · obtain ⟨pkt, -, h⟩ := Option.bind_eq_some_iff.1 h
    obtain ⟨p, -, h⟩ := Option.bind_eq_some_iff.1 h
    cases h
    exact .sends hi hs hr
  · cases h
    exact .keeps (expires_eq_false hr)
  · cases h
    exact .drops hi hs (by bv_omega)
  · cases h
    exact .keeps (Bool.eq_false_iff.2 fun hx => hs (expires_eq_true_iff.1 hx).1)

theorem enAcceptQueue_move (hi : InTable (sockHash sock)) : AcceptMove q (enAcceptQueue q sock) := by
  unfold enAcceptQueue
  dsimp only
  split_ifs with h
  · exact .puts hi (Option.isNone_iff_eq_none.1 h)
  · exact .keeps

/-- `get_from_accept` fails exactly on an empty queue. -/
theorem firstAccept_eq_none_iff : firstAccept q = none ↔ filled slots q.acceptQueue = 0 := by
  unfold firstAccept
  rw [List.find?_eq_none, filled_eq_zero_iff]
  constructor
  · intro h i hi
    obtain ⟨h0, hlt⟩ := mem_slots.1 hi
    have hnot := h i.toNat (List.mem_range.2 (by omega))
    rw [Int.toNat_of_nonneg h0, Bool.not_eq_true, Option.isSome_eq_false_iff] at hnot
    exact Option.isNone_iff_eq_none.1 hnot
  · intro h i hi
    rw [h i (mem_slots.2 ⟨by omega, by exact_mod_cast List.mem_range.1 hi⟩)]
    decide

theorem firstAccept_eq_some {n : ℕ} (h : firstAccept q = some n) :
    InTable n ∧ (q.acceptQueue n).isSome := by
  unfold firstAccept at h
  have hmem := List.mem_range.1 (List.mem_of_find?_eq_some h)
  have hsome := List.find?_eq_some_iff_append.1 h
  exact ⟨⟨by omega, by exact_mod_cast hmem⟩, hsome.1⟩

theorem getFromAccept_move (q : Queues) : AcceptMove q (getFromAccept q).1 := by
  unfold getFromAccept
  split
  · next n h =>
    obtain ⟨hi, hs⟩ := firstAccept_eq_some h
    exact .takes hi hs
  · exact .keeps

/-- **What an operation can do.** -/
theorem queueStep_move (he : queueStep q e = some q') :
    SynMove q e q' ∨ AcceptMove q q' ∧ e.expires q = false := by
  cases e with
  | enSynQueue now sock pkt =>
    simp only [queueStep] at he
    split_ifs at he with hi
    cases he
    exact Or.inl (enSynQueue_move hi)
  | getFromSyn pkt =>
    simp only [queueStep] at he
    split_ifs at he with hi
    cases he
    exact Or.inl (getFromSyn_move hi)
  | enAcceptQueue sock =>
    simp only [queueStep] at he
    split_ifs at he with hi
    cases he
    exact Or.inr ⟨enAcceptQueue_move hi, rfl⟩
  | getFromAccept =>
    cases he
    exact Or.inr ⟨getFromAccept_move q, rfl⟩
  | synRetrans now sent i =>
    simp only [queueStep] at he
    split_ifs at he with hi
    obtain ⟨r, hr, rfl⟩ := Option.map_eq_some_iff.1 he
    exact Or.inl (synRetransRound_move hi hr)

/-! ## The numbers -/

theorem synSocks_update (q : Queues) (i : ℤ) (x : SynElem) (n : BitVec 16) :
    ({ q with synQueue := Function.update q.synQueue i x, synNum := n } : Queues).synSocks =
      Function.update q.synSocks i x.sock := by
  funext j
  unfold Queues.synSocks
  by_cases hj : j = i
  · subst hj
    simp
  · simp [hj]

theorem synSocks_self (q : Queues) (i : ℤ) :
    Function.update q.synSocks i (q.synQueue i).sock = q.synSocks :=
  Function.update_eq_self i q.synSocks

/-- **The number of half-open elements** falls behind when an element expires, and only then. -/
theorem SynMove.tally (h : SynMove q e q') (ht : Tally slots q.synSocks k q.synNum) :
    Tally slots q'.synSocks (k + (e.expires q).toNat) q'.synNum := by
  cases h with
  | keeps hx =>
    rw [hx]
    exact ht
  | puts hi hnone =>
    rw [synSocks_update]
    exact ht.put (mem_slots.2 hi) hnone _
  | takes hi hs =>
    rw [synSocks_update]
    exact ht.clear (mem_slots.2 hi) hs
  | sends hi hs hr =>
    rw [expires_eq_false hr, synSocks_update, synSocks_self]
    exact ht
  | drops hi hs hr =>
    rw [expires_eq_true_iff.2 ⟨hs, hr⟩, synSocks_update]
    exact ht.forget (mem_slots.2 hi) hs

theorem SynMove.accept (h : SynMove q e q') :
    q'.acceptQueue = q.acceptQueue ∧ q'.acceptNum = q.acceptNum := by
  cases h <;> exact ⟨rfl, rfl⟩

theorem AcceptMove.tally (h : AcceptMove q q') (ht : Tally slots q.acceptQueue 0 q.acceptNum) :
    Tally slots q'.acceptQueue 0 q'.acceptNum := by
  cases h with
  | keeps => exact ht
  | puts hi hnone => exact ht.put (mem_slots.2 hi) hnone _
  | takes hi hs => exact ht.clear (mem_slots.2 hi) hs

theorem AcceptMove.syn (h : AcceptMove q q') : q'.synQueue = q.synQueue ∧ q'.synNum = q.synNum := by
  cases h <;> exact ⟨rfl, rfl⟩

/-! ## One slot -/

/-- What an operation makes of the element in slot `j` of the half-open queue. -/
inductive ElemMove (j : ℤ) (x : SynElem) : QueueEv → SynElem → Prop
  | keeps {e : QueueEv} : ElemMove j x e x
  | puts {now : ℕ} {sock : TjuTcp} {pkt : Buf} : sockHash sock = j → x.sock = none →
      ElemMove j x (.enSynQueue now sock pkt) ⟨some sock, now, synDefaultRemands, some pkt⟩
  | takes {pkt : Buf} : packetHash pkt = j →
      ElemMove j x (.getFromSyn pkt) { x with sock := none, packetSynAck := none }
  | sends {now sent : ℕ} : x.sock.isSome → 0 < x.remands →
      ElemMove j x (.synRetrans now sent j)
        { x with lastAckTime := sent, remands := x.remands - 1 }
  | drops {now sent : ℕ} : x.sock.isSome → x.remands = 0 →
      ElemMove j x (.synRetrans now sent j) { x with sock := none, packetSynAck := none }

/-- The other slots are left alone. -/
theorem ElemMove.update {x : SynElem} (h : ElemMove i (q.synQueue i) e x) (j : ℤ) :
    ElemMove j (q.synQueue j) e (Function.update q.synQueue i x j) := by
  by_cases hj : j = i
  · subst hj
    rw [Function.update_self]
    exact h
  · rw [Function.update_of_ne hj]
    exact .keeps

theorem SynMove.elem (h : SynMove q e q') (j : ℤ) :
    ElemMove j (q.synQueue j) e (q'.synQueue j) := by
  cases h with
  | keeps => exact .keeps
  | puts hi hnone => exact ElemMove.update (.puts rfl hnone) j
  | takes hi hs => exact ElemMove.update (.takes rfl) j
  | sends hi hs hr => exact ElemMove.update (.sends hs hr) j
  | drops hi hs hr => exact ElemMove.update (.drops hs hr) j

/-- **What an operation can do to one slot** of the half-open queue. -/
theorem queueStep_elem (he : queueStep q e = some q') (j : ℤ) :
    ElemMove j (q.synQueue j) e (q'.synQueue j) := by
  rcases queueStep_move he with hm | ⟨hm, -⟩
  · exact hm.elem j
  · rw [hm.syn.1]
    exact .keeps

theorem ElemMove.paired {x y : SynElem} (h : ElemMove i x e y)
    (hx : x.packetSynAck.isSome ↔ x.sock.isSome) : y.packetSynAck.isSome ↔ y.sock.isSome := by
  cases h with
  | keeps => exact hx
  | puts => exact Iff.rfl
  | takes => exact Iff.rfl
  | sends => exact hx
  | drops => exact Iff.rfl

/-! ## Both queues -/

/-- The two queues and their numbers, with `k` expired elements that `syn_num` still counts. -/
structure Tallied (k : ℕ) (q : Queues) : Prop where
  syn : Tally slots q.synSocks k q.synNum
  accept : Tally slots q.acceptQueue 0 q.acceptNum
  paired : q.Paired

theorem tallied_init : Tallied 0 initQueue where
  syn := rfl
  accept := rfl
  paired _ _ := Iff.rfl

theorem Tallied.step (h : Tallied k q) (he : queueStep q e = some q') :
    Tallied (k + (e.expires q).toNat) q' := by
  have hpaired : q'.Paired := fun i hi => (queueStep_elem he i).paired (h.paired i hi)
  rcases queueStep_move he with hm | ⟨hm, hx⟩
  · refine ⟨hm.tally h.syn, ?_, hpaired⟩
    rw [hm.accept.1, hm.accept.2]
    exact h.accept
  · obtain ⟨hq, hn⟩ := hm.syn
    refine ⟨?_, hm.tally h.accept, hpaired⟩
    unfold Queues.synSocks
    rw [hx, hq, hn]
    exact h.syn

theorem Tallied.run (es : List QueueEv) (h : Tallied k q) (he : exec queueStep q es = some q') :
    Tallied (k + expiries q es) q' := by
  induction es generalizing q k with
  | nil =>
    cases he
    exact h
  | cons e es ih =>
    obtain ⟨t, ht, he⟩ := Option.bind_eq_some_iff.1 he
    have hrun := ih (h.step ht) he
    unfold expiries
    rw [ht, Option.map_some, Option.getD_some, ← Nat.add_assoc]
    exact hrun

theorem Tallied.acceptNum_eq (h : Tallied k q) : q.acceptNum.toNat = filled slots q.acceptQueue :=
  (h.accept.toNat_eq_iff (by decide)).2 (Nat.dvd_zero _)

theorem Tallied.counted_iff (h : Tallied k q) : Counted q ↔ 2 ^ 16 ∣ k := by
  rw [← h.syn.toNat_eq_iff (by decide)]
  exact ⟨Counted.syn, fun hs => ⟨hs, h.acceptNum_eq, h.paired⟩⟩

/-- **Both numbers are right, and packets go with sockets, in every state of a run** exactly if no
    element expires in it.  The number of the accept queue and the packets always are; the number
    of the half-open queue is ahead by the elements that have expired, modulo 2^16. -/
theorem counted_always_iff (es : List QueueEv) (h : exec queueStep initQueue es = some q) :
    (Always queueStep Counted initQueue es ↔
        Along queueStep (fun q e => e.expires q = false) initQueue es) ∧
      q.acceptNum.toNat = filled slots q.acceptQueue ∧ q.Paired ∧
      q.synNum = .ofNat 16 (filled slots q.synSocks + expiries initQueue es) := by
  have hend : Tallied (0 + expiries initQueue es) q := tallied_init.run es h
  rw [Nat.zero_add] at hend
  refine ⟨?_, hend.acceptNum_eq, hend.paired, hend.syn⟩
  refine always_iff_along (fun q hq => hq.counted_iff.2 (Nat.dvd_zero _)) ?_ ?_ es tallied_init h
  · intro q e q' hq hx he
    have hstep := hq.step he
    rw [hx] at hstep
    exact hstep
  · intro q e q' hq hx he hcounted
    have hstep := hq.step he
    rw [Bool.eq_true_of_not_eq_false hx] at hstep
    exact absurd (hstep.counted_iff.1 hcounted) (by decide)

/-- The SYN of port 5678 for port 1234, and the half-open socket for it. -/
def synOf5678 : Buf := synPacket 5678 1234

def halfOpen : TjuTcp := newConn { tjuSocket with bindAddr := ⟨serverIp, 1234⟩ } synOf5678

/-- A handshake, from the SYN to `tju_accept`. -/
theorem counted_always_handshake : Always queueStep Counted initQueue
    [.enSynQueue 0 halfOpen (synAckPacket synOf5678), .synRetrans 1000000 1000000 5,
      .getFromSyn synOf5678, .enAcceptQueue halfOpen, .getFromAccept] := by
  obtain ⟨q, hq⟩ := Option.isSome_iff_exists.1 (show (exec queueStep initQueue
    [.enSynQueue 0 halfOpen (synAckPacket synOf5678), .synRetrans 1000000 1000000 5,
      .getFromSyn synOf5678, .enAcceptQueue halfOpen, .getFromAccept]).isSome = true
    by decide +kernel)
  exact (counted_always_iff _ hq).1.2 (by decide +kernel)

/-- The rounds on slot 5 at the seconds 1 to 11. -/
def elevenRounds : List QueueEv :=
  (List.range 11).map fun n => .synRetrans ((n + 1) * clocksPerSec) ((n + 1) * clocksPerSec) 5

/-- A SYN|ACK that is never answered is sent again ten times and dropped: `syn_num` is 1, and the
    queue is empty. -/
theorem counted_expired : ¬ ∀ es q, exec queueStep initQueue es = some q → Counted q := by
  intro hall
  obtain ⟨q, hq⟩ := Option.isSome_iff_exists.1 (show (exec queueStep initQueue
    (.enSynQueue 0 halfOpen (synAckPacket synOf5678) :: elevenRounds)).isSome = true
    by decide +kernel)
  have hnum : (exec queueStep initQueue
      (.enSynQueue 0 halfOpen (synAckPacket synOf5678) :: elevenRounds)).map
      (fun q => (q.synNum.toNat, filled slots q.synSocks)) = some (1, 0) := by decide +kernel
  rw [hq, Option.map_some, Option.some.injEq, Prod.mk.injEq] at hnum
  have hsyn := (hall _ q hq).syn
  omega

end Tju
