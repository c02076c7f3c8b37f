/-
  What a round trip sample measures.

  `sending_thread` starts a measurement with a segment that it sends for the
  first time, and the ACK that the measurement waits for ends it.  In between
  `retrans_thread` may send the segment again: it neither ends the measurement
  nor sets `send_time` anew.

  `RttLog` is a process together with the packets that it has put on the wire
  since the running measurement began.

  * `Emits.copies`: a run of segments carries each of its bytes once;
  * `logInv_reached`: the last byte of the timed segment has been sent once, and
    once more in every retransmission since;
  * `sampled_once`: so the samples that measure a segment sent once are those
    without a retransmission since `send_time`;
  * `sampled_twice`: a sample of a segment that was sent again.
-/
import TjuTcp.Timing

namespace Tju

open Lib

/-- The retransmission branch of `retrans_thread` is taken. -/
def Resends (h : Host) : Prop :=
  h.retrans = true ∧ h.sock.wndSend.windowSize ≠ 0 ∧ h.sock.isRetransing = true

instance (h : Host) : Decidable (Resends h) := inferInstanceAs (Decidable (_ ∧ _ ∧ _))

/-- A process, the packets that it has put on the wire since the running measurement began, and the
    number of retransmissions among them. -/
structure RttLog where
  host : Host
  wire : List Buf
  resent : ℕ

def RttLog.start (a b : TjuSockAddr) : RttLog := ⟨establishedHost a b, [], 0⟩

def logStep (s : RttLog) : SockEv → Option RttLog
  | .sendPass now =>
    let r := sendingThread now s.host
    -- a measurement that begins in this batch begins with its first segment
    if s.host.sock.wndSend.isEstimatingRtt = true then some ⟨r.1, s.wire ++ r.2, s.resent⟩
    else some ⟨r.1, r.2, 0⟩
  | .retransPass => (retransThread s.host).map fun r =>
      ⟨r.1, s.wire ++ r.2, if Resends s.host then s.resent + 1 else s.resent⟩
  | e => (sockStep s.host e).map fun h => { s with host := h }

/-- The packet carries the byte with the number `byte`. -/
def carries (byte : BitVec 32) (p : Buf) : Bool :=
  (byte - getSeq p).toNat < (getPlen p - getHlen p).toNat

/-- How often the last byte of the timed segment has been put on the wire since `send_time`. -/
def RttLog.copies (s : RttLog) : ℕ := s.wire.countP (carries (s.host.sock.wndSend.rttExpectAck - 1))

/-- The guard on a step: the ACKs are genuine. -/
def LogAcksOk (s : RttLog) (e : SockEv) : Prop := AcksOk s.host e

variable {s s' : RttLog} {h h' : Host} {e : SockEv} {sock : TjuTcp} {off off' : ℕ}
  {seq : BitVec 32} {out : List Buf}

/-! ## Copies of a byte -/

theorem carries_dataPacket (sock : TjuTcp) (seq byte : BitVec 32) {data : List Byte}
    (h : data.length ≤ maxDlen) :
    carries byte (dataPacket sock seq data) = decide ((byte - seq).toNat < data.length) := by
  unfold carries
  rw [dataPacket_seq h, dataPacket_dlen h]

/-- **A run of segments** carries each of its bytes once, and no other. -/
theorem Emits.copies (he : Emits sock off seq out off') (hlt : off' - off ≤ 2 ^ 31)
    (k : BitVec 32) : out.countP (carries (seq + k)) = if k.toNat < off' - off then 1 else 0 := by
  induction he with
  | nil => simp
  | @snoc out mid len hprev h1 h2 h3 ih =>
    have hle := hprev.le
    have hdata : ((sock.sendingBuf.drop mid).take len).length = len := by
      simp only [List.length_take, List.length_drop]
      omega
    rw [List.countP_append, ih (by omega), List.countP_singleton, carries_dataPacket _ _ _ (by omega),
      hdata]
    have hk : (seq + k - (seq + .ofNat 32 (mid - off))).toNat < len ↔
        mid - off ≤ k.toNat ∧ k.toNat < mid + len - off := by
      simp only [maxDlen] at h2
      constructor
      · intro h
        constructor <;> bv_omega
      · intro h
        bv_omega
    simp only [hk, decide_eq_true_eq]
    split_ifs <;> omega

theorem copies_nil (byte : BitVec 32) : ([] : List Buf).countP (carries byte) = 0 := rfl

theorem copies_probe (sock : TjuTcp) (byte : BitVec 32) :
    [probePacket sock].countP (carries byte) = 0 := by
  rw [List.countP_singleton, probePacket, carries_dataPacket _ _ _ (Nat.zero_le _)]
  rfl

/-! ## What the two threads put on the wire -/

/-- What a pass of `retrans_thread` sends. -/
theorem retransThread_resends (hc : Cursors h.sock) (he : retransThread h = some (h', out)) :
    Resends h ∧ Emits h.sock h.sock.wndSend.ackCnt.toNat h.sock.wndSend.base out
        h.sock.haveSendLen.toNat ∨
      ¬ Resends h ∧ (out = [] ∨ out = [probePacket h.sock]) := by
  unfold retransThread at he
  unfold Resends
  split_ifs at he with h1 h2 h3 h4
  · cases he; exact Or.inr ⟨fun h => h.2.1 h2, Or.inr rfl⟩
  · cases he; exact Or.inr ⟨fun h => by rw [h3] at h; exact absurd h.2.2 (by decide), Or.inl rfl⟩
  · cases he; exact Or.inr ⟨fun h => by rw [h3] at h; exact absurd h.2.2 (by decide), Or.inl rfl⟩
  · obtain ⟨t, out', ht, -, -, -, hem⟩ := retransmit_spec hc
    cases ht.symm.trans he
    exact Or.inl ⟨⟨h1, h2, by simpa using h3⟩, hem⟩
  · cases he; exact Or.inr ⟨fun h => h1 h.1, Or.inl rfl⟩

/-- What a pass of `sending_thread` sends, and what it does to the measurement. -/
theorem sendingThread_batch (now : ℕ) (hc : Cursors h.sock) : ∃ n : ℕ,
    h.sock.haveSendLen.toNat ≤ n ∧ n ≤ maxSockBufSize ∧
      Emits h.sock h.sock.haveSendLen.toNat h.sock.wndSend.nextseq (sendingThread now h).2 n ∧
      Measures now h.sock.wndSend.nextseq h.sock.wndSend (n - h.sock.haveSendLen.toNat)
        (sendingThread now h).1.sock.wndSend ∧
      (sendingThread now h).1.sock.wndSend.base = h.sock.wndSend.base ∧
      (sendingThread now h).1.sock.wndSend.nextseq =
        h.sock.wndSend.nextseq + .ofNat 32 (n - h.sock.haveSendLen.toNat) := by
  have h1 := hc.ack_le
  have h2 := hc.have_le
  have h3 := hc.len_le
  have hhave : h.sock.haveSendLen = (h.sock.haveSendLen.toNat : ℕ) := by omega
  unfold sendingThread
  cases hsmp : sendSample h with
  | none =>
    exact ⟨_, le_rfl, by omega, .nil, .same (SameRtt.refl _) fun _ => by omega, rfl, by simp⟩
  | some smp =>
    have hnext : smp.nextseq = h.sock.wndSend.nextseq := by
      obtain ⟨-, -, -, -, rfl⟩ := sendSample_eq_some_iff.1 hsmp
      rfl
    have hmeas := sendBatch_measures now smp hhave (by omega) h3
    obtain ⟨n, hn, hhave', hnext', hem, -, -, -, hbase, -⟩ :=
      sendBatch_spec now smp hhave (by omega) h3
    rw [hhave', Int.toNat_natCast] at hmeas
    rw [hnext] at hem hmeas hnext'
    exact ⟨n, by omega, by omega, hem, hmeas, hbase, hnext'⟩

/-- The last byte of the timed segment is in flight. -/
def TimedInFlight (w : SenderWindow) : Prop := w.rttExpectAck - 1 - w.base < w.nextseq - w.base

/-- While a measurement is running, its last byte is in flight, and it has been sent once more than
    there were retransmissions. -/
structure LogInv (s : RttLog) : Prop where
  cursors : Cursors s.host.sock
  timed : s.host.sock.wndSend.isEstimatingRtt = true → TimedInFlight s.host.sock.wndSend
  copies : s.host.sock.wndSend.isEstimatingRtt = true → s.copies = 1 + s.resent

theorem start_logInv (a b : TjuSockAddr) : LogInv (.start a b) where
  cursors := establishedHost_cursors a b
  timed := fun h => absurd h Bool.false_ne_true
  copies := fun h => absurd h Bool.false_ne_true

/-- A step that sends nothing, and leaves the measurement, or ends it. -/
theorem LogInv.quiet (hi : LogInv s) (hc : Cursors h.sock)
    (hb : h.sock.wndSend.base = s.host.sock.wndSend.base)
    (hn : h.sock.wndSend.nextseq = s.host.sock.wndSend.nextseq)
    (hs : SameRtt s.host.sock.wndSend h.sock.wndSend) : LogInv { s with host := h } := by
  refine ⟨hc, fun hm => ?_, fun hm => ?_⟩
  · have ht := hi.timed (hs.isEstimatingRtt.symm.trans hm)
    unfold TimedInFlight at ht ⊢
    rw [hs.rttExpectAck, hb, hn]
    exact ht
  · have hcp := hi.copies (hs.isEstimatingRtt.symm.trans hm)
    unfold RttLog.copies at hcp ⊢
    rw [hs.rttExpectAck]
    exact hcp

/-! ## One step -/

theorem timed_extend {r b n : BitVec 32} {k : ℕ} (ht : r - b < n - b)
    (hk : (n - b).toNat + k < 2 ^ 32) : r - b < n + .ofNat 32 k - b := by
  have hadd : (n + BitVec.ofNat 32 k - b).toNat = (n - b).toNat + k := by bv_omega
  rw [BitVec.lt_def] at ht ⊢
  omega

/-- What is in flight is far behind `nextseq`, modulo `2 ^ 32`. -/
theorem timed_far {r b n : BitVec 32} {k : ℕ} (ht : r - b < n - b)
    (hk : (n - b).toNat + k < 2 ^ 32) : ¬ (r - n).toNat < k := by
  bv_omega

/-- The last byte of the first `d` bytes that are sent from `nextseq` on. -/
theorem timed_first {b n : BitVec 32} {d k : ℕ} (h1 : 1 ≤ d) (h2 : d ≤ k)
    (hk : (n - b).toNat + k < 2 ^ 32) : n + .ofNat 32 d - 1 - b < n + .ofNat 32 k - b := by
  have hd : (n + BitVec.ofNat 32 d - 1 - b).toNat = (n - b).toNat + d - 1 := by bv_omega
  have hadd : (n + BitVec.ofNat 32 k - b).toNat = (n - b).toNat + k := by bv_omega
  rw [BitVec.lt_def]
  omega

/-- A batch that starts a measurement sends the timed segment once; one that finds a measurement
    running does not send it. -/
theorem logStep_send (now : ℕ) (hi : LogInv s) (he : logStep s (.sendPass now) = some s') :
    LogInv s' := by
  have hcur := sendingThread_cursors now hi.cursors
  have h1 := hi.cursors.ack_le
  have h2 := hi.cursors.have_le
  have hfl := hi.cursors.flight_toNat
  obtain ⟨n, hle, hmax, hem, hmeas, hbase, hnext⟩ := sendingThread_batch now hi.cursors
  have hcount := hem.copies (by simp only [maxSockBufSize, maxLen] at hmax; omega)
  simp only [maxSockBufSize, maxLen] at hmax
  unfold logStep at he
  dsimp only at he
  generalize sendingThread now s.host = r at *
  cases hmeas with
  | same hs hlen =>
    split_ifs at he with hm
    · cases he
      have ht := hi.timed hm
      have hcp := hi.copies hm
      unfold TimedInFlight at ht
      refine ⟨hcur, fun _ => ?_, fun _ => ?_⟩
      · unfold TimedInFlight
        rw [hs.rttExpectAck, hbase, hnext]
        exact timed_extend ht (by omega)
      · -- the timed byte is below the batch
        have hno := hcount (s.host.sock.wndSend.rttExpectAck - 1 - s.host.sock.wndSend.nextseq)
        rw [if_neg (timed_far ht (by omega)), show s.host.sock.wndSend.nextseq +
          (s.host.sock.wndSend.rttExpectAck - 1 - s.host.sock.wndSend.nextseq) =
            s.host.sock.wndSend.rttExpectAck - 1 by bv_omega] at hno
        unfold RttLog.copies at hcp ⊢
        dsimp only
        rw [hs.rttExpectAck, List.countP_append, hcp, hno, Nat.add_zero]
    · cases he
      refine ⟨hcur, fun hm' => absurd (hs.isEstimatingRtt.symm.trans hm') hm, fun hm' => ?_⟩
      exact absurd (hs.isEstimatingRtt.symm.trans hm') hm
  | started d hidle hd1 hd2 _ hrun hexp _ =>
    rw [if_neg (by rw [hidle]; decide)] at he
    cases he
    refine ⟨hcur, fun _ => ?_, fun _ => ?_⟩
    · unfold TimedInFlight
      rw [hexp, hbase, hnext]
      exact timed_first hd1 hd2 (by omega)
    · have hone := hcount (.ofNat 32 (d - 1))
      rw [BitVec.toNat_ofNat, Nat.mod_eq_of_lt (by omega), if_pos (by omega)] at hone
      have hlast : s.host.sock.wndSend.nextseq + .ofNat 32 d - 1 =
          s.host.sock.wndSend.nextseq + .ofNat 32 (d - 1) := by
        rw [show d = d - 1 + 1 by omega, BitVec.ofNat_add, Nat.add_sub_cancel, ← BitVec.add_assoc]
        exact BitVec.add_sub_cancel ..
      unfold RttLog.copies
      dsimp only
      rw [hexp, hlast, hone]

/-- A retransmission sends the timed segment once more. -/
theorem logStep_retrans (hi : LogInv s) (he : logStep s .retransPass = some s') : LogInv s' := by
  obtain ⟨⟨t, out⟩, ht, rfl⟩ := Option.map_eq_some_iff.1 he
  have hs := retransThread_rtt ht
  obtain ⟨t', out', ht', -, hsame, -⟩ := retransThread_spec hi.cursors
  cases ht.symm.trans ht'
  have hfl := hi.cursors.flight_toNat
  have hlen := hi.cursors.len_le
  have hhave := hi.cursors.have_le
  simp only [maxSockBufSize, maxLen] at hlen
  refine ⟨hi.cursors.congr hsame, fun hm => ?_, fun hm => ?_⟩
  · have htimed := hi.timed (hs.isEstimatingRtt.symm.trans hm)
    unfold TimedInFlight at htimed ⊢
    rw [hs.rttExpectAck, hsame.base, hsame.nextseq]
    exact htimed
  · have htimed := hi.timed (hs.isEstimatingRtt.symm.trans hm)
    have hcp := hi.copies (hs.isEstimatingRtt.symm.trans hm)
    unfold TimedInFlight at htimed
    unfold RttLog.copies at hcp ⊢
    dsimp only
    rw [hs.rttExpectAck, List.countP_append, hcp]
    rcases retransThread_resends hi.cursors ht with ⟨hres, hem⟩ | ⟨hno, hout⟩
    · have hone := hem.copies (by omega)
        (s.host.sock.wndSend.rttExpectAck - 1 - s.host.sock.wndSend.base)
      rw [if_pos (by bv_omega), show s.host.sock.wndSend.base +
        (s.host.sock.wndSend.rttExpectAck - 1 - s.host.sock.wndSend.base) =
          s.host.sock.wndSend.rttExpectAck - 1 by bv_omega] at hone
      rw [if_pos hres, hone, Nat.add_assoc]
    · rw [if_neg hno]
      rcases hout with rfl | rfl
      · rw [copies_nil, Nat.add_zero]
      · rw [copies_probe, Nat.add_zero]

theorem takeSample_ends (now : ℕ) (ack : BitVec 32) (w : SenderWindow) :
    (takeSample now ack w).isEstimatingRtt = false := by
  unfold takeSample
  by_cases hm : w.isEstimatingRtt = true
  · rw [if_pos hm]
  · rw [if_neg hm]
    exact Bool.eq_false_of_not_eq_true hm

/-- A packet leaves the measurement, or ends it. -/
theorem logStep_packet {now : ℕ} {pkt : Buf} (hi : LogInv s) (hok : LogAcksOk s (.packet now pkt))
    (he : logStep s (.packet now pkt) = some s') : LogInv s' := by
  obtain ⟨t, ht, rfl⟩ := Option.map_eq_some_iff.1 he
  have hcur := cursors_step hi.cursors hok ht
  obtain ⟨⟨t', out⟩, ht', rfl⟩ := Option.map_eq_some_iff.1 ht
  rcases handle_sending ht' with ⟨hsame, hwnd⟩ | ⟨-, -, ha⟩
  · exact hi.quiet hcur hsame.base hsame.nextseq (by rw [hwnd]; exact SameRtt.refl _)
  · have hrtt := handleAck_rtt ha
    by_cases hlt : s.host.sock.wndSend.base < getAck pkt
    · rw [if_pos hlt] at hrtt
      have hend := hrtt.isEstimatingRtt.trans (takeSample_ends now (getAck pkt) _)
      exact ⟨hcur, fun hm => absurd (hend.symm.trans hm) (by decide),
        fun hm => absurd (hend.symm.trans hm) (by decide)⟩
    · rw [if_neg hlt] at hrtt
      have hle : getAck pkt ≤ s.host.sock.wndSend.base := BitVec.not_lt.1 hlt
      obtain ⟨t'', ha', -, hsame, -⟩ := handleAck_old now hle
      cases ha.symm.trans ha'
      exact hi.quiet hcur hsame.base hsame.nextseq hrtt

/-- **One step.** -/
theorem logStep_inv (hi : LogInv s) (hok : LogAcksOk s e) (he : logStep s e = some s') :
    LogInv s' := by
  cases e with
  | append data =>
    obtain ⟨t, ht, rfl⟩ := Option.map_eq_some_iff.1 he
    have hcur := cursors_step hi.cursors hok ht
    obtain ⟨sock', ha, rfl⟩ := Option.map_eq_some_iff.1 ht
    obtain ⟨-, rfl⟩ := appendData_eq_some ha
    exact hi.quiet hcur rfl rfl (SameRtt.refl _)
  | sendPass now => exact logStep_send now hi he
  | retransPass => exact logStep_retrans hi he
  | alarm =>
    cases he
    exact hi.quiet hi.cursors rfl rfl (SameRtt.refl _)
  | packet now pkt => exact logStep_packet hi hok he
  | recv len =>
    obtain ⟨t, ht, rfl⟩ := Option.map_eq_some_iff.1 he
    have hcur := cursors_step hi.cursors hok ht
    simp only [sockStep] at ht
    split_ifs at ht
    obtain ⟨⟨sock', bytes⟩, hr, rfl⟩ := Option.map_eq_some_iff.1 ht
    obtain ⟨-, rfl, -⟩ := tjuRecv_eq_some hr
    exact hi.quiet hcur rfl rfl (SameRtt.refl _)

/-! ## Runs -/

theorem logInv_reached {a b : TjuSockAddr} (hr : ReachBy logStep LogAcksOk (.start a b) s) :
    LogInv s :=
  hr.inv (start_logInv a b) fun _ _ _ => logStep_inv

/-- **What a sample measures.**  In every run with genuine ACKs, whenever a sample is taken, the last
    byte of the timed segment has been put on the wire exactly once since `send_time` if and only if
    there was no retransmission since. -/
theorem sampled_once {a b : TjuSockAddr} (hr : ReachBy logStep LogAcksOk (.start a b) s)
    (hsmp : (sampleOf s.host e).isSome) : s.copies = 1 ↔ s.resent = 0 := by
  have hm : s.host.sock.wndSend.isEstimatingRtt = true := by
    unfold sampleOf at hsmp
    split at hsmp
    · split_ifs at hsmp with h
      · exact h.2.2.2.1
      · cases hsmp
    · cases hsmp
  rw [(logInv_reached hr).copies hm]
  omega

theorem sampled_once_first : ∃ s,
    exec logStep (.start ⟨clientIp, 5678⟩ ⟨serverIp, 1234⟩) sentByte = some s ∧
      (sampleOf s.host (.packet 250000 (bareAck 2))).isSome ∧ (s.copies = 1 ↔ s.resent = 0) := by
  obtain ⟨s, hs⟩ : ∃ s, exec logStep (.start ⟨clientIp, 5678⟩ ⟨serverIp, 1234⟩) sentByte = some s :=
    ⟨_, rfl⟩
  have hsmp : (exec logStep (.start ⟨clientIp, 5678⟩ ⟨serverIp, 1234⟩) sentByte).map
      (fun s => (sampleOf s.host (.packet 250000 (bareAck 2))).isSome) = some true := by decide
  rw [hs, Option.map_some, Option.some.injEq] at hsmp
  have hok : ∀ e ∈ sentByte, ∀ s, LogAcksOk s e := by
    intro e he s
    rcases List.mem_pair.1 he with rfl | rfl
    · trivial
    · trivial
  exact ⟨s, hs, hsmp, sampled_once (ReachBy.of_execBy sentByte hok hs) hsmp⟩

/-- **A sample of a segment that was sent twice.**  The timer runs out after 500 ms, and the ACK for
    the second copy comes 250 ms later. -/
theorem sampled_twice : ∃ s, exec logStep (.start ⟨clientIp, 5678⟩ ⟨serverIp, 1234⟩)
      (sentByte ++ [.alarm, .retransPass]) = some s ∧
    sampleOf s.host (.packet 750000 (bareAck 2)) = some 750000 ∧ s.copies = 2 := by
  let es : List SockEv := sentByte ++ [.alarm, .retransPass]
  obtain ⟨s, hs⟩ : ∃ s, exec logStep (.start ⟨clientIp, 5678⟩ ⟨serverIp, 1234⟩) es = some s :=
    ⟨_, rfl⟩
  have hsmp : (exec logStep (.start ⟨clientIp, 5678⟩ ⟨serverIp, 1234⟩) es).map
      (fun s => (sampleOf s.host (.packet 750000 (bareAck 2)), s.copies)) =
        some (some 750000, 2) := by decide
  rw [hs, Option.map_some, Option.some.injEq, Prod.mk.injEq] at hsmp
  exact ⟨s, hs, hsmp⟩

end Tju
