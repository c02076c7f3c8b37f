/-
  The two segmentation loops.

  `sending_thread` and `retrans_thread` cut a range of `sending_buf` into
  segments, each in its own loop.  A list of packets is `Segmented seq data` if
  the packets are not too long, none of them is empty, their numbers follow on
  each other from `seq` on, and together they carry `data`.

  * `Emits.segmented`: what both loops emit is segmented;
  * `segmentation`: what a batch of `sending_thread` and a retransmission send,
    that both loops are left by their own test, and where the cursors are then.
-/
import TjuTcp.Congestion

namespace Tju

open Lib

/-- The data of a packet. -/
def payload (p : Buf) : List Byte :=
  (p.drop (getHlen p).toNat).take (getPlen p - getHlen p).toNat

/-- The packets are numbered from `seq` on. -/
def Consecutive (seq : BitVec 32) : List Buf → Prop
  | [] => True
  | p :: out => getSeq p = seq ∧ Consecutive (seq + .ofNat 32 (payload p).length) out

/-- The packets `out` carry `data`, with the numbers from `seq` on. -/
structure Segmented (seq : BitVec 32) (data : List Byte) (out : List Buf) : Prop where
  dlen : ∀ p ∈ out, 1 ≤ (payload p).length ∧ (payload p).length ≤ maxDlen
  plen : ∀ p ∈ out, p.length = 20 + (payload p).length ∧ p.length ≤ maxLen
  numbers : Consecutive seq out
  data : out.flatMap payload = data

/-- What `sending_thread` reads before a batch. -/
def SenderWindow.sample (w : SenderWindow) : Sample := ⟨w.windowSize, w.ackCnt, w.base, w.nextseq⟩

variable {h : Host} {sock : TjuTcp} {off off' : ℕ} {seq : BitVec 32} {out : List Buf}

/-! ## Segments -/

theorem Consecutive.snoc {p : Buf} {out : List Buf} {seq : BitVec 32} (hq : Consecutive seq out)
    (hp : getSeq p = seq + .ofNat 32 (out.flatMap payload).length) :
    Consecutive seq (out ++ [p]) := by
  induction out generalizing seq with
  | nil => exact ⟨by simpa using hp, trivial⟩
  | cons q out ih =>
    refine ⟨hq.1, ih hq.2 ?_⟩
    rw [hp, List.flatMap_cons, List.length_append, BitVec.ofNat_add, BitVec.add_assoc]

theorem dataPacket_segment (sock : TjuTcp) (seq : BitVec 32) {data : List Byte}
    (hd : data.length ≤ maxDlen) :
    payload (dataPacket sock seq data) = data ∧ getSeq (dataPacket sock seq data) = seq ∧
      (dataPacket sock seq data).length = 20 + data.length := by
  refine ⟨?_, dataPacket_seq hd, dataPacket_length hd⟩
  unfold payload
  rw [dataPacket_hlen hd, dataPacket_dlen hd, dataPacket_drop hd, List.take_length]

/-- **The segments of a range** carry it, one after the other. -/
theorem Emits.segmented (he : Emits sock off seq out off') :
    Segmented seq ((sock.sendingBuf.drop off).take (off' - off)) out := by
  induction he with
  | nil => exact ⟨by simp, by simp, trivial, by simp⟩
  | @snoc out mid len hprev h1 h2 h3 ih =>
    have hle := hprev.le
    have hlen : ((sock.sendingBuf.drop mid).take len).length = len := by
      simp only [List.length_take, List.length_drop]
      omega
    have hsofar : ((sock.sendingBuf.drop off).take (mid - off)).length = mid - off := by
      simp only [List.length_take, List.length_drop]
      omega
    obtain ⟨hp, hseq, hplen⟩ := dataPacket_segment sock (seq + .ofNat 32 (mid - off))
      (show ((sock.sendingBuf.drop mid).take len).length ≤ maxDlen by rw [hlen]; exact h2)
    refine ⟨fun p hmem => ?_, fun p hmem => ?_, ih.numbers.snoc ?_, ?_⟩
    · rcases List.mem_append.1 hmem with hmem | hmem
      · exact ih.dlen p hmem
      · rw [List.mem_singleton.1 hmem, hp, hlen]
        exact ⟨h1, h2⟩
    · rcases List.mem_append.1 hmem with hmem | hmem
      · exact ih.plen p hmem
      · rw [List.mem_singleton.1 hmem, hp, hplen, hlen]
        refine ⟨rfl, ?_⟩
        simp only [maxDlen, maxLen] at h2 ⊢
        omega
    · rw [hseq, ih.data, hsofar]
    · -- the range and the next piece of the buffer
      rw [List.flatMap_append, ih.data, List.flatMap_singleton, hp,
        show mid + len - off = mid - off + len by omega, List.take_add, List.drop_drop,
        show off + (mid - off) = mid by omega]

/-! ## The two loops -/

/-- How far `sending_thread` may send: to the end of the buffer, and of the window.  The sum is one
    of 32 bits. -/
def sendLimit (sock : TjuTcp) : ℕ :=
  min sock.sendingBuf.length (sock.wndSend.ackCnt + sock.wndSend.windowSize).toNat

/-- The limit, as long as the sum does not wrap. -/
theorem sendLimit_eq
    (hw : sock.wndSend.ackCnt.toNat + sock.wndSend.windowSize.toNat < 2 ^ 32) :
    sendLimit sock = min sock.sendingBuf.length
      (sock.wndSend.ackCnt.toNat + sock.wndSend.windowSize.toNat) := by
  unfold sendLimit
  rw [BitVec.toNat_add, Nat.mod_eq_of_lt hw]

theorem windowSize_reached {a b : TjuSockAddr} (hr : Reach sockStep (establishedHost a b) h) :
    h.sock.wndSend.windowSize.toNat < 2 ^ 16 := by
  have hrwnd : h.sock.wndSend.rwnd.toNat < 2 ^ 16 := window_inv (I := fun w => w.rwnd.toNat < 2 ^ 16)
    (fun hv hs => by rw [hs.rwnd]; exact hv) (by decide)
    (fun w ack adv _ => by rw [ackWindow_rwnd]; bv_omega) (fun w hw => hw) hr
  rw [(congInv_reached hr).windowSize, cmin_toNat]
  omega

/-- **The sum never wraps**: a window is no larger than a packet can advertise. -/
theorem sendLimit_reached {a b : TjuSockAddr} (hr : Reach sockStep (establishedHost a b) h)
    (hc : Cursors h.sock) :
    h.sock.wndSend.ackCnt.toNat + h.sock.wndSend.windowSize.toNat < 2 ^ 32 := by
  have hw := windowSize_reached hr
  have h1 := hc.ack_le
  have h2 := hc.have_le
  have h3 := hc.len_le
  simp only [maxSockBufSize, maxLen] at h3
  omega

/-- A batch from the state of `h` has sent what was not sent, up to the limit, and its loop is left
    by its own test. -/
structure BatchSent (h : Host) (r : Host × List Buf) : Prop where
  segments : Segmented h.sock.wndSend.nextseq ((h.sock.sendingBuf.drop h.sock.haveSendLen.toNat).take
    (sendLimit h.sock - h.sock.haveSendLen.toNat)) r.2
  nextseq : r.1.sock.wndSend.nextseq =
    h.sock.wndSend.nextseq + .ofNat 32 (sendLimit h.sock - h.sock.haveSendLen.toNat)
  haveSendLen : r.1.sock.haveSendLen =
    h.sock.haveSendLen + (sendLimit h.sock - h.sock.haveSendLen.toNat : ℕ)
  sendingBuf : r.1.sock.sendingBuf = h.sock.sendingBuf
  ackCnt : r.1.sock.wndSend.ackCnt = h.sock.wndSend.ackCnt
  base : r.1.sock.wndSend.base = h.sock.wndSend.base
  exit : ¬ BitVec.ofInt 32 r.1.sock.haveSendLen < cmin (.ofNat 32 h.sock.sendingBuf.length)
    (h.sock.wndSend.ackCnt + h.sock.wndSend.windowSize)

/-- A retransmission from the state of `h` has sent what is in flight, up to `nextseq`, and has moved
    no cursor. -/
structure Resent (h h' : Host) (out : List Buf) : Prop where
  segments : Segmented h.sock.wndSend.base ((h.sock.sendingBuf.drop h.sock.wndSend.ackCnt.toNat).take
    (h.sock.haveSendLen.toNat - h.sock.wndSend.ackCnt.toNat)) out
  last : h.sock.wndSend.base + .ofNat 32
    (h.sock.haveSendLen.toNat - h.sock.wndSend.ackCnt.toNat) = h.sock.wndSend.nextseq
  same : SameCursors h.sock h'.sock

/-- Where the retransmission loop, started on `h`, is left. -/
def retransLoop (h : Host) : RetransLoop :=
  let haveSent : BitVec 32 := .ofInt 32 h.sock.haveSendLen
  loop (fun st => st.wndAckCnt < haveSent) (retransRound haveSent) haveSent.toNat
    ⟨h, h.sock.wndSend.ackCnt, h.sock.wndSend.base, []⟩

theorem sendBatch_sent (now : ℕ) (hc : Cursors h.sock) :
    BatchSent h (sendBatch now h.sock.wndSend.sample h) := by
  have h1 := hc.ack_le
  have h2 := hc.have_le
  have h3 := hc.len_le
  have hsent : h.sock.haveSendLen = (h.sock.haveSendLen.toNat : ℕ) := by omega
  obtain ⟨n, hn, hhave, hnext, hem, -, hbuf, hack, hbase, -⟩ :=
    sendBatch_spec now h.sock.wndSend.sample hsent (by omega) h3
  have hlim : n = max h.sock.haveSendLen.toNat (sendLimit h.sock) := hn
  have hlen : n - h.sock.haveSendLen.toNat = sendLimit h.sock - h.sock.haveSendLen.toNat := by omega
  have hseg := hem.segmented
  rw [hlen] at hseg hnext
  refine ⟨hseg, hnext, by rw [hhave]; omega, hbuf, hack, hbase, ?_⟩
  rw [hhave, BitVec.not_lt, BitVec.le_def, cmin_toNat, BitVec.ofInt_natCast]
  simp only [maxSockBufSize, maxLen] at h3
  rw [BitVec.toNat_ofNat, BitVec.toNat_ofNat, Nat.mod_eq_of_lt (by omega),
    Nat.mod_eq_of_lt (by unfold sendLimit at hlim; omega)]
  exact (le_max_right _ _).trans hlim.ge

theorem retransmit_resent (hc : Cursors h.sock) :
    ∃ h' out, retransmit h = some (h', out) ∧ Resent h h' out := by
  have hfl := hc.flight_toNat
  obtain ⟨h', out, he, -, hsame, -, hem⟩ := retransmit_spec hc
  refine ⟨h', out, he, hem.segmented, ?_, hsame⟩
  rw [← hfl, Nat.add_sub_cancel_left, BitVec.ofNat_toNat, BitVec.setWidth_eq]
  bv_omega

/-- The retransmission loop is left by its own test. -/
theorem retransLoop_exit (hc : Cursors h.sock) :
    (retransLoop h).wndAckCnt = .ofInt 32 h.sock.haveSendLen := by
  have h1 := hc.ack_le
  have h2 := hc.have_le
  have h3 := hc.len_le
  simp only [maxSockBufSize, maxLen] at h3
  have hsent : (BitVec.ofInt 32 h.sock.haveSendLen).toNat = h.sock.haveSendLen.toNat := by bv_omega
  obtain ⟨st, hst, hi⟩ := retransLoop_spec (h := h) (.ofInt 32 h.sock.haveSendLen) (by omega)
    (by omega)
  unfold retransLoop
  rw [hst]
  exact BitVec.eq_of_toNat_eq hi.ackCnt

/-- The process as the retransmission loop finds it. -/
def Host.beforeResend (h : Host) : Host :=
  { h with sock := if h.timeoutFlag then
      { h.sock with wndSend := timeoutWindow h.sock.wndSend } else h.sock }

theorem beforeResend_same (h : Host) : SameCursors h.sock h.beforeResend.sock := by
  unfold Host.beforeResend
  dsimp only
  split_ifs <;> exact ⟨rfl, rfl, rfl, rfl, rfl⟩

theorem retransmit_eq (h : Host) : retransmit h =
    let h₁ := h.beforeResend
    let st := retransLoop h₁
    if h₁.sock.wndSend.ackCnt < .ofInt 32 h₁.sock.haveSendLen ∧
        h₁.sock.sendingBuf.length < (BitVec.ofInt 32 h₁.sock.haveSendLen).toNat then none
    else some ({ st.host with
      retrans := false
      sock := { st.host.sock with isRetransing := false } }, st.out) := rfl

/-- **Segmentation.**  From every state in which the cursors are in order, a batch of
    `sending_thread` sends `sending_buf` from `have_send_len` up to the limit, and a retransmission
    sends it from `ack_cnt` up to `have_send_len`, each in segments of 1 to `MAX_DLEN` bytes with
    consecutive numbers; and both loops come to an end.  The limit is the exact one as long as the
    sum of `ack_cnt` and `window_size` stays below `2 ^ 32`. -/
theorem segmentation (now : ℕ) (hc : Cursors h.sock) :
    (h.sock.wndSend.ackCnt.toNat + h.sock.wndSend.windowSize.toNat < 2 ^ 32 →
        sendLimit h.sock = min h.sock.sendingBuf.length
          (h.sock.wndSend.ackCnt.toNat + h.sock.wndSend.windowSize.toNat)) ∧
      BatchSent h (sendBatch now h.sock.wndSend.sample h) ∧
      ∃ h' out, retransmit h = some (h', out) ∧ Resent h h' out ∧
        out = (retransLoop h.beforeResend).out ∧
        (retransLoop h.beforeResend).wndAckCnt = .ofInt 32 h.sock.haveSendLen := by
  have hsame := beforeResend_same h
  obtain ⟨h', out, he, hr⟩ := retransmit_resent hc
  refine ⟨sendLimit_eq, sendBatch_sent now hc, h', out, he, hr, ?_, ?_⟩
  · rw [retransmit_eq] at he
    dsimp only at he
    split_ifs at he
    cases he
    rfl
  · rw [retransLoop_exit (hc.congr hsame), hsame.haveSendLen]

/-- Two small exchanges open the window to four segments; then 1400 bytes are sent, and 1400 more
    are waiting. -/
def halfSent : List SockEv :=
  [.append (List.replicate 10 1), .sendPass 0, .packet 5 (bareAck 11),
    .append (List.replicate 10 2), .sendPass 6, .packet 7 (bareAck 21),
    .append (List.replicate 1400 3), .sendPass 8, .append (List.replicate 1400 4)]

/-- The client after `halfSent`. -/
def halfHost : Host := (exec sockStep clientHost halfSent).getD clientHost

/-- Both the batch and the retransmission are of two segments. -/
theorem segmentation_halfSent :
    (sendBatch 9 halfHost.sock.wndSend.sample halfHost).2.map List.length = [1395, 45] ∧
      BatchSent halfHost (sendBatch 9 halfHost.sock.wndSend.sample halfHost) ∧
      ∃ h' out, retransmit halfHost = some (h', out) ∧ out.map List.length = [1395, 45] ∧
        Resent halfHost h' out := by
  have hrun : exec sockStep clientHost halfSent = some halfHost :=
    exec_getD (by decide +kernel) clientHost
  have hguard : Along sockStep AcksOk clientHost halfSent := by decide +kernel
  have hc : Cursors halfHost.sock := (ReachBy.of_along halfSent hguard hrun).inv
    (I := fun h => Cursors h.sock) (establishedHost_cursors _ _) fun _ _ _ => cursors_step
  obtain ⟨-, hbatch, h', out, he, hresent, -⟩ := segmentation 9 hc
  have hlen : (retransmit halfHost).map (fun r => r.2.map List.length) = some [1395, 45] := by
    decide +kernel
  rw [he] at hlen
  exact ⟨by decide +kernel, hbatch, h', out, he, Option.some.inj hlen, hresent⟩

end Tju
