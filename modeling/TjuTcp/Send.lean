/-
  The sender: the cursors into `sending_buf` and the segments that are sent.

  * `Emits sock off seq out off'`: the packets `out` carry `sending_buf` from
    `off` to `off'`, cut into segments of at most `MAX_DLEN` bytes, with
    consecutive sequence numbers from `seq` on;
  * `Cursors`: `ack_cnt`, `have_send_len` and `sending_len` are in order, and
    `nextseq - base` is what is in flight;
  * `sendBatch_spec`, `retransThread_spec`: what the two threads send, and what
    they leave unchanged.
-/
import TjuTcp.Tcp

namespace Tju

open Lib

/-! ## What the sending half leaves unchanged -/

/-- The parts of a socket that no operation of the sending half touches. -/
structure SameRest (s t : TjuTcp) : Prop where
  state : t.state = s.state
  localAddr : t.establishedLocalAddr = s.establishedLocalAddr
  remoteAddr : t.establishedRemoteAddr = s.establishedRemoteAddr
  receivedBuf : t.receivedBuf = s.receivedBuf
  wndRecv : t.wndRecv = s.wndRecv
  packetFIN : t.packetFIN = s.packetFIN

/-- The cursors of the send window. -/
structure SameCursors (s t : TjuTcp) : Prop where
  sendingBuf : t.sendingBuf = s.sendingBuf
  haveSendLen : t.haveSendLen = s.haveSendLen
  ackCnt : t.wndSend.ackCnt = s.wndSend.ackCnt
  base : t.wndSend.base = s.wndSend.base
  nextseq : t.wndSend.nextseq = s.wndSend.nextseq

theorem SameRest.refl (s : TjuTcp) : SameRest s s := ⟨rfl, rfl, rfl, rfl, rfl, rfl⟩

theorem SameCursors.refl (s : TjuTcp) : SameCursors s s := ⟨rfl, rfl, rfl, rfl, rfl⟩

theorem SameRest.trans {s t u : TjuTcp} (h : SameRest s t) (h' : SameRest t u) : SameRest s u :=
  ⟨h'.state.trans h.state, h'.localAddr.trans h.localAddr, h'.remoteAddr.trans h.remoteAddr,
    h'.receivedBuf.trans h.receivedBuf, h'.wndRecv.trans h.wndRecv, h'.packetFIN.trans h.packetFIN⟩

theorem SameRest.dataPacket {s t : TjuTcp} (h : SameRest s t) : dataPacket t = dataPacket s := by
  funext seq data
  simp only [Tju.dataPacket, h.localAddr, h.remoteAddr]

/-! ## Segments -/

/-- `out` carries `sending_buf[off .. off')` in segments numbered from `seq` on. -/
inductive Emits (sock : TjuTcp) (off : ℕ) (seq : BitVec 32) : List Buf → ℕ → Prop
  | nil : Emits sock off seq [] off
  | snoc {out : List Buf} {mid len : ℕ} : Emits sock off seq out mid → 1 ≤ len → len ≤ maxDlen →
      mid + len ≤ sock.sendingBuf.length →
      Emits sock off seq (out ++ [dataPacket sock (seq + .ofNat 32 (mid - off))
        ((sock.sendingBuf.drop mid).take len)]) (mid + len)

variable {sock : TjuTcp} {off off' : ℕ} {seq : BitVec 32} {out : List Buf}

theorem Emits.le (h : Emits sock off seq out off') : off ≤ off' := by
  induction h with
  | nil => exact le_rfl
  | snoc _ _ _ _ ih => omega

/-- Every packet carries a non-empty piece of the range. -/
theorem Emits.mem (h : Emits sock off seq out off') : ∀ p ∈ out, ∃ mid len, off ≤ mid ∧ 1 ≤ len ∧
    len ≤ maxDlen ∧ mid + len ≤ off' ∧ mid + len ≤ sock.sendingBuf.length ∧
    p = dataPacket sock (seq + .ofNat 32 (mid - off)) ((sock.sendingBuf.drop mid).take len) := by
  induction h with
  | nil => intro p hp; cases hp
  | @snoc out mid len hprev h1 h2 h3 ih =>
    intro p hp
    rcases List.mem_append.1 hp with hp | hp
    · obtain ⟨m, l, hm, hl1, hl2, hle, hlen, rfl⟩ := ih p hp
      exact ⟨m, l, hm, hl1, hl2, by omega, hlen, rfl⟩
    · simp only [List.mem_singleton] at hp
      exact ⟨mid, len, hprev.le, h1, h2, le_rfl, h3, hp⟩

theorem dataPacket_flags (sock : TjuTcp) (seq : BitVec 32) (data : List Byte) :
    getFlags (dataPacket sock seq data) = noFlag := by
  obtain ⟨rest, hp⟩ := createPacketBuf_wire sock.establishedLocalAddr.port
    sock.establishedRemoteAddr.port seq 0 (defaultHeaderLen + .ofNat 16 data.length) noFlag 1 0 data
    data.length
  exact (congrArg getFlags hp).trans (getFlags_wire _ _)

theorem sendToLayer3_flags {p : Buf} {len : ℕ} (h : getFlags p = noFlag) :
    ∀ q ∈ sendToLayer3 p len, getFlags q = noFlag := by
  intro q hq
  unfold sendToLayer3 at hq
  split_ifs at hq
  · cases hq
  · rw [List.mem_singleton.1 hq]; exact h

/-- A data packet on the wire. -/
theorem dataPacket_eq {data : List Byte} (h : data.length ≤ maxDlen) :
    dataPacket sock seq data = wire ⟨sock.establishedLocalAddr.port, sock.establishedRemoteAddr.port,
      seq, 0, 20, 20 + .ofNat 16 data.length, noFlag, 1, 0⟩ data := by
  unfold dataPacket
  simp only [maxDlen] at h
  rw [show defaultHeaderLen = 20 from rfl]
  exact createPacketBuf_eq (by bv_omega)

section
variable {data : List Byte} (h : data.length ≤ maxDlen)
include h

theorem dataPacket_seq : getSeq (dataPacket sock seq data) = seq := by
  rw [dataPacket_eq h, getSeq_wire]

theorem dataPacket_length : (dataPacket sock seq data).length = 20 + data.length := by
  rw [dataPacket_eq h, wire_length]

theorem dataPacket_drop : (dataPacket sock seq data).drop 20 = data := by
  rw [dataPacket_eq h, wire_drop]

theorem dataPacket_hlen : (getHlen (dataPacket sock seq data)).toNat = 20 := by
  rw [dataPacket_eq h, getHlen_wire]
  rfl

theorem dataPacket_dlen : (getPlen (dataPacket sock seq data) -
    getHlen (dataPacket sock seq data)).toNat = data.length := by
  rw [dataPacket_eq h, getPlen_wire, getHlen_wire]
  simp only [maxDlen] at h
  bv_omega

end

theorem nextDlen_toNat (rest : BitVec 32) : (nextDlen rest).toNat = min rest.toNat maxDlen := by
  unfold nextDlen
  split_ifs with h
  · simp only [maxDlen] at h ⊢; bv_omega
  · simp only [maxDlen] at h ⊢; bv_omega

theorem sendToLayer3_segment {p : Buf} {len : ℕ} (h : len ≤ maxDlen) :
    sendToLayer3 p (20 + len) = [p] := by
  exact if_neg (by simp only [maxDlen, maxLen] at h ⊢; omega)

theorem cmin_toNat (x y : BitVec 32) : (cmin x y).toNat = min x.toNat y.toNat := by
  unfold cmin; split_ifs with h <;> bv_omega

/-! ## `sending_thread` -/

theorem sendSample_eq_some_iff {h : Host} {smp : Sample} : sendSample h = some smp ↔
    h.sock.wndSend.windowSize ≠ 0 ∧ h.sock.haveSendLen < h.sock.sendingBuf.length ∧
      .ofInt 32 h.sock.haveSendLen < h.sock.wndSend.ackCnt + h.sock.wndSend.windowSize ∧
      h.sock.isRetransing = false ∧ smp = ⟨h.sock.wndSend.windowSize, h.sock.wndSend.ackCnt,
        h.sock.wndSend.base, h.sock.wndSend.nextseq⟩ := by
  unfold sendSample
  dsimp only
  constructor
  · intro he
    split_ifs at he with ht
    cases he
    exact ⟨ht.1, ht.2.1, ht.2.2.1, ht.2.2.2, rfl⟩
  · rintro ⟨h1, h2, h3, h4, rfl⟩
    exact if_pos ⟨h1, h2, h3, h4⟩

theorem sendRound_rest (now : ℕ) (tmpLen wndBase : BitVec 32) (st : SendLoop) :
    SameRest st.host.sock (sendRound now tmpLen wndBase st).host.sock := by
  unfold sendRound; dsimp only; split_ifs <;> exact ⟨rfl, rfl, rfl, rfl, rfl, rfl⟩

theorem sendLoop_rest (now : ℕ) (tmpLen wndBase : BitVec 32) (n : ℕ) (st : SendLoop) :
    SameRest st.host.sock (loop (fun st : SendLoop => .ofInt 32 st.host.sock.haveSendLen < tmpLen)
      (sendRound now tmpLen wndBase) n st).host.sock :=
  loop_inv (I := fun t : SendLoop => SameRest st.host.sock t.host.sock)
    (fun t hi _ => hi.trans (sendRound_rest now tmpLen wndBase t)) n (SameRest.refl _)

theorem sendBatch_rest (now : ℕ) (smp : Sample) (h : Host) :
    SameRest h.sock (sendBatch now smp h).1.sock := by
  have hl := sendLoop_rest now
    (cmin (.ofNat 32 h.sock.sendingBuf.length) (smp.ackCnt + smp.windowSize)) smp.base
    (cmin (.ofNat 32 h.sock.sendingBuf.length) (smp.ackCnt + smp.windowSize)).toNat
    ⟨h, smp.nextseq, []⟩
  exact ⟨hl.1, hl.2, hl.3, hl.4, hl.5, hl.6⟩

/-- A pass of `sending_thread` touches the sending half only. -/
theorem sendingThread_rest (now : ℕ) (h : Host) : SameRest h.sock (sendingThread now h).1.sock := by
  unfold sendingThread
  split
  · exact sendBatch_rest ..
  · exact SameRest.refl _

theorem sendRound_base (now : ℕ) (tmpLen wndBase : BitVec 32) (st : SendLoop) :
    (sendRound now tmpLen wndBase st).host.sock.wndSend.base = st.host.sock.wndSend.base := by
  have hs : ∀ e, (startSample now e st.host.sock.wndSend).base = st.host.sock.wndSend.base := by
    intro e; unfold startSample; split_ifs <;> rfl
  unfold sendRound
  dsimp only
  split_ifs <;> exact hs _

/-- A pass of `sending_thread` does not move `base`. -/
theorem sendingThread_base (now : ℕ) (h : Host) :
    (sendingThread now h).1.sock.wndSend.base = h.sock.wndSend.base := by
  unfold sendingThread
  split
  · exact loop_inv (I := fun t : SendLoop => t.host.sock.wndSend.base = h.sock.wndSend.base)
      (fun t hi _ => (sendRound_base ..).trans hi) _ rfl
  · rfl

theorem sendBatch_flags (now : ℕ) (smp : Sample) (h : Host) :
    ∀ p ∈ (sendBatch now smp h).2, getFlags p = noFlag := by
  let tmpLen := cmin (.ofNat 32 h.sock.sendingBuf.length) (smp.ackCnt + smp.windowSize)
  have hl : ∀ p ∈ (loop (fun st : SendLoop => .ofInt 32 st.host.sock.haveSendLen < tmpLen)
      (sendRound now tmpLen smp.base) tmpLen.toNat ⟨h, smp.nextseq, []⟩).out,
      getFlags p = noFlag :=
    loop_inv (I := fun st : SendLoop => ∀ p ∈ st.out, getFlags p = noFlag)
      (fun st hi _ p hp => (List.mem_append.1 hp).elim (hi p)
        (sendToLayer3_flags (dataPacket_flags ..) p)) tmpLen.toNat (fun p hp => by cases hp)
  exact hl

/-- `sending_thread` sends data packets only. -/
theorem sendingThread_flags (now : ℕ) (h : Host) :
    ∀ p ∈ (sendingThread now h).2, getFlags p = noFlag := by
  unfold sendingThread
  split
  · exact sendBatch_flags now _ h
  · intro p hp; cases hp

theorem sendRound_have (now : ℕ) (tmpLen wndBase : BitVec 32) (st : SendLoop) :
    (sendRound now tmpLen wndBase st).host.sock.haveSendLen = st.host.sock.haveSendLen +
      (nextDlen (tmpLen - .ofInt 32 st.host.sock.haveSendLen)).toNat := by
  unfold sendRound; dsimp only; split_ifs <;> rfl

/-- What the loop of `sending_thread`, started on the host `h`, has done so far. -/
structure SendLoopInv (smp : Sample) (h : Host) (n₀ m : ℕ) (st : SendLoop) (n : ℕ) : Prop where
  have_eq : st.host.sock.haveSendLen = n
  le : n₀ ≤ n
  bound : n ≤ max n₀ m
  nextseq : st.wndNextseq = smp.nextseq + .ofNat 32 (n - n₀)
  emits : Emits h.sock n₀ smp.nextseq st.out n
  rest : SameRest h.sock st.host.sock
  sendingBuf : st.host.sock.sendingBuf = h.sock.sendingBuf
  ackCnt : st.host.sock.wndSend.ackCnt = h.sock.wndSend.ackCnt
  base : st.host.sock.wndSend.base = h.sock.wndSend.base
  closeAck : st.host.closeAck = h.closeAck

theorem startSample_same (now : ℕ) (e : BitVec 32) (w : SenderWindow) :
    (startSample now e w).ackCnt = w.ackCnt ∧ (startSample now e w).base = w.base := by
  unfold startSample; split_ifs <;> exact ⟨rfl, rfl⟩

theorem sendRound_inv (now : ℕ) {smp : Sample} {h : Host} {n₀ n : ℕ} {tmpLen : BitVec 32}
    {st : SendLoop} (hn₀ : n₀ ≤ h.sock.sendingBuf.length)
    (hm : tmpLen.toNat ≤ h.sock.sendingBuf.length)
    (hbuf : h.sock.sendingBuf.length ≤ maxSockBufSize)
    (hi : SendLoopInv smp h n₀ tmpLen.toNat st n)
    (hg : BitVec.ofInt 32 st.host.sock.haveSendLen < tmpLen) :
    ∃ n', n < n' ∧ SendLoopInv smp h n₀ tmpLen.toNat (sendRound now tmpLen smp.base st) n' := by
  have hle := hi.le
  have hbd := hi.bound
  simp only [maxSockBufSize, maxLen] at hbuf
  have hn : n < tmpLen.toNat := by rw [hi.have_eq] at hg; bv_omega
  set len := (nextDlen (tmpLen - BitVec.ofInt 32 st.host.sock.haveSendLen)).toNat with hlen
  have hlen' : len = min (tmpLen.toNat - n) maxDlen := by
    rw [hlen, nextDlen_toNat, hi.have_eq]; congr 1; bv_omega
  have hlen1 : 1 ≤ len := by simp only [maxDlen] at hlen'; omega
  have hlenM : len ≤ maxDlen := by omega
  -- the timer and the measurement touch no cursor
  have hsame := startSample_same now (st.wndNextseq +
    nextDlen (tmpLen - BitVec.ofInt 32 st.host.sock.haveSendLen)) st.host.sock.wndSend
  refine ⟨n + len, by omega, ?_⟩
  have hout : (sendRound now tmpLen smp.base st).out = st.out ++
      [dataPacket h.sock (smp.nextseq + .ofNat 32 (n - n₀)) ((h.sock.sendingBuf.drop n).take len)] := by
    simp only [sendRound, hi.rest.dataPacket, hi.nextseq, hi.sendingBuf]
    rw [← hlen, sendToLayer3_segment hlenM, hi.have_eq, Int.toNat_natCast]
  have hns : (sendRound now tmpLen smp.base st).wndNextseq =
      smp.nextseq + .ofNat 32 (n + len - n₀) := by
    show st.wndNextseq + nextDlen _ = _
    rw [hi.nextseq]
    bv_omega
  refine ⟨?_, by omega, by omega, hns, ?_, ?_, ?_, ?_, ?_, ?_⟩
  · rw [sendRound_have, ← hlen, hi.have_eq]; push_cast; ring
  · rw [hout]; exact hi.emits.snoc hlen1 hlenM (by omega)
  · exact hi.rest.trans (sendRound_rest ..)
  · rw [← hi.sendingBuf]; unfold sendRound; dsimp only; split_ifs <;> rfl
  · rw [← hi.ackCnt, ← hsame.1]; unfold sendRound; dsimp only; split_ifs <;> rfl
  · rw [← hi.base, ← hsame.2]; unfold sendRound; dsimp only; split_ifs <;> rfl
  · rw [← hi.closeAck]; unfold sendRound; dsimp only; split_ifs <;> rfl

/-- The loop of `sending_thread` is left with its test false. -/
theorem sendLoop_spec (now : ℕ) (smp : Sample) {h : Host} {n₀ : ℕ} (tmpLen : BitVec 32)
    (hn : h.sock.haveSendLen = n₀) (hn₀ : n₀ ≤ h.sock.sendingBuf.length)
    (hm : tmpLen.toNat ≤ h.sock.sendingBuf.length)
    (hbuf : h.sock.sendingBuf.length ≤ maxSockBufSize) :
    ∃ st n, loop (fun st : SendLoop => .ofInt 32 st.host.sock.haveSendLen < tmpLen)
        (sendRound now tmpLen smp.base) tmpLen.toNat ⟨h, smp.nextseq, []⟩ = st ∧
      SendLoopInv smp h n₀ tmpLen.toNat st n ∧ tmpLen ≤ .ofInt 32 st.host.sock.haveSendLen := by
  let I : SendLoop → Prop := fun st => ∃ n, SendLoopInv smp h n₀ tmpLen.toNat st n
  have hstart : I ⟨h, smp.nextseq, []⟩ :=
    ⟨n₀, hn, le_rfl, by omega, by simp, .nil, SameRest.refl _, rfl, rfl, rfl, rfl⟩
  have hstep : ∀ st, I st → decide (.ofInt 32 st.host.sock.haveSendLen < tmpLen) = true →
      I (sendRound now tmpLen smp.base st) := fun st ⟨n, hi⟩ hg => by
    obtain ⟨n', -, hi'⟩ := sendRound_inv now hn₀ hm hbuf hi (of_decide_eq_true hg)
    exact ⟨n', hi'⟩
  obtain ⟨n, hi⟩ := loop_inv hstep tmpLen.toNat hstart
  -- the measure is the number of bytes up to the limit
  have hexit := loop_exit (fun st : SendLoop => tmpLen.toNat - st.host.sock.haveSendLen.toNat) hstep
    (fun st ⟨n, hi⟩ hg => by
      have hg := of_decide_eq_true hg
      obtain ⟨n', hlt, hi'⟩ := sendRound_inv now hn₀ hm hbuf hi hg
      have h1 := hi.have_eq
      have h2 := hi'.have_eq
      have h3 := hi.bound
      simp only [maxSockBufSize, maxLen] at hbuf
      have hlt' : n < tmpLen.toNat := by rw [h1] at hg; bv_omega
      rw [h1, h2, Int.toNat_natCast, Int.toNat_natCast]
      omega) tmpLen.toNat hstart (by simp)
  exact ⟨_, n, rfl, hi, BitVec.not_lt.1 (of_decide_eq_false hexit)⟩

/-- How far the loop of `sending_thread` has come, whatever is in the buffer. -/
structure SendLoopAt (smp : Sample) (sent tmpLen : BitVec 32) (st : SendLoop) : Prop where
  nextseq : st.wndNextseq - smp.nextseq = .ofInt 32 st.host.sock.haveSendLen - sent
  le : sent ≤ .ofInt 32 st.host.sock.haveSendLen
  bound : .ofInt 32 st.host.sock.haveSendLen ≤ tmpLen

theorem sendRound_moves (now : ℕ) {smp : Sample} {sent tmpLen : BitVec 32} {st : SendLoop}
    (hi : SendLoopAt smp sent tmpLen st) (hg : BitVec.ofInt 32 st.host.sock.haveSendLen < tmpLen) :
    SendLoopAt smp sent tmpLen (sendRound now tmpLen smp.base st) ∧
      sent < .ofInt 32 (sendRound now tmpLen smp.base st).host.sock.haveSendLen := by
  obtain ⟨h1, h2, h3⟩ := hi
  have hd := nextDlen_toNat (tmpLen - BitVec.ofInt 32 st.host.sock.haveSendLen)
  have hhave : BitVec.ofInt 32 (sendRound now tmpLen smp.base st).host.sock.haveSendLen =
      BitVec.ofInt 32 st.host.sock.haveSendLen +
        nextDlen (tmpLen - BitVec.ofInt 32 st.host.sock.haveSendLen) := by
    rw [sendRound_have, BitVec.ofInt_add, BitVec.ofInt_natCast, BitVec.ofNat_toNat,
      BitVec.setWidth_eq]
  have hns : (sendRound now tmpLen smp.base st).wndNextseq =
      st.wndNextseq + nextDlen (tmpLen - BitVec.ofInt 32 st.host.sock.haveSendLen) := rfl
  simp only [maxDlen] at hd
  refine ⟨⟨?_, ?_, ?_⟩, ?_⟩
  · rw [hhave, hns]; bv_omega
  · rw [hhave]; bv_omega
  · rw [hhave]; bv_omega
  · rw [hhave]; bv_omega

/-- **A batch that has something to send** moves `nextseq`. -/
theorem sendBatch_moves (now : ℕ) (smp : Sample) {h : Host}
    (hlt : BitVec.ofInt 32 h.sock.haveSendLen <
      cmin (.ofNat 32 h.sock.sendingBuf.length) (smp.ackCnt + smp.windowSize)) :
    (sendBatch now smp h).1.sock.wndSend.nextseq ≠ smp.nextseq := by
  unfold sendBatch
  dsimp only
  generalize cmin (.ofNat 32 h.sock.sendingBuf.length) (smp.ackCnt + smp.windowSize) = tmpLen at *
  obtain ⟨n, hn⟩ : ∃ n, tmpLen.toNat = n + 1 := ⟨tmpLen.toNat - 1, by bv_omega⟩
  have hstart : SendLoopAt smp (.ofInt 32 h.sock.haveSendLen) tmpLen ⟨h, smp.nextseq, []⟩ :=
    ⟨by bv_omega, BitVec.le_refl _, by bv_omega⟩
  have hfirst := sendRound_moves now hstart hlt
  rw [hn]
  unfold loop
  rw [if_pos (decide_eq_true hlt)]
  obtain ⟨⟨h1, -, -⟩, h2⟩ := loop_inv (I := fun st => SendLoopAt smp (.ofInt 32 h.sock.haveSendLen)
      tmpLen st ∧ BitVec.ofInt 32 h.sock.haveSendLen < .ofInt 32 st.host.sock.haveSendLen)
    (fun st hi hg => sendRound_moves now hi.1 (of_decide_eq_true hg)) n hfirst
  intro heq
  rw [heq] at h1
  bv_omega

/-- **A batch of `sending_thread`.**  Whatever was sampled, the batch sends `sending_buf` from
    `have_send_len` up to the limit `tmp_len`, in segments, and moves both cursors there. -/
theorem sendBatch_spec (now : ℕ) (smp : Sample) {h : Host} {n₀ : ℕ} (hn : h.sock.haveSendLen = n₀)
    (hn₀ : n₀ ≤ h.sock.sendingBuf.length) (hbuf : h.sock.sendingBuf.length ≤ maxSockBufSize) :
    ∃ n, n = max n₀ (min h.sock.sendingBuf.length (smp.ackCnt + smp.windowSize).toNat) ∧
      (sendBatch now smp h).1.sock.haveSendLen = n ∧
      (sendBatch now smp h).1.sock.wndSend.nextseq = smp.nextseq + .ofNat 32 (n - n₀) ∧
      Emits h.sock n₀ smp.nextseq (sendBatch now smp h).2 n ∧
      SameRest h.sock (sendBatch now smp h).1.sock ∧
      (sendBatch now smp h).1.sock.sendingBuf = h.sock.sendingBuf ∧
      (sendBatch now smp h).1.sock.wndSend.ackCnt = h.sock.wndSend.ackCnt ∧
      (sendBatch now smp h).1.sock.wndSend.base = h.sock.wndSend.base ∧
      (sendBatch now smp h).1.closeAck = h.closeAck := by
  have hm : (cmin (.ofNat 32 h.sock.sendingBuf.length) (smp.ackCnt + smp.windowSize)).toNat =
      min h.sock.sendingBuf.length (smp.ackCnt + smp.windowSize).toNat := by
    simp only [maxSockBufSize, maxLen] at hbuf
    rw [cmin_toNat, BitVec.toNat_ofNat, Nat.mod_eq_of_lt (by omega)]
  obtain ⟨st, n, hst, hi, hexit⟩ := sendLoop_spec now smp
    (cmin (.ofNat 32 h.sock.sendingBuf.length) (smp.ackCnt + smp.windowSize))
    hn hn₀ (by omega) hbuf
  have hle := hi.le
  have hbd := hi.bound
  rw [hm] at hbd
  have hnm : min h.sock.sendingBuf.length (smp.ackCnt + smp.windowSize).toNat ≤ n := by
    simp only [maxSockBufSize, maxLen] at hbuf
    rw [BitVec.le_def, hm, hi.have_eq] at hexit
    rw [BitVec.ofInt_natCast, BitVec.toNat_ofNat, Nat.mod_eq_of_lt (by omega)] at hexit
    exact hexit
  refine ⟨n, by omega, ?_⟩
  simp only [sendBatch, hst]
  exact ⟨hi.have_eq, hi.nextseq, hi.emits, hi.rest.trans ⟨rfl, rfl, rfl, rfl, rfl, rfl⟩,
    hi.sendingBuf, hi.ackCnt, hi.base, hi.closeAck⟩

/-! ## `retrans_thread` -/

theorem retransRound_rest (haveSent : BitVec 32) (st : RetransLoop) :
    SameRest st.host.sock (retransRound haveSent st).host.sock := by
  unfold retransRound; dsimp only; split_ifs <;> exact ⟨rfl, rfl, rfl, rfl, rfl, rfl⟩

/-- The process behind the first round of the retransmission loop. -/
def Host.resending (h : Host) : Host :=
  { startTimer h with sock := { h.sock with isRetransing := true } }

/-- The timer is not started again with another interval. -/
theorem retransRound_resending {haveSent : BitVec 32} {st : RetransLoop} {h : Host}
    (hi : st.host = h.resending) : (retransRound haveSent st).host = h.resending := by
  unfold retransRound
  dsimp only
  rw [hi]
  split_ifs
  · unfold Host.resending startTimer
    dsimp only
    congr 1
    split_ifs <;> rfl
  · rfl

/-- **A retransmission** starts the timer if there is something to retransmit. -/
theorem retransmit_host {h h' : Host} {out : List Buf} (he : retransmit h = some (h', out)) :
    ∃ h₁ : Host, h₁ = { h with sock := if h.timeoutFlag then
        { h.sock with wndSend := timeoutWindow h.sock.wndSend } else h.sock } ∧
      h' = { (if h.sock.wndSend.ackCnt < .ofInt 32 h.sock.haveSendLen then startTimer h₁ else h₁) with
        retrans := false
        sock := { h₁.sock with isRetransing := false } } := by
  refine ⟨_, rfl, ?_⟩
  unfold retransmit at he
  set sock : TjuTcp := if h.timeoutFlag then
    { h.sock with wndSend := timeoutWindow h.sock.wndSend } else h.sock with hsock
  have hhave : sock.haveSendLen = h.sock.haveSendLen := by rw [hsock]; split_ifs <;> rfl
  have hack : sock.wndSend.ackCnt = h.sock.wndSend.ackCnt := by rw [hsock]; split_ifs <;> rfl
  rw [← hhave, ← hack]
  dsimp only at he
  generalize hst : loop _ _ _ _ = st at he
  split_ifs at he
  cases he
  have hhost : st.host = if sock.wndSend.ackCnt < .ofInt 32 sock.haveSendLen then
      Host.resending { h with sock := sock } else { h with sock := sock } := by
    rw [← hst]
    split_ifs with hlt
    · obtain ⟨n, hn⟩ : ∃ n, (BitVec.ofInt 32 sock.haveSendLen).toNat = n + 1 :=
        ⟨(BitVec.ofInt 32 sock.haveSendLen).toNat - 1, by bv_omega⟩
      have hfirst : (retransRound (.ofInt 32 sock.haveSendLen)
          ⟨{ h with sock := sock }, sock.wndSend.ackCnt, sock.wndSend.base, []⟩).host =
          Host.resending { h with sock := sock } := by
        unfold retransRound
        dsimp only
        rw [if_pos rfl]
        rfl
      rw [hn]
      unfold loop
      rw [if_pos (decide_eq_true hlt)]
      exact loop_inv (I := fun st : RetransLoop => st.host = Host.resending { h with sock := sock })
        (fun st hi _ => retransRound_resending hi) n hfirst
    · refine (congrArg RetransLoop.host (loop_done ?_ _)).trans rfl
      exact decide_eq_false hlt
  rw [hhost]
  split_ifs <;> rfl

theorem retransmit_rest {h h' : Host} {out : List Buf} (he : retransmit h = some (h', out)) :
    SameRest h.sock h'.sock := by
  obtain ⟨h₁, rfl, rfl⟩ := retransmit_host he
  dsimp only
  split_ifs <;> exact ⟨rfl, rfl, rfl, rfl, rfl, rfl⟩

theorem retransmit_flags {h h' : Host} {out : List Buf} (he : retransmit h = some (h', out)) :
    ∀ p ∈ out, getFlags p = noFlag := by
  unfold retransmit at he
  dsimp only at he
  generalize hst : loop _ _ _ _ = st at he
  split_ifs at he
  all_goals
    cases he
    rw [← hst]
    exact loop_inv (I := fun st : RetransLoop => ∀ p ∈ st.out, getFlags p = noFlag)
      (fun st hi _ p hp => (List.mem_append.1 hp).elim (hi p)
        (sendToLayer3_flags (dataPacket_flags ..) p)) _ (fun p hp => by cases hp)

/-- The retransmission loop leaves the send window as it is. -/
theorem retransmit_wndSend {h h' : Host} {out : List Buf} (he : retransmit h = some (h', out)) :
    h'.sock.wndSend = if h.timeoutFlag then timeoutWindow h.sock.wndSend else h.sock.wndSend := by
  obtain ⟨h₁, rfl, rfl⟩ := retransmit_host he
  dsimp only
  split_ifs <;> rfl

theorem retransmit_base {h h' : Host} {out : List Buf} (he : retransmit h = some (h', out)) :
    h'.sock.wndSend.base = h.sock.wndSend.base := by
  rw [retransmit_wndSend he]
  split_ifs <;> rfl

/-- A pass of `retrans_thread` does not move `base`. -/
theorem retransThread_base {h h' : Host} {out : List Buf} (he : retransThread h = some (h', out)) :
    h'.sock.wndSend.base = h.sock.wndSend.base := by
  unfold retransThread at he
  split_ifs at he
  · cases he; rfl
  · cases he; rfl
  · cases he; rfl
  · exact retransmit_base he
  · cases he; rfl

/-- A pass of `retrans_thread` touches the sending half only. -/
theorem retransThread_rest {h h' : Host} {out : List Buf} (he : retransThread h = some (h', out)) :
    SameRest h.sock h'.sock := by
  unfold retransThread at he
  split_ifs at he
  · cases he; exact ⟨rfl, rfl, rfl, rfl, rfl, rfl⟩
  · cases he; exact ⟨rfl, rfl, rfl, rfl, rfl, rfl⟩
  · cases he; exact SameRest.refl _
  · exact retransmit_rest he
  · cases he; exact SameRest.refl _

/-- `retrans_thread` sends data packets only. -/
theorem retransThread_flags {h h' : Host} {out : List Buf} (he : retransThread h = some (h', out)) :
    ∀ p ∈ out, getFlags p = noFlag := by
  unfold retransThread at he
  split_ifs at he
  · cases he; exact sendToLayer3_flags (dataPacket_flags ..)
  · cases he; intro p hp; cases hp
  · cases he; intro p hp; cases hp
  · exact retransmit_flags he
  · cases he; intro p hp; cases hp

/-- The order of the cursors, and what is in flight. -/
structure Cursors (s : TjuTcp) : Prop where
  ack_le : (s.wndSend.ackCnt.toNat : ℤ) ≤ s.haveSendLen
  have_le : s.haveSendLen ≤ s.sendingBuf.length
  len_le : s.sendingBuf.length ≤ maxSockBufSize
  flight : s.wndSend.nextseq - s.wndSend.base = .ofInt 32 s.haveSendLen - s.wndSend.ackCnt

/-- What the retransmission loop, started on the host `h`, has done so far. -/
structure RetransLoopInv (h : Host) (b : ℕ) (st : RetransLoop) (n : ℕ) : Prop where
  ackCnt : st.wndAckCnt.toNat = n
  le : h.sock.wndSend.ackCnt.toNat ≤ n
  bound : n ≤ b
  base : st.wndBase = h.sock.wndSend.base + .ofNat 32 (n - h.sock.wndSend.ackCnt.toNat)
  emits : Emits h.sock h.sock.wndSend.ackCnt.toNat h.sock.wndSend.base st.out n
  rest : SameRest h.sock st.host.sock
  same : SameCursors h.sock st.host.sock
  closeAck : st.host.closeAck = h.closeAck

theorem retransRound_inv {h : Host} {haveSent : BitVec 32} {st : RetransLoop} {n : ℕ}
    (hb : haveSent.toNat ≤ h.sock.sendingBuf.length)
    (hi : RetransLoopInv h haveSent.toNat st n) (hg : st.wndAckCnt < haveSent) :
    ∃ n', n < n' ∧ RetransLoopInv h haveSent.toNat (retransRound haveSent st) n' := by
  have hle := hi.le
  have hack := hi.ackCnt
  have hn : n < haveSent.toNat := by bv_omega
  set len := (nextDlen (haveSent - st.wndAckCnt)).toNat with hlen
  have hlen' : len = min (haveSent.toNat - n) maxDlen := by
    rw [hlen, nextDlen_toNat]; congr 1; bv_omega
  have hlen1 : 1 ≤ len := by simp only [maxDlen] at hlen'; omega
  have hlenM : len ≤ maxDlen := by omega
  have hbase := hi.base
  have hout : (retransRound haveSent st).out = st.out ++
      [dataPacket h.sock (h.sock.wndSend.base + .ofNat 32 (n - h.sock.wndSend.ackCnt.toNat))
        ((h.sock.sendingBuf.drop n).take len)] := by
    simp only [retransRound, hi.rest.dataPacket, hi.base, hi.same.sendingBuf]
    rw [← hlen, sendToLayer3_segment hlenM, hack]
  refine ⟨n + len, by omega, ?_, by omega, by omega, ?_, ?_, ?_, ?_, ?_⟩
  · show (st.wndAckCnt + nextDlen _).toNat = _
    bv_omega
  · show st.wndBase + nextDlen _ = _
    rw [hbase]; bv_omega
  · rw [hout]; exact hi.emits.snoc hlen1 hlenM (by omega)
  · exact hi.rest.trans (retransRound_rest ..)
  · have hs := hi.same
    unfold retransRound; dsimp only; split_ifs <;> exact ⟨hs.1, hs.2, hs.3, hs.4, hs.5⟩
  · rw [← hi.closeAck]; unfold retransRound; dsimp only; split_ifs <;> rfl

/-- The retransmission loop is left with its test false. -/
theorem retransLoop_spec {h : Host} (haveSent : BitVec 32)
    (hb : haveSent.toNat ≤ h.sock.sendingBuf.length)
    (hle : h.sock.wndSend.ackCnt.toNat ≤ haveSent.toNat) :
    ∃ st, loop (fun st : RetransLoop => st.wndAckCnt < haveSent) (retransRound haveSent)
        haveSent.toNat ⟨h, h.sock.wndSend.ackCnt, h.sock.wndSend.base, []⟩ = st ∧
      RetransLoopInv h haveSent.toNat st haveSent.toNat := by
  let I : RetransLoop → Prop := fun st => ∃ n, RetransLoopInv h haveSent.toNat st n
  have hstart : I ⟨h, h.sock.wndSend.ackCnt, h.sock.wndSend.base, []⟩ :=
    ⟨_, rfl, le_rfl, hle, by simp, .nil, SameRest.refl _, SameCursors.refl _, rfl⟩
  have hstep : ∀ st, I st → decide (st.wndAckCnt < haveSent) = true → I (retransRound haveSent st) :=
    fun st ⟨n, hi⟩ hg => by
      obtain ⟨n', -, hi'⟩ := retransRound_inv hb hi (of_decide_eq_true hg)
      exact ⟨n', hi'⟩
  obtain ⟨n, hi⟩ := loop_inv hstep haveSent.toNat hstart
  have hexit := loop_exit (fun st : RetransLoop => haveSent.toNat - st.wndAckCnt.toNat) hstep
    (fun st ⟨n, hi⟩ hg => by
      obtain ⟨n', hlt, hi'⟩ := retransRound_inv hb hi (of_decide_eq_true hg)
      have h1 := hi.ackCnt
      have h2 := hi'.ackCnt
      have h3 := hi'.bound
      omega) haveSent.toNat hstart (by simp)
  have hn : n = haveSent.toNat := by
    have h1 := hi.ackCnt
    have h2 := hi.bound
    have h3 : haveSent ≤ _ := BitVec.not_lt.1 (of_decide_eq_false hexit)
    bv_omega
  exact ⟨_, rfl, hn ▸ hi⟩

/-- **A retransmission** sends all that is in flight again, and moves no cursor. -/
theorem retransmit_spec {h : Host} (hc : Cursors h.sock) :
    ∃ h' out, retransmit h = some (h', out) ∧ SameRest h.sock h'.sock ∧
      SameCursors h.sock h'.sock ∧ h'.closeAck = h.closeAck ∧
      Emits h.sock h.sock.wndSend.ackCnt.toNat h.sock.wndSend.base out h.sock.haveSendLen.toNat := by
  have h1 := hc.ack_le
  have h2 := hc.have_le
  have h3 := hc.len_le
  simp only [maxSockBufSize, maxLen] at h3
  have hsent : (BitVec.ofInt 32 h.sock.haveSendLen).toNat = h.sock.haveSendLen.toNat := by bv_omega
  -- the congestion window is reset on a timeout; that is no cursor
  set sock : TjuTcp := if h.timeoutFlag then
    { h.sock with wndSend := timeoutWindow h.sock.wndSend } else h.sock with hsock
  have hrest : SameRest h.sock sock := by
    rw [hsock]; split_ifs <;> exact ⟨rfl, rfl, rfl, rfl, rfl, rfl⟩
  have hsame : SameCursors h.sock sock := by rw [hsock]; split_ifs <;> exact ⟨rfl, rfl, rfl, rfl, rfl⟩
  obtain ⟨st, hst, hi⟩ := retransLoop_spec (h := { h with sock := sock })
    (.ofInt 32 h.sock.haveSendLen)
    (by show _ ≤ sock.sendingBuf.length; rw [hsame.sendingBuf]; omega)
    (by show sock.wndSend.ackCnt.toNat ≤ _; rw [hsame.ackCnt]; omega)
  refine ⟨{ st.host with retrans := false, sock := { st.host.sock with isRetransing := false } },
    st.out, ?_, ?_, ?_, hi.closeAck, ?_⟩
  · unfold retransmit
    simp only [← hsock, hsame.haveSendLen, hst]
    exact if_neg (by rw [hsame.sendingBuf]; omega)
  · have hr := hrest.trans hi.rest
    exact ⟨hr.1, hr.2, hr.3, hr.4, hr.5, hr.6⟩
  · have hs := hi.same
    exact ⟨hs.1.trans hsame.1, hs.2.trans hsame.2, hs.3.trans hsame.3, hs.4.trans hsame.4,
      hs.5.trans hsame.5⟩
  · have he := hi.emits
    have hem : ∀ {o o'} {q : BitVec 32} {l}, Emits sock o q l o' → Emits h.sock o q l o' := by
      intro o o' q l hem
      induction hem with
      | nil => exact .nil
      | snoc _ a1 a2 a3 ih =>
        rw [hrest.dataPacket, hsame.sendingBuf]
        exact ih.snoc a1 a2 (by rwa [hsame.sendingBuf] at a3)
    have he' := hem he
    rw [hsent] at he'
    simpa only [hsame.ackCnt, hsame.base] using he'

/-- **A pass of `retrans_thread`** moves no cursor; it sends nothing, or a zero-window probe, or
    what is in flight. -/
theorem retransThread_spec {h : Host} (hc : Cursors h.sock) :
    ∃ h' out, retransThread h = some (h', out) ∧ SameRest h.sock h'.sock ∧
      SameCursors h.sock h'.sock ∧ h'.closeAck = h.closeAck ∧
      (out = [] ∨ out = [probePacket h.sock] ∨
        Emits h.sock h.sock.wndSend.ackCnt.toNat h.sock.wndSend.base out
          h.sock.haveSendLen.toNat) := by
  unfold retransThread
  split_ifs
  · exact ⟨_, _, rfl, SameRest.refl _, SameCursors.refl _, rfl, Or.inr (Or.inl rfl)⟩
  · exact ⟨_, _, rfl, ⟨rfl, rfl, rfl, rfl, rfl, rfl⟩, ⟨rfl, rfl, rfl, rfl, rfl⟩, rfl, Or.inl rfl⟩
  · exact ⟨_, _, rfl, SameRest.refl _, SameCursors.refl _, rfl, Or.inl rfl⟩
  · obtain ⟨h', out, he, hr, hs, hca, hem⟩ := retransmit_spec hc
    exact ⟨h', out, he, hr, hs, hca, Or.inr (Or.inr hem)⟩
  · exact ⟨_, _, rfl, SameRest.refl _, SameCursors.refl _, rfl, Or.inl rfl⟩

end Tju
