/-
  The bytes of a retransmission.

  A pass of `retrans_thread` reads `ack_cnt`, `have_send_len` and `base` one
  after the other.  The handler updates `ack_cnt` and `base` one after the
  other too, and without `send_lock`, so that a pass may see the two fields of
  different ACKs: an offset into `sending_buf` and a number that do not belong
  together.

  * `ProcInv`: where the cursors are in the stream, with genuine ACKs;
  * `PassInv`: what the pass has read, as long as it reads both fields of one
    ACK, or has nothing to send;
  * `resent_bytes`: then every segment it sends carries the right bytes.
-/
import TjuTcp.Interleave
import TjuTcp.SendCursors
import TjuTcp.Lib.Simulation

namespace Tju

open Lib

/-- How many bytes of `sending_buf` are sent. -/
def Proc.sentLen (s : Proc) : ℕ := s.host.sock.haveSendLen.toNat + s.sender.inAir.toNat

/-- The numbers that the handler works with. -/
def HandleOk (s : Proc) : Prop :=
  let w := s.host.sock.wndSend
  match s.handler with
  | .slideAck ack => w.base = .ofNat 32 (1 + s.dropped + w.ackCnt.toNat) ∧
      w.ackCnt.toNat + (ack - w.base).toNat ≤ s.sentLen
  | .slideBase ack => ack = .ofNat 32 (1 + s.dropped + w.ackCnt.toNat)
  | _ => w.base = .ofNat 32 (1 + s.dropped + w.ackCnt.toNat)

/-- The limit of a pass of `sending_thread` is inside `sending_buf`. -/
def LimitOk (s : Proc) : Prop :=
  match s.sender with
  | .idle | .sampled _ => True
  | .loop v | .sent v _ | .start v _ | .mark v _ | .count v _ =>
    v.tmpLen.toNat ≤ s.host.sock.sendingBuf.length

/-- The cursors are in order, and show the stream from the bytes on that are not cleaned up. -/
structure ProcInv (s : Proc) : Prop where
  threads : ThreadInv s
  stream : s.host.sock.sendingBuf = s.stream.drop s.dropped
  dropped_le : s.dropped ≤ s.stream.length
  len_le : s.host.sock.sendingBuf.length ≤ maxSockBufSize
  have_nonneg : 0 ≤ s.host.sock.haveSendLen
  fits : s.sentLen ≤ s.host.sock.sendingBuf.length
  sentSeq : s.sentSeq = .ofNat 32 (1 + s.dropped + s.sentLen)
  ack_le : s.host.sock.wndSend.ackCnt.toNat ≤ s.sentLen
  handle : HandleOk s
  limit : LimitOk s

variable {s s' : Proc} {e : ProcEv} {h h' : Host} {out : List Buf} {free : Bool} {now : ℕ}

theorem procInv_start (a b : TjuSockAddr) : ProcInv (.start a b) where
  threads := threadInv_start a b
  stream := rfl
  dropped_le := le_rfl
  len_le := Nat.zero_le _
  have_nonneg := le_rfl
  fits := le_rfl
  sentSeq := rfl
  ack_le := le_rfl
  handle := rfl
  limit := trivial

/-! ## One step -/

/-- A step that moves no cursor, and leaves `sending_thread` where it is. -/
theorem ProcInv.same (hi : ProcInv s) (ht : ThreadInv s') (hs : SameCursors s.host.sock s'.host.sock)
    (hpc : s'.sender = s.sender) (hst : s'.stream = s.stream) (hd : s'.dropped = s.dropped)
    (hh : HandleOk s') : ProcInv s' := by
  have hlen : s'.sentLen = s.sentLen := by unfold Proc.sentLen; rw [hs.haveSendLen, hpc]
  refine ⟨ht, ?_, ?_, ?_, ?_, ?_, ?_, ?_, hh, ?_⟩
  · rw [hs.sendingBuf, hst, hd]; exact hi.stream
  · rw [hst, hd]; exact hi.dropped_le
  · rw [hs.sendingBuf]; exact hi.len_le
  · rw [hs.haveSendLen]; exact hi.have_nonneg
  · rw [hlen, hs.sendingBuf]; exact hi.fits
  · rw [sentSeq_congr hpc hs.nextseq, hd, hlen]; exact hi.sentSeq
  · rw [hlen, hs.ackCnt]; exact hi.ack_le
  · have hl := hi.limit
    unfold LimitOk at hl ⊢
    rw [hpc, hs.sendingBuf]
    exact hl

/-- What the handler works with is kept when more is sent. -/
theorem HandleOk.congr (hh : HandleOk s) (hs : s'.handler = s.handler) (hd : s'.dropped = s.dropped)
    (ha : s'.host.sock.wndSend.ackCnt = s.host.sock.wndSend.ackCnt)
    (hb : s'.host.sock.wndSend.base = s.host.sock.wndSend.base) (hle : s.sentLen ≤ s'.sentLen) :
    HandleOk s' := by
  unfold HandleOk at hh ⊢
  dsimp only at hh ⊢
  rw [hs, hd, ha, hb]
  cases hpc : s.handler with
  | slideAck ack =>
    rw [hpc] at hh
    exact ⟨hh.1, hh.2.trans hle⟩
  | _ => rw [hpc] at hh; exact hh

theorem handleOk_plain (hp : s.handler.plain = true) : HandleOk s ↔
    s.host.sock.wndSend.base = .ofNat 32 (1 + s.dropped + s.host.sock.wndSend.ackCnt.toNat) := by
  unfold HandleOk
  cases hpc : s.handler with
  | slideAck | slideBase => rw [hpc] at hp; cases hp
  | _ => exact Iff.rfl

/-- A step of `sending_thread` that sends `d` more bytes. -/
theorem ProcInv.advance (hi : ProcInv s) (ht : ThreadInv s') (d : ℕ)
    (hbuf : s'.host.sock.sendingBuf = s.host.sock.sendingBuf)
    (hack : s'.host.sock.wndSend.ackCnt = s.host.sock.wndSend.ackCnt)
    (hbase : s'.host.sock.wndSend.base = s.host.sock.wndSend.base) (hst : s'.stream = s.stream)
    (hd : s'.dropped = s.dropped) (hpc : s'.handler = s.handler)
    (hlen : s'.sentLen = s.sentLen + d) (hfit : s.sentLen + d ≤ s.host.sock.sendingBuf.length)
    (hnn : 0 ≤ s'.host.sock.haveSendLen) (hseq : s'.sentSeq = s.sentSeq + .ofNat 32 d)
    (hl : LimitOk s') : ProcInv s' := by
  have hle := hi.ack_le
  refine ⟨ht, ?_, ?_, ?_, hnn, ?_, ?_, ?_, hi.handle.congr hpc hd hack hbase (by omega), hl⟩
  · rw [hbuf, hst, hd]; exact hi.stream
  · rw [hst, hd]; exact hi.dropped_le
  · rw [hbuf]; exact hi.len_le
  · rw [hlen, hbuf]; exact hfit
  · rw [hseq, hi.sentSeq, hd, hlen]; bv_omega
  · rw [hack]; omega

theorem sentLen_idle (hair : s.sender.inAir = 0) : s.sentLen = s.host.sock.haveSendLen.toNat := by
  unfold Proc.sentLen
  rw [hair]
  rfl

theorem procInv_send {pc pc' : SendAt} (hi : ProcInv { s with host := h, sender := pc })
    (ht : ThreadInv { s with host := h', sender := pc' })
    (he : sendAtStep now free h pc = some (h', pc', out)) :
    ProcInv { s with host := h', sender := pc' } := by
  have hnn : 0 ≤ h.sock.haveSendLen := hi.have_nonneg
  have hfits := hi.fits
  have hlen : h.sock.sendingBuf.length ≤ 6000 * 1400 := hi.len_le
  have hp := hi.threads.published
  cases pc with
  | idle =>
    obtain ⟨smp, -, hr⟩ := Option.map_eq_some_iff.1 he
    cases hr
    exact hi.advance ht 0 rfl rfl rfl rfl rfl rfl rfl hfits hnn (BitVec.add_zero _).symm trivial
  | sampled smp =>
    simp only [sendAtStep] at he
    split_ifs at he
    cases he
    refine hi.advance ht 0 rfl rfl rfl rfl rfl rfl rfl hfits hnn ?_ ?_
    · exact Eq.trans hp (BitVec.add_zero _).symm
    · -- the limit of the pass is not behind what `tju_send` has copied
      show (cmin _ _).toNat ≤ _
      rw [cmin_toNat]
      exact (min_le_left _ _).trans (by rw [BitVec.toNat_ofNat]; exact Nat.mod_le _ _)
  | loop v =>
    have hlim : v.tmpLen.toNat ≤ h.sock.sendingBuf.length := hi.limit
    have hl : Proc.sentLen { s with host := h, sender := .loop v } = h.sock.haveSendLen.toNat :=
      sentLen_idle rfl
    simp only [sendAtStep] at he
    split_ifs at he with hlt
    · cases he
      generalize hdl : nextDlen (v.tmpLen - .ofInt 32 h.sock.haveSendLen) = dlen at ht
      have hs := startSample_same now (v.wndNextseq + dlen) h.sock.wndSend
      have hd : h.sock.haveSendLen.toNat + dlen.toNat ≤ h.sock.sendingBuf.length := by
        rw [← hdl, nextDlen_toNat]
        have := min_le_left (v.tmpLen - .ofInt 32 h.sock.haveSendLen).toNat maxDlen
        rw [hl] at hfits
        bv_omega
      refine hi.advance ht dlen.toNat rfl hs.1 hs.2 rfl rfl rfl ?_ ?_ hnn ?_ hlim
      · rw [hl]
        rfl
      · rw [hl]
        exact hd
      · show v.wndNextseq + dlen = v.wndNextseq + _
        rw [BitVec.ofNat_toNat, BitVec.setWidth_eq]
    · cases he
      exact hi.advance ht 0 rfl rfl rfl rfl rfl rfl rfl hfits hnn (BitVec.add_zero _).symm trivial
  | sent v dlen =>
    cases he
    split_ifs at ht ⊢
    · exact hi.advance ht 0 rfl rfl rfl rfl rfl rfl rfl hfits hnn (BitVec.add_zero _).symm hi.limit
    · exact hi.advance ht 0 rfl rfl rfl rfl rfl rfl rfl hfits hnn (BitVec.add_zero _).symm hi.limit
  | start v dlen | mark v dlen =>
    cases he
    exact hi.advance ht 0 rfl rfl rfl rfl rfl rfl rfl hfits hnn (BitVec.add_zero _).symm hi.limit
  | count v dlen =>
    cases he
    refine hi.advance ht 0 rfl rfl rfl rfl rfl rfl ?_ hfits ?_ (BitVec.add_zero _).symm hi.limit
    · rw [sentLen_idle rfl]
      show (h.sock.haveSendLen + (dlen.toNat : ℤ)).toNat = h.sock.haveSendLen.toNat + dlen.toNat
      omega
    · show 0 ≤ h.sock.haveSendLen + (dlen.toNat : ℤ)
      omega

/-- What the clean-up leaves, with `n` bytes sent. -/
theorem dropAcked_spec {sock sock' : TjuTcp} {n : ℕ} (hd : dropAcked sock = some sock')
    (hn : sock.haveSendLen = n) (hle : sock.wndSend.ackCnt.toNat ≤ n)
    (hlen : n ≤ sock.sendingBuf.length) (hmax : sock.sendingBuf.length ≤ maxSockBufSize) :
    sock'.sendingBuf = sock.sendingBuf.drop sock.wndSend.ackCnt.toNat ∧
      sock'.haveSendLen = (n - sock.wndSend.ackCnt.toNat : ℕ) ∧ sock'.wndSend.ackCnt = 0 ∧
      sock'.wndSend.base = sock.wndSend.base ∧ sock'.wndSend.nextseq = sock.wndSend.nextseq := by
  obtain ⟨-, rfl⟩ := dropAcked_eq_some hd
  refine ⟨rfl, ?_, rfl, rfl, rfl⟩
  show (BitVec.ofInt 32 sock.haveSendLen - sock.wndSend.ackCnt).toInt = _
  simp only [maxSockBufSize, maxLen] at hmax
  have hsub : (BitVec.ofInt 32 sock.haveSendLen - sock.wndSend.ackCnt).toNat =
      n - sock.wndSend.ackCnt.toNat := by
    rw [hn]; bv_omega
  rw [BitVec.toInt_eq_toNat_of_lt (by omega), hsub]

/-- The clean-up runs while no segment is under way. -/
theorem procInv_clean {sock : TjuTcp} (hi : ProcInv s) (hpc : s.handler = .clean)
    (hfree : s.sender.holds = false) (hd : dropAcked s.host.sock = some sock)
    (hsock : s'.host.sock = sock) (hpc' : s'.handler = .zero) (hsd : s'.sender = s.sender)
    (hst : s'.stream = s.stream) (hdr : s'.dropped = s.dropped + s.host.sock.wndSend.ackCnt.toNat)
    (ht : ThreadInv s') : ProcInv s' := by
  have hair : s.sender.inAir = 0 := by
    cases hs : s.sender <;> rw [hs] at hfree <;> first | rfl | cases hfree
  have hsl := sentLen_idle hair
  have hfits := hi.fits
  have hack := hi.ack_le
  have hseq := hi.sentSeq
  have hnn := hi.have_nonneg
  have hlen := hi.len_le
  have hbase : s.host.sock.wndSend.base =
      .ofNat 32 (1 + s.dropped + s.host.sock.wndSend.ackCnt.toNat) :=
    (handleOk_plain (by rw [hpc]; rfl)).1 hi.handle
  have hbl := congrArg List.length hi.stream
  rw [List.length_drop] at hbl
  have hdl := hi.dropped_le
  rw [hsl] at hfits hack hseq
  obtain ⟨hbuf, hhave, hack', hb', hn'⟩ := dropAcked_spec hd
    (show s.host.sock.haveSendLen = (s.host.sock.haveSendLen.toNat : ℕ) by omega) hack hfits hlen
  rw [← hsock] at hbuf hhave hack' hb' hn'
  have hzero : s'.host.sock.wndSend.ackCnt.toNat = 0 := by rw [hack']; rfl
  have hsl' : s'.sentLen = s.host.sock.haveSendLen.toNat - s.host.sock.wndSend.ackCnt.toNat := by
    rw [sentLen_idle (by rw [hsd]; exact hair), hhave, Int.toNat_natCast]
  refine ⟨ht, ?_, ?_, ?_, ?_, ?_, ?_, ?_, ?_, ?_⟩
  · rw [hbuf, hi.stream, List.drop_drop, hst, hdr]
  · rw [hdr, hst]; omega
  · rw [hbuf, List.length_drop]
    exact (Nat.sub_le _ _).trans hlen
  · rw [hhave]
    exact Int.natCast_nonneg _
  · rw [hsl', hbuf, List.length_drop]; omega
  · rw [sentSeq_congr hsd hn', hseq, hsl', hdr]
    congr 1
    omega
  · rw [hzero]
    exact Nat.zero_le _
  · rw [handleOk_plain (by rw [hpc']; rfl), hb', hbase, hdr, hzero]
    congr 1
    omega
  · unfold LimitOk
    rw [hsd]
    cases hs : s.sender <;> rw [hs] at hfree <;> trivial

/-- The two updates of the send window. -/
theorem procInv_slideAck {ack : BitVec 32} (hi : ProcInv s) (hpc : s.handler = .slideAck ack)
    (hs' : s'.host.sock = { s.host.sock with wndSend := { s.host.sock.wndSend with
      ackCnt := s.host.sock.wndSend.ackCnt + (ack - s.host.sock.wndSend.base) } })
    (hpc' : s'.handler = .slideBase ack) (hsd : s'.sender = s.sender) (hst : s'.stream = s.stream)
    (hd : s'.dropped = s.dropped) (ht : ThreadInv s') : ProcInv s' := by
  have hh := hi.handle
  simp only [HandleOk, hpc] at hh
  obtain ⟨hbase, hle⟩ := hh
  have hfits := hi.fits
  have hlen := hi.len_le
  simp only [maxSockBufSize, maxLen] at hlen
  have hsum : (s.host.sock.wndSend.ackCnt + (ack - s.host.sock.wndSend.base)).toNat =
      s.host.sock.wndSend.ackCnt.toNat + (ack - s.host.sock.wndSend.base).toNat := by
    have := hle.trans hfits
    bv_omega
  have hsl : s'.sentLen = s.sentLen := by unfold Proc.sentLen; rw [hs', hsd]
  have hsq : s'.sentSeq = s.sentSeq := sentSeq_congr hsd (by rw [hs'])
  refine ⟨ht, ?_, ?_, ?_, ?_, ?_, ?_, ?_, ?_, ?_⟩
  · rw [hs', hst, hd]; exact hi.stream
  · rw [hst, hd]; exact hi.dropped_le
  · rw [hs']; exact hi.len_le
  · rw [hs']; exact hi.have_nonneg
  · rw [hsl, hs']; exact hi.fits
  · rw [hsq, hsl, hd]; exact hi.sentSeq
  · rw [hsl, hs']
    show (s.host.sock.wndSend.ackCnt + (ack - s.host.sock.wndSend.base)).toNat ≤ _
    rw [hsum]
    exact hle
  · simp only [HandleOk, hpc', hd, hs', hsum]
    bv_omega
  · have hl := hi.limit
    unfold LimitOk at hl ⊢
    rw [hsd, hs']
    exact hl

theorem procInv_handle (hi : ProcInv s) (he : procStep s .handle = some s') : ProcInv s' := by
  have ht := threadInv_step hi.threads he
  obtain ⟨hfr, hm⟩ := handle_cases he
  cases hm with
  | same hp hp' hs hd ha hb =>
    refine hi.same ht hs hfr.sender hfr.stream hd ((handleOk_plain hp').2 ?_)
    rw [hs.base, hs.ackCnt, hd]
    exact (handleOk_plain hp).1 hi.handle
  | slideAck ack hp hp' hs hd ha hb =>
    exact procInv_slideAck hi hp hs hp' hfr.sender hfr.stream hd ht
  | slideBase ack hp hp' hs hd ha hb =>
    have hh := hi.handle
    simp only [HandleOk, hp] at hh
    have hl := hi.limit
    have hsl : s'.sentLen = s.sentLen := by unfold Proc.sentLen; rw [hs, hfr.sender]
    refine ⟨ht, ?_, ?_, ?_, ?_, ?_, ?_, ?_, ?_, ?_⟩
    · rw [hs, hfr.stream, hd]; exact hi.stream
    · rw [hfr.stream, hd]; exact hi.dropped_le
    · rw [hs]; exact hi.len_le
    · rw [hs]; exact hi.have_nonneg
    · rw [hsl, hs]; exact hi.fits
    · rw [sentSeq_congr hfr.sender (by rw [hs]), hsl, hd]; exact hi.sentSeq
    · rw [hsl, hs]; exact hi.ack_le
    · rw [handleOk_plain (by rw [hp']; rfl), hs, hd]; exact hh
    · unfold LimitOk at hl ⊢
      rw [hfr.sender, hs]
      exact hl
  | clean hp hp' hf hs hd ha hb =>
    exact procInv_clean hi hp (Proc.free_iff.1 hf).1 hs rfl hp' hfr.sender hfr.stream hd ht

/-- **One step keeps the cursors in order.** -/
theorem procInv_step (hi : ProcInv s) (hg : Genuine s e) (he : procStep s e = some s') :
    ProcInv s' := by
  have ht := threadInv_step hi.threads he
  cases e with
  | send now =>
    obtain ⟨⟨h, pc, out⟩, hk, rfl⟩ := Option.map_eq_some_iff.1 he
    exact procInv_send hi ht hk
  | retrans =>
    obtain ⟨⟨h, pc, out⟩, hk, rfl⟩ := Option.map_eq_some_iff.1 he
    have hsame := retransAtStep_same hk
    exact hi.same ht hsame rfl rfl rfl
      (hi.handle.congr rfl rfl hsame.ackCnt hsame.base (by
        unfold Proc.sentLen
        dsimp only [Proc.retransMoved]
        rw [hsame.haveSendLen]))
  | handle => exact procInv_handle hi he
  | packet now pkt =>
    obtain ⟨hidle, hs', hsame, -, -, hpc⟩ := packet_cases he
    have hbase := (handleOk_plain (by rw [hidle]; rfl)).1 hi.handle
    have hsd : s'.sender = s.sender := by rw [hs']
    have hdr : s'.dropped = s.dropped := by rw [hs']
    have hst : s'.stream = s.stream := by rw [hs']
    have hsl : s'.sentLen = s.sentLen := by unfold Proc.sentLen; rw [hsame.haveSendLen, hsd]
    refine hi.same ht hsame hsd hst hdr ?_
    rcases hpc with hpc | ⟨hest, hf, hlt, hpc⟩
    · rw [handleOk_plain hpc, hsame.base, hsame.ackCnt, hdr]
      exact hbase
    · -- the ACK is genuine
      have hin := (hg hest hf).resolve_left (by bv_omega)
      have hack := hi.ack_le
      have hfits := hi.fits
      have hlen := hi.len_le
      simp only [maxSockBufSize, maxLen] at hlen
      rw [hi.sentSeq, hbase] at hin
      simp only [HandleOk, hpc, hsame.base, hsame.ackCnt, hdr, hsl]
      refine ⟨hbase, ?_⟩
      rw [hbase]
      bv_omega
  | alarm =>
    simp only [procStep] at he
    split_ifs at he
    cases he
    exact hi.same ht (SameCursors.refl _) rfl rfl rfl hi.handle
  | append data =>
    simp only [procStep] at he
    split_ifs at he with hfree
    obtain ⟨sock, ha, rfl⟩ := Option.map_eq_some_iff.1 he
    obtain ⟨hfit, rfl⟩ := appendData_eq_some ha
    have hle := hi.dropped_le
    have hfits := hi.fits
    have hlim := hi.limit
    refine ⟨ht, ?_, ?_, ?_, hi.have_nonneg, ?_, ?_, hi.ack_le, hi.handle, ?_⟩
    · show _ ++ data = (s.stream ++ data).drop s.dropped
      rw [List.drop_append_of_le_length hle, hi.stream]
    · show s.dropped ≤ (s.stream ++ data).length
      rw [List.length_append]; omega
    · show (_ ++ data).length ≤ _
      rw [List.length_append]; exact hfit
    · show s.sentLen ≤ (_ ++ data).length
      rw [List.length_append]; omega
    · exact (sentSeq_congr rfl rfl).trans hi.sentSeq
    · unfold LimitOk at hlim ⊢
      dsimp only
      cases hs : s.sender with
      | idle | sampled => trivial
      | loop | sent | start | mark | count =>
        rw [hs] at hlim
        rw [List.length_append]
        exact hlim.trans (Nat.le_add_right _ _)

/-! ## What a pass has read -/

/-- The data that a packet announces with its lengths. -/
def dlenOf (pkt : Buf) : ℕ := (getPlen pkt - getHlen pkt).toNat

/-- The packet carries a piece of the stream `S`, and its sequence number is that of its first
    byte; the first byte of the stream has the number 1. -/
def Carries (S : List Byte) (pkt : Buf) : Prop :=
  ∃ k, getSeq pkt = .ofNat 32 (k + 1) ∧ k + dlenOf pkt ≤ S.length ∧
    pkt.drop 20 = (S.drop k).take (dlenOf pkt)

theorem Carries.append {S : List Byte} {pkt : Buf} (hc : Carries S pkt) (T : List Byte) :
    Carries (S ++ T) pkt := by
  obtain ⟨k, hseq, hle, hdata⟩ := hc
  refine ⟨k, hseq, by rw [List.length_append]; omega, ?_⟩
  rw [hdata, List.drop_append_of_le_length (by omega), List.take_append_of_le_length]
  rw [List.length_drop]
  omega

/-- How many updates of `base` are behind those of `ack_cnt`. -/
def HandleAt.behind : HandleAt → ℕ
  | slideBase _ => 1
  | _ => 0

theorem HandleAt.behind_plain {pc : HandleAt} (hp : pc.plain = true) : pc.behind = 0 := by
  cases pc <;> first | rfl | cases hp

/-- The updates of `ack_cnt` and of `base` take turns. -/
structure CountInv (s : Proc) : Prop where
  seen : s.seen ≤ s.acked
  turns : s.acked = s.based + s.handler.behind

/-- What the pass has read in `ack_cnt`: if the update of `base` for it is still to come, it is the
    present value; if it was the last one, `base` is the number that belongs to it. -/
def ReadOk (s : Proc) (wndAckCnt : BitVec 32) : Prop :=
  (s.based < s.seen → s.acked = s.seen ∧ s.host.sock.wndSend.ackCnt = wndAckCnt) ∧
    (s.based = s.seen → s.host.sock.wndSend.base = .ofNat 32 (1 + s.dropped + wndAckCnt.toNat))

/-- The local variables of the pass belong together. -/
def PassOk (s : Proc) : Prop :=
  match s.retrans with
  | .readHave a => ReadOk s a
  | .readBase a n => ReadOk s a ∧ n.toNat ≤ s.host.sock.sendingBuf.length
  | .loop v => v.haveSent.toNat ≤ s.host.sock.sendingBuf.length ∧
      (v.wndAckCnt < v.haveSent → v.wndBase = .ofNat 32 (1 + s.dropped + v.wndAckCnt.toNat))
  | .sent v _ | .start v _ | .mark v _ =>
    v.haveSent.toNat ≤ s.host.sock.sendingBuf.length ∧
      v.wndBase = .ofNat 32 (1 + s.dropped + v.wndAckCnt.toNat)
  | _ => True

/-- A pass that has bytes to send reads `base` after as many updates of it as it has seen of
    `ack_cnt`. -/
def SameAck (s : Proc) : RetransAt → Prop
  | .readBase wndAckCnt haveSent => wndAckCnt < haveSent → s.based = s.seen
  | _ => True

/-- The guard on a step: the two fields that a pass reads are those of one ACK. -/
def ReadsTogether (s : Proc) : ProcEv → Prop
  | .retrans => SameAck s s.retrans
  | _ => True

instance (s : Proc) : DecidablePred (SameAck s)
  | .readBase _ _ => inferInstanceAs (Decidable (_ → _))
  | .idle | .woken | .probed | .checked | .clear | .cleared | .setFlag | .setRetrans | .want
  | .locked | .readAck | .readHave _ | .loop _ | .sent _ _ | .start _ _ | .mark _ _ | .unmark =>
    inferInstanceAs (Decidable True)

instance (s : Proc) : DecidablePred (ReadsTogether s)
  | .retrans => inferInstanceAs (Decidable (SameAck s s.retrans))
  | .send _ | .handle | .packet _ _ | .alarm | .append _ => inferInstanceAs (Decidable True)

structure PassInv (s : Proc) : Prop where
  proc : ProcInv s
  count : CountInv s
  pass : PassOk s
  resent : ∀ pkt ∈ s.resent, Carries s.stream pkt

theorem dataPacket_carries {sock : TjuTcp} {S data : List Byte} {k : ℕ} (hle : data.length ≤ maxDlen)
    (hk : k + data.length ≤ S.length) (hd : data = (S.drop k).take data.length) :
    Carries S (dataPacket sock (.ofNat 32 (k + 1)) data) := by
  have hlen : dlenOf (dataPacket sock (.ofNat 32 (k + 1)) data) = data.length := dataPacket_dlen hle
  refine ⟨k, dataPacket_seq hle, by rw [hlen]; exact hk, ?_⟩
  rw [hlen, ← hd, dataPacket_drop hle]

/-- The variables of the pass still belong together when the handler has moved on. -/
theorem PassOk.congr (hp : PassOk s) (hr : s'.retrans = s.retrans)
    (hd : s'.dropped = s.dropped)
    (hlen : s.host.sock.sendingBuf.length = s'.host.sock.sendingBuf.length)
    (hread : ∀ a, ReadOk s a → ReadOk s' a) : PassOk s' := by
  unfold PassOk at hp ⊢
  rw [hr, hd, ← hlen]
  cases hpc : s.retrans with
  | readHave a => rw [hpc] at hp; exact hread a hp
  | readBase a n => rw [hpc] at hp; exact ⟨hread a hp.1, hp.2⟩
  | _ => rw [hpc] at hp; exact hp

theorem passOk_free (hf : s.retrans.holds = false) : PassOk s := by
  unfold PassOk
  cases hpc : s.retrans <;> rw [hpc] at hf <;> trivial

theorem ReadOk.congr {a : BitVec 32} (hr : ReadOk s a)
    (hack : s'.host.sock.wndSend.ackCnt = s.host.sock.wndSend.ackCnt)
    (hbase : s'.host.sock.wndSend.base = s.host.sock.wndSend.base) (hd : s'.dropped = s.dropped)
    (hseen : s'.seen = s.seen) (ha : s'.acked = s.acked) (hb : s'.based = s.based) : ReadOk s' a := by
  unfold ReadOk at hr ⊢
  rw [hack, hbase, hd, hseen, ha, hb]
  exact hr

/-! ## One step -/

/-- Outside of its loop `sending_thread` leaves what the pass reads as it is. -/
theorem sendAtStep_same {pc pc' : SendAt} (he : sendAtStep now free h pc = some (h', pc', out)) :
    h'.sock.sendingBuf = h.sock.sendingBuf ∧ h'.sock.wndSend.ackCnt = h.sock.wndSend.ackCnt ∧
      h'.sock.wndSend.base = h.sock.wndSend.base := by
  cases pc with
  | idle =>
    obtain ⟨smp, -, hr⟩ := Option.map_eq_some_iff.1 he
    cases hr
    exact ⟨rfl, rfl, rfl⟩
  | sampled smp =>
    simp only [sendAtStep] at he
    split_ifs at he
    cases he
    exact ⟨rfl, rfl, rfl⟩
  | loop v =>
    simp only [sendAtStep] at he
    split_ifs at he
    · cases he
      exact ⟨rfl, startSample_same now _ _⟩
    · cases he
      exact ⟨rfl, rfl, rfl⟩
  | sent v dlen | start v dlen | mark v dlen | count v dlen => cases he; exact ⟨rfl, rfl, rfl⟩

/-- A step of the handler. -/
theorem passInv_handle (hi : PassInv s) (he : procStep s .handle = some s') : PassInv s' := by
  have hseen := hi.count.seen
  have hturns := hi.count.turns
  obtain ⟨hfr, hm⟩ := handle_cases he
  have hres : ∀ pkt ∈ s'.resent, Carries s'.stream pkt := by
    rw [hfr.resent, hfr.stream]
    exact hi.resent
  refine ⟨procInv_handle hi.proc he, ?_, ?_, hres⟩
  · cases hm with
    | same hp hp' hs hd ha hb =>
      exact ⟨by rw [hfr.seen, ha]; exact hseen, by
        rw [ha, hb, hturns, HandleAt.behind_plain hp, HandleAt.behind_plain hp']⟩
    | slideAck ack hp hp' hs hd ha hb =>
      rw [hp] at hturns
      exact ⟨by rw [hfr.seen, ha]; omega, by rw [hp', ha, hb, hturns]; rfl⟩
    | slideBase ack hp hp' hs hd ha hb =>
      rw [hp] at hturns
      exact ⟨by rw [hfr.seen, ha]; exact hseen, by rw [hp', ha, hb, hturns]; rfl⟩
    | clean hp hp' hf hs hd ha hb =>
      rw [hp] at hturns
      exact ⟨by rw [hfr.seen, ha]; exact hseen, by rw [hp', ha, hb, hturns]; rfl⟩
  · cases hm with
    | same hp hp' hs hd ha hb =>
      exact hi.pass.congr hfr.retrans hd (by rw [hs.sendingBuf]) fun a hr =>
        hr.congr hs.ackCnt hs.base hd hfr.seen ha hb
    | slideAck ack hp hp' hs hd ha hb =>
      -- the pass has seen no more updates than there were
      have hturns : s.acked = s.based := by rw [hturns, hp]; rfl
      refine hi.pass.congr hfr.retrans hd (by rw [hs]) fun a hr => ⟨fun hlt => ?_, fun heq => ?_⟩
      · rw [hb, hfr.seen] at hlt
        omega
      · rw [hb, hfr.seen] at heq
        rw [hs, hd]
        exact hr.2 heq
    | slideBase ack hp hp' hs hd ha hb =>
      have hturns : s.acked = s.based + 1 := by rw [hturns, hp]; rfl
      have hh := hi.proc.handle
      simp only [HandleOk, hp] at hh
      refine hi.pass.congr hfr.retrans hd (by rw [hs]) fun a hr => ⟨fun hlt => ?_, fun heq => ?_⟩
      · rw [hb, hfr.seen] at hlt
        omega
      · -- `base` is what belongs to the `ack_cnt` that the pass has read
        rw [hb, hfr.seen] at heq
        rw [hs, hd, ← (hr.1 (by omega)).2]
        exact hh
    | clean hp hp' hf hs hd ha hb =>
      exact passOk_free (by rw [hfr.retrans]; exact (Proc.free_iff.1 hf).2)

/-- The variables of the next round belong together. -/
theorem RetransVars.next_base {v : RetransVars} {dlen : BitVec 32} {c : ℕ}
    (hb : v.wndBase = .ofNat 32 (1 + c + v.wndAckCnt.toNat)) :
    (v.next dlen).wndBase = .ofNat 32 (1 + c + (v.next dlen).wndAckCnt.toNat) := by
  show v.wndBase + dlen = .ofNat 32 (1 + c + (v.wndAckCnt + dlen).toNat)
  rw [hb]
  bv_omega

/-- A step of `retrans_thread` keeps its variables together. -/
theorem passOk_retrans {pc : RetransAt} (hi : PassInv s) (hg : ReadsTogether s .retrans)
    (he : retransAtStep s.free s.host s.retrans = some (h, pc, out)) :
    PassOk (s.retransMoved h pc out) := by
  have hp := hi.pass
  have hfits := hi.proc.fits
  have hlen := hi.proc.len_le
  simp only [maxSockBufSize, maxLen] at hlen
  unfold PassOk at hp
  unfold ReadsTogether SameAck at hg
  cases hpc : s.retrans with
  | idle | woken | want | locked =>
    simp only [hpc, retransAtStep] at he
    split_ifs at he <;> cases he <;> trivial
  | checked | cleared =>
    simp only [hpc, retransAtStep] at he
    cases he
    split_ifs <;> trivial
  | probed | clear | setFlag | setRetrans | unmark =>
    simp only [hpc, retransAtStep] at he
    cases he
    trivial
  | readAck =>
    simp only [hpc, retransAtStep] at he
    cases he
    have hturns := hi.count.turns
    have hh := hi.proc.handle
    show ReadOk _ _
    simp only [ReadOk, Proc.retransMoved, hpc]
    refine ⟨fun _ => ⟨trivial, trivial⟩, fun heq => ?_⟩
    -- the handler is not between its two updates
    simp only [HandleOk] at hh
    cases hhc : s.handler with
    | slideAck ack => rw [hhc] at hh; exact hh.1
    | slideBase ack => rw [hhc, heq] at hturns; simp only [HandleAt.behind] at hturns; omega
    | _ => rw [hhc] at hh; exact hh
  | readHave a =>
    simp only [hpc, retransAtStep] at he hp
    cases he
    have hnn := hi.proc.have_nonneg
    refine ⟨?_, ?_⟩
    · simp only [ReadOk, Proc.retransMoved, hpc]
      exact hp
    · show (BitVec.ofInt 32 s.host.sock.haveSendLen).toNat ≤ s.host.sock.sendingBuf.length
      unfold Proc.sentLen at hfits
      bv_omega
  | readBase a n =>
    simp only [hpc, retransAtStep] at he hp hg
    cases he
    exact ⟨hp.2, fun hlt => hp.1.2 (hg hlt)⟩
  | loop v =>
    simp only [hpc, retransAtStep] at he hp
    split_ifs at he with hlt hfit
    · cases he
      exact ⟨hp.1, hp.2 hlt⟩
    · cases he
      trivial
  | sent v dlen =>
    simp only [hpc, retransAtStep] at he hp
    cases he
    split_ifs
    · exact hp
    · exact ⟨hp.1, fun _ => RetransVars.next_base hp.2⟩
  | start v dlen =>
    simp only [hpc, retransAtStep] at he hp
    cases he
    exact hp
  | mark v dlen =>
    simp only [hpc, retransAtStep] at he hp
    cases he
    exact ⟨hp.1, fun _ => RetransVars.next_base hp.2⟩

/-- Every segment of a pass carries the bytes of its numbers. -/
theorem loop_carries {v : RetransVars} {pc : RetransAt} (hi : PassInv s) (hpc : s.retrans = .loop v)
    (he : retransAtStep s.free s.host s.retrans = some (h, pc, out)) :
    ∀ pkt ∈ out, Carries s.stream pkt := by
  have hp := hi.pass
  have hst := hi.proc.stream
  have hdl := hi.proc.dropped_le
  simp only [PassOk, hpc] at hp
  simp only [hpc, retransAtStep] at he
  split_ifs at he with hlt hfit
  · cases he
    have hmax : (nextDlen (v.haveSent - v.wndAckCnt)).toNat ≤ maxDlen := by
      rw [nextDlen_toNat]
      exact min_le_right _ _
    generalize nextDlen (v.haveSent - v.wndAckCnt) = dlen at hfit hmax ⊢
    have hlen : ((s.host.sock.sendingBuf.drop v.wndAckCnt.toNat).take dlen.toNat).length = dlen.toNat := by
      rw [List.length_take, List.length_drop]
      omega
    have hbl := congrArg List.length hst
    rw [List.length_drop] at hbl
    rw [sendToLayer3_segment hmax, hp.2 hlt,
      show 1 + s.dropped + v.wndAckCnt.toNat = s.dropped + v.wndAckCnt.toNat + 1 by omega]
    intro pkt hmem
    rw [List.mem_singleton.1 hmem]
    refine dataPacket_carries (by rw [hlen]; exact hmax) (by rw [hlen]; omega) ?_
    rw [hlen, hst, List.drop_drop]
  · cases he
    intro pkt hmem
    cases hmem

/-- A pass never reads behind the bytes that `tju_send` has copied. -/
theorem retransLoop_defined {v : RetransVars} (hi : PassInv s) (hpc : s.retrans = .loop v) :
    (retransAtStep s.free s.host s.retrans).isSome := by
  have hp := hi.pass
  simp only [PassOk, hpc] at hp
  have hmin := min_le_left (v.haveSent - v.wndAckCnt).toNat maxDlen
  simp only [hpc, retransAtStep]
  split_ifs with hlt hfit
  · rfl
  · refine absurd ?_ hfit
    rw [nextDlen_toNat]
    bv_omega
  · rfl

/-- **One step of the process**, with the two reads of a pass together. -/
theorem passInv_step (hi : PassInv s) (hg : ReadsTogether s e ∧ Genuine s e)
    (he : procStep s e = some s') : PassInv s' := by
  have hproc := procInv_step hi.proc hg.2 he
  cases e with
  | send now =>
    obtain ⟨⟨h, pc, out⟩, hk, rfl⟩ := Option.map_eq_some_iff.1 he
    obtain ⟨hbuf, hack, hbase⟩ := sendAtStep_same hk
    exact ⟨hproc, ⟨hi.count.seen, hi.count.turns⟩,
      hi.pass.congr rfl rfl (by rw [hbuf]) fun a hr => hr.congr hack hbase rfl rfl rfl rfl, hi.resent⟩
  | retrans =>
    obtain ⟨⟨h, pc, out⟩, hk, rfl⟩ := Option.map_eq_some_iff.1 he
    refine ⟨hproc, ⟨?_, hi.count.turns⟩, passOk_retrans hi hg.1 hk, ?_⟩
    · have hseen := hi.count.seen
      dsimp only [Proc.retransMoved]
      split
      · exact le_rfl
      · exact hseen
    · dsimp only [Proc.retransMoved]
      split
      · next v hpc =>
        intro pkt hmem
        exact (List.mem_append.1 hmem).elim (hi.resent pkt) (loop_carries hi hpc hk pkt)
      · exact hi.resent
  | handle => exact passInv_handle hi he
  | packet now pkt =>
    obtain ⟨hidle, hs', hsame, -, -, hpc⟩ := packet_cases he
    have hturns := hi.count.turns
    have hbehind : s'.handler.behind = 0 := by
      rcases hpc with hpc | ⟨-, -, -, hpc⟩
      · exact HandleAt.behind_plain hpc
      · rw [hpc]; rfl
    rw [hidle] at hturns
    rw [hs'] at hproc ⊢
    exact ⟨hproc, ⟨hi.count.seen, hturns.trans (by rw [hbehind]; rfl)⟩,
      hi.pass.congr rfl rfl (by rw [hsame.sendingBuf]) fun a hr =>
        hr.congr hsame.ackCnt hsame.base rfl rfl rfl rfl, hi.resent⟩
  | alarm =>
    simp only [procStep] at he
    split_ifs at he
    cases he
    exact ⟨hproc, ⟨hi.count.seen, hi.count.turns⟩, hi.pass.congr rfl rfl rfl fun a hr => hr, hi.resent⟩
  | append data =>
    simp only [procStep] at he
    split_ifs at he with hfree
    obtain ⟨sock, ha, rfl⟩ := Option.map_eq_some_iff.1 he
    exact ⟨hproc, ⟨hi.count.seen, hi.count.turns⟩, passOk_free (Proc.free_iff.1 hfree).2,
      fun pkt hmem => (hi.resent pkt hmem).append data⟩

theorem passInv_start (a b : TjuSockAddr) : PassInv (.start a b) where
  proc := procInv_start a b
  count := ⟨le_rfl, rfl⟩
  pass := trivial
  resent _ h := by cases h

/-! ## Runs -/

theorem passInv_reached {a b : TjuSockAddr}
    (hr : ReachBy procStep (fun s e => ReadsTogether s e ∧ Genuine s e) (.start a b) s) : PassInv s :=
  hr.inv (passInv_start a b) fun _ _ _ => passInv_step

/-- In a stream that is short enough for its numbers, the piece begins at the number of the packet. -/
theorem Carries.exact {S : List Byte} {pkt : Buf} (hc : Carries S pkt) (hS : S.length < 2 ^ 32) :
    pkt.drop 20 = (S.drop ((getSeq pkt).toNat - 1)).take (dlenOf pkt) := by
  obtain ⟨k, hseq, hle, hdata⟩ := hc
  by_cases hk : k + 1 < 2 ^ 32
  · rw [hdata, hseq, BitVec.toNat_ofNat, Nat.mod_eq_of_lt hk, Nat.add_sub_cancel]
  · rw [hdata, show dlenOf pkt = 0 by omega, List.take_zero, List.take_zero]

/-- **The bytes of a retransmission.**  In every run with genuine ACKs in which a pass reads
    `ack_cnt` and `base` of one ACK, or has nothing to send, every segment that a pass sends carries
    the bytes of the stream that its number and its length name. -/
theorem resent_bytes {a b : TjuSockAddr}
    (hr : ReachBy procStep (fun s e => ReadsTogether s e ∧ Genuine s e) (.start a b) s) :
    ∀ pkt ∈ s.resent, Carries s.stream pkt ∧ (s.stream.length < 2 ^ 32 →
      pkt.drop 20 = (s.stream.drop ((getSeq pkt).toNat - 1)).take (dlenOf pkt)) :=
  fun pkt hmem => ⟨(passInv_reached hr).resent pkt hmem, ((passInv_reached hr).resent pkt hmem).exact⟩

/-- Two bytes are sent, and sent again after a timeout; the first one is acknowledged, and after
    another timeout the second one is sent again. -/
def resendAcked : List ProcEv :=
  .append [1, 2] :: List.replicate 8 (.send 0) ++ [.alarm] ++ List.replicate 14 .retrans ++
    [.packet 0 (bareAck 2)] ++ List.replicate 7 .handle ++ [.alarm] ++ List.replicate 14 .retrans

/-- The client after `resendAcked`. -/
def byteResent : Proc :=
  (exec procStep (.start ⟨clientIp, 5678⟩ ⟨serverIp, 1234⟩) resendAcked).getD
    (.start ⟨clientIp, 5678⟩ ⟨serverIp, 1234⟩)

theorem resent_bytes_acked : byteResent.resent.map dlenOf = [2, 1] ∧ ∀ pkt ∈ byteResent.resent,
    Carries byteResent.stream pkt ∧ (byteResent.stream.length < 2 ^ 32 →
      pkt.drop 20 = (byteResent.stream.drop ((getSeq pkt).toNat - 1)).take (dlenOf pkt)) := by
  have hrun : exec procStep (.start ⟨clientIp, 5678⟩ ⟨serverIp, 1234⟩) resendAcked =
      some byteResent := exec_getD (by decide +kernel) _
  have hguard : Along procStep (fun s e => ReadsTogether s e ∧ Genuine s e)
      (.start ⟨clientIp, 5678⟩ ⟨serverIp, 1234⟩) resendAcked := by decide +kernel
  exact ⟨by decide +kernel, resent_bytes (ReachBy.of_along resendAcked hguard hrun)⟩

/-- One byte is sent, and sent again after a timeout. -/
def resendByte : List ProcEv :=
  .append [1] :: List.replicate 8 (.send 0) ++ [.alarm] ++ List.replicate 14 .retrans

/-- Two bytes are in flight, in two segments.  A second pass has read `ack_cnt` when the ACK for the
    first byte is handled, and reads `base` after that. -/
def slideBetween : List ProcEv :=
  resendByte ++ [.append [2]] ++ List.replicate 6 (.send 0) ++ [.alarm] ++
    List.replicate 13 .retrans ++ [.packet 0 (bareAck 2), .handle, .handle] ++
    List.replicate 3 .retrans

/-- The client after `slideBetween`. -/
def bytesMixed : Proc :=
  (exec procStep (.start ⟨clientIp, 5678⟩ ⟨serverIp, 1234⟩) slideBetween).getD
    (.start ⟨clientIp, 5678⟩ ⟨serverIp, 1234⟩)

/-- Both bytes are sent with the number of the second one. -/
theorem resent_bytes_mixed : ¬ ∀ s,
    ReachBy procStep Genuine (.start ⟨clientIp, 5678⟩ ⟨serverIp, 1234⟩) s →
    ∀ pkt ∈ s.resent, Carries s.stream pkt ∧ (s.stream.length < 2 ^ 32 →
      pkt.drop 20 = (s.stream.drop ((getSeq pkt).toNat - 1)).take (dlenOf pkt)) := by
  intro hall
  have hrun : exec procStep (.start ⟨clientIp, 5678⟩ ⟨serverIp, 1234⟩) slideBetween =
      some bytesMixed := rfl
  have hgen : Along procStep Genuine (.start ⟨clientIp, 5678⟩ ⟨serverIp, 1234⟩) slideBetween := by
    decide
  have hno : ∃ pkt ∈ bytesMixed.resent, bytesMixed.stream.length < 2 ^ 32 ∧
      pkt.drop 20 ≠ (bytesMixed.stream.drop ((getSeq pkt).toNat - 1)).take (dlenOf pkt) := by
    decide
  obtain ⟨pkt, hmem, hS, hne⟩ := hno
  exact hne ((hall bytesMixed (ReachBy.of_along slideBetween hgen hrun) pkt hmem).2 hS)

end Tju
