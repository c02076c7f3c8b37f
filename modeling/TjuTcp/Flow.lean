/-
  One direction of a connection.

  `Flow snd rcv S read fwd back` relates the sending half of the socket `snd`
  to the receiving half of its peer `rcv`: `S` is everything that was appended
  to `sending_buf`, `read` everything that `tju_recv` has returned at the peer,
  and `fwd` and `back` are the packets in flight to the peer and from it.

  Every operation of the two sockets keeps the relation (`Flow.append` to
  `Flow.recvCall`), as long as fewer than `2 ^ 32 - MAX_RWINDOW_SIZE` bytes are
  appended; `Flow.stream` reads off what was delivered.
-/
import TjuTcp.SendCursors

namespace Tju

open Lib

variable {snd snd' rcv rcv' : TjuTcp} {S D read : List Byte} {fwd fwd' back back' : List Buf}
  {h h' : Host} {pkt : Buf} {now : ℕ}

/-- The stream is short enough for 32-bit sequence numbers. -/
def Short (S : List Byte) : Prop := S.length < 2 ^ 32 - maxRwindowSize

instance (S : List Byte) : Decidable (Short S) := inferInstanceAs (Decidable (_ < _))

/-- The send buffer holds the stream from some position `cut` on. -/
structure SendRel (snd : TjuTcp) (S : List Byte) : Prop where
  cursors : Cursors snd
  buf : ∃ cut ≤ S.length, snd.sendingBuf = S.drop cut ∧
    snd.wndSend.base.toNat = 1 + cut + snd.wndSend.ackCnt.toNat

/-- What was sent so far. -/
def transmitted (snd : TjuTcp) (S : List Byte) : List Byte :=
  S.take (snd.wndSend.nextseq.toNat - 1)

/-- A data packet is a probe below the window, or a piece of what was sent. -/
def InFlight (p : Buf) (T : List Byte) (base : ℕ) : Prop :=
  ∃ s, IsSegment p s ∧ (s.data = [] ∧ s.off < base ∨ s.data ≠ [] ∧ Reasm.Piece 1 T s)

structure Flow (snd rcv : TjuTcp) (S read : List Byte) (fwd back : List Buf) : Prop where
  send : SendRel snd S
  recv : ∃ r, Refines rcv read r ∧ r.Agrees 1 (transmitted snd S) ∧
    snd.wndSend.base.toNat ≤ r.next
  data : ∀ p ∈ fwd, getFlags p = noFlag →
    InFlight p (transmitted snd S) snd.wndSend.base.toNat
  acks : ∀ p ∈ back, getFlags p = ackFlagMask → (getAck p).toNat ≤ rcv.wndRecv.expectSeq.toNat

/-! ## The positions of the cursors in the stream -/

theorem SendRel.spec (hs : SendRel snd S) (hS : Short S) :
    ∃ cut n, snd.sendingBuf = S.drop cut ∧ snd.haveSendLen = (n : ℕ) ∧
      snd.wndSend.ackCnt.toNat ≤ n ∧ cut + n ≤ S.length ∧
      snd.wndSend.base.toNat = 1 + cut + snd.wndSend.ackCnt.toNat ∧
      snd.wndSend.nextseq.toNat = 1 + cut + n := by
  obtain ⟨cut, hcut, hbuf, hbase⟩ := hs.buf
  have h1 := hs.cursors.ack_le
  have h2 := hs.cursors.have_le
  have h3 := hs.cursors.flight
  rw [hbuf, List.length_drop] at h2
  simp only [Short, maxRwindowSize, maxDlen] at hS
  refine ⟨cut, snd.haveSendLen.toNat, hbuf, by omega, by omega, by omega, hbase, ?_⟩
  bv_omega

theorem transmitted_length (hs : SendRel snd S) (hS : Short S) :
    (transmitted snd S).length = snd.wndSend.nextseq.toNat - 1 := by
  obtain ⟨cut, n, -, -, -, hle, -, hn⟩ := hs.spec hS
  rw [transmitted, List.length_take]; omega

/-- A packet stays valid when more is sent, and when more is acknowledged. -/
theorem InFlight.mono {p : Buf} {T U : List Byte} {b c : ℕ} (hp : InFlight p T b) (hbc : b ≤ c) :
    InFlight p (T ++ U) c := by
  obtain ⟨s, hs, ⟨h0, hlt⟩ | ⟨hne, hpc⟩⟩ := hp
  · exact ⟨s, hs, Or.inl ⟨h0, by omega⟩⟩
  · refine ⟨s, hs, Or.inr ⟨hne, hpc.append ?_⟩⟩
    -- the last byte of the piece exists in the stream
    have hlen := List.length_pos_iff.2 hne
    have hlast := hpc.2 (s.data.length - 1) (by omega)
    rw [List.getElem?_eq_getElem (by omega)] at hlast
    have := (List.getElem?_eq_some_iff.1 hlast.symm).1
    omega

/-- Packets cut out of `sending_buf` carry pieces of the stream. -/
theorem Emits.inFlight {cut off off' m b : ℕ} {seq : BitVec 32} {out : List Buf}
    (he : Emits snd off seq out off') (hbuf : snd.sendingBuf = S.drop cut) (hS : Short S)
    (hseq : seq.toNat = 1 + cut + off) (hm : cut + off' ≤ m) :
    ∀ p ∈ out, InFlight p (S.take m) b := by
  intro p hp
  obtain ⟨mid, len, h1, h2, h3, h4, h5, rfl⟩ := he.mem p hp
  rw [hbuf, List.length_drop] at h5
  rw [hbuf, List.drop_drop]
  have hlen : ((S.drop (cut + mid)).take len).length = len := by
    rw [List.length_take, List.length_drop]; omega
  simp only [Short, maxRwindowSize, maxDlen] at hS h3
  rw [dataPacket_eq (by rw [hlen]; simpa using h3)]
  refine ⟨⟨1 + cut + mid, (S.drop (cut + mid)).take len⟩, ⟨?_, by simp, ?_, by simp, wire_drop _ _⟩,
    Or.inr ⟨fun h0 => ?_, by show 1 ≤ 1 + cut + mid; omega, fun i hi => ?_⟩⟩
  · rw [getSeq_wire]; show (seq + BitVec.ofNat 32 (mid - off)).toNat = _; bv_omega
  · rw [getPlen_wire, hlen]
    show (20 + BitVec.ofNat 16 len : BitVec 16).toNat = 20 + len
    bv_omega
  · change (S.drop (cut + mid)).take len = [] at h0
    rw [h0, List.length_nil] at hlen; omega
  · change i < ((S.drop (cut + mid)).take len).length at hi
    rw [hlen] at hi
    show ((S.drop (cut + mid)).take len)[i]? = (S.take m)[1 + cut + mid - 1 + i]?
    rw [List.getElem?_take_of_lt hi, List.getElem?_drop, List.getElem?_take_of_lt (by omega)]
    congr 1; omega

/-! ## Operations of the sender -/

/-- Fewer packets, and packets that are not data or not ACKs, do not matter. -/
theorem Flow.packets (hf : Flow snd rcv S read fwd back)
    (hfwd : ∀ p ∈ fwd', p ∈ fwd ∨ getFlags p ≠ noFlag)
    (hback : ∀ p ∈ back', p ∈ back ∨ getFlags p ≠ ackFlagMask ∨
      (getAck p).toNat ≤ rcv.wndRecv.expectSeq.toNat) : Flow snd rcv S read fwd' back' where
  send := hf.send
  recv := hf.recv
  data p hp hn := (hfwd p hp).elim (fun h => hf.data p h hn) fun h => absurd hn h
  acks p hp hn := by
    rcases hback p hp with h | h | h
    · exact hf.acks p h hn
    · exact absurd hn h
    · exact h

/-- An operation that moves no cursor. -/
theorem Flow.sender (hf : Flow snd rcv S read fwd back) (hs : SameCursors snd snd') :
    Flow snd' rcv S read fwd back := by
  obtain ⟨r, h1, h2, h3⟩ := hf.recv
  have ht : transmitted snd' S = transmitted snd S := by rw [transmitted, hs.nextseq]; rfl
  obtain ⟨cut, hc, hb, hbase⟩ := hf.send.buf
  refine ⟨⟨hf.send.cursors.congr hs, cut, hc, ?_, ?_⟩, ⟨r, h1, ?_, ?_⟩, fun p hp hn => ?_, hf.acks⟩
  · rw [hs.sendingBuf, hb]
  · rw [hs.base, hs.ackCnt, hbase]
  · rw [ht]; exact h2
  · rw [hs.base]; exact h3
  · rw [ht, hs.base]; exact hf.data p hp hn

/-- **More is sent, or acknowledged**: `T` grows behind, and `base` moves on below `expect_seq`. -/
theorem Flow.advance {U S' : List Byte} (hf : Flow snd rcv S read fwd back)
    (hsend : SendRel snd' S') (ht : transmitted snd' S' = transmitted snd S ++ U)
    (hb : snd.wndSend.base.toNat ≤ snd'.wndSend.base.toNat)
    (hle : snd'.wndSend.base.toNat ≤ rcv.wndRecv.expectSeq.toNat) :
    Flow snd' rcv S' read fwd back := by
  obtain ⟨r, h1, h2, h3⟩ := hf.recv
  refine ⟨hsend, ⟨r, h1, ?_, ?_⟩, fun p hp hn => ?_, hf.acks⟩
  · rw [ht]; exact h2.append
  · rw [← h1.win.expect]; exact hle
  · rw [ht]; exact (hf.data p hp hn).mono hb

/-- Data packets are sent. -/
theorem Flow.emit {out : List Buf} (hf : Flow snd rcv S read fwd back)
    (hout : ∀ p ∈ out, getFlags p = noFlag →
      InFlight p (transmitted snd S) snd.wndSend.base.toNat) :
    Flow snd rcv S read (fwd ++ out) back where
  send := hf.send
  recv := hf.recv
  data p hp hn := (List.mem_append.1 hp).elim (fun h => hf.data p h hn) fun h => hout p h hn
  acks := hf.acks

/-- `base` is at most `expect_seq`. -/
theorem Flow.base_le (hf : Flow snd rcv S read fwd back) :
    snd.wndSend.base.toNat ≤ rcv.wndRecv.expectSeq.toNat := by
  obtain ⟨r, h1, -, h3⟩ := hf.recv
  rw [h1.win.expect]; exact h3

/-- Bytes are appended to `sending_buf`. -/
theorem Flow.append (hf : Flow snd rcv S read fwd back) (hS : Short (S ++ D))
    (ha : appendData snd D = some snd') : Flow snd' rcv (S ++ D) read fwd back := by
  have hS₀ : Short S := by
    simp only [Short, List.length_append] at hS ⊢; omega
  have hcur := append_cursors (h := ⟨snd, false, false, false, 0⟩) hf.send.cursors ha
  obtain ⟨cut, n, hbuf, -, -, hle, -, hnext⟩ := hf.send.spec hS₀
  obtain ⟨cut', hc', hb', hbase'⟩ := hf.send.buf
  obtain ⟨-, rfl⟩ := appendData_eq_some ha
  have ht : transmitted { snd with sendingBuf := snd.sendingBuf ++ D } (S ++ D) =
      transmitted snd S ++ [] := by
    rw [List.append_nil]
    have hlt : snd.wndSend.nextseq.toNat - 1 ≤ S.length := by omega
    exact List.take_append_of_le_length hlt
  have hbuf' : snd.sendingBuf ++ D = (S ++ D).drop cut' := by
    rw [List.drop_append_of_le_length hc', hb']
  exact hf.advance ⟨hcur, cut', by rw [List.length_append]; omega, hbuf', hbase'⟩ ht le_rfl
    hf.base_le

/-- A pass of `sending_thread`. -/
theorem Flow.sendPass (hf : Flow h.sock rcv S read fwd back) (hS : Short S) :
    Flow (sendingThread now h).1.sock rcv S read (fwd ++ (sendingThread now h).2) back := by
  have hcur := sendingThread_cursors now hf.send.cursors
  unfold sendingThread at hcur ⊢
  split
  · next smp hs =>
    rw [hs] at hcur
    obtain ⟨cut, n, hbuf, hn, hack, hle, hbase, hnext⟩ := hf.send.spec hS
    have hlen : h.sock.sendingBuf.length = S.length - cut := by rw [hbuf, List.length_drop]
    obtain ⟨-, -, -, -, hsmp'⟩ := sendSample_eq_some_iff.1 hs
    have hsmp : smp.nextseq = h.sock.wndSend.nextseq := by rw [hsmp']
    obtain ⟨n', hn', -, hnext', hem, -, hbuf', hack', hbase', -⟩ := sendBatch_spec now smp hn (by omega) hf.send.cursors.len_le
    rw [hsmp] at hem hnext'
    have hS' := hS
    simp only [Short, maxRwindowSize, maxDlen] at hS'
    have hnext'' : (sendBatch now smp h).1.sock.wndSend.nextseq.toNat = 1 + cut + n' := by
      rw [hnext']; bv_omega
    have ht : transmitted (sendBatch now smp h).1.sock S =
        transmitted h.sock S ++ (S.drop (cut + n)).take (n' - n) := by
      simp only [transmitted, hnext'', hnext]
      rw [show 1 + cut + n' - 1 = cut + n + (n' - n) by omega, List.take_add,
        show 1 + cut + n - 1 = cut + n by omega]
    have hadv := hf.advance ⟨hcur, cut, by omega, by rw [hbuf', hbuf], by rw [hbase', hack', hbase]⟩
      ht (by rw [hbase']) (by rw [hbase']; exact hf.base_le)
    have hm : cut + n' ≤ (sendBatch now smp h).1.sock.wndSend.nextseq.toNat - 1 := by omega
    exact hadv.emit fun p hp _ => hem.inFlight hbuf hS (by omega) hm p hp
  · rw [List.append_nil]; exact hf

/-- A pass of `retrans_thread` is defined, and sends a probe or pieces of what was sent before. -/
theorem Flow.retransPass (hf : Flow h.sock rcv S read fwd back) (hS : Short S) :
    ∃ h' out, retransThread h = some (h', out) ∧
      Flow h'.sock rcv S read (fwd ++ out) back := by
  obtain ⟨cut, n, hbuf, hn, hack, hle, hbase, hnext⟩ := hf.send.spec hS
  obtain ⟨h', out, he, -, hsame, -, hout⟩ := retransThread_spec hf.send.cursors
  refine ⟨h', out, he, ?_⟩
  refine (hf.emit fun p hp _ => ?_).sender hsame
  rcases hout with rfl | rfl | hem
  · cases hp
  · rw [List.mem_singleton] at hp
    subst hp
    -- a zero-window probe
    refine ⟨⟨h.sock.wndSend.base.toNat - 1, []⟩, ?_, Or.inl ⟨rfl, by show _ - 1 < _; omega⟩⟩
    rw [probePacket, dataPacket_eq (by simp)]
    refine ⟨?_, by simp, by simp, by simp, wire_drop _ _⟩
    rw [getSeq_wire]; show (h.sock.wndSend.base - 1).toNat = _; bv_omega
  · exact hem.inFlight hbuf hS (by omega) (by omega) p hp

/-- An ACK from the peer is handled. -/
theorem Flow.ackCall (now : ℕ) (hf : Flow h.sock rcv S read fwd back) (hS : Short S) (hp : pkt ∈ back)
    (hfl : getFlags pkt = ackFlagMask) :
    ∃ h', handleAck now h pkt = some h' ∧ SameRest h.sock h'.sock ∧
      Flow h'.sock rcv S read fwd back := by
  obtain ⟨cut, n, hbuf, hn, hack, hle, hbase, hnext⟩ := hf.send.spec hS
  have hak := hf.acks pkt hp hfl
  obtain ⟨r, h1, h2, h3⟩ := hf.recv
  have hnx : r.next ≤ h.sock.wndSend.nextseq.toNat := by
    have hlen := (h2.out_eq h1.inv).2
    have hr := h1.inv.next
    rw [transmitted_length hf.send hS] at hlen
    omega
  rw [h1.win.expect] at hak
  by_cases hold : getAck pkt ≤ h.sock.wndSend.base
  · obtain ⟨h', he, hrest, hsame, -⟩ := handleAck_old now hold
    exact ⟨h', he, hrest, hf.sender hsame⟩
  · have hlt : h.sock.wndSend.base < getAck pkt := by bv_omega
    obtain ⟨h', he, hcur, -⟩ := handleAck_cursors now hf.send.cursors
      (show AckOk h.sock (getAck pkt) from Or.inr (by rw [AckInWindow]; bv_omega))
    have hin : h.sock.wndSend.ackCnt.toNat + (getAck pkt - h.sock.wndSend.base).toNat ≤ n := by
      bv_omega
    have hlen : n ≤ h.sock.sendingBuf.length := by rw [hbuf, List.length_drop]; omega
    obtain ⟨h'', c, he', hrest, -, hc, hbuf', -, hack', hbase', hnext'⟩ := handleAck_new
      now hlt hn hin hlen hf.send.cursors.len_le
    rw [he] at he'; cases he'
    have hcl := hc.le.trans (cleaned_le ..)
    have hdiff : (getAck pkt - h.sock.wndSend.base).toNat =
        (getAck pkt).toNat - h.sock.wndSend.base.toNat := by bv_omega
    have ht : transmitted h'.sock S = transmitted h.sock S ++ [] := by
      rw [List.append_nil, transmitted, hnext']; rfl
    have hsend : SendRel h'.sock S := ⟨hcur, cut + c, by omega,
      by rw [hbuf', hbuf, List.drop_drop], by rw [hbase', hack']; bv_omega⟩
    exact ⟨h', he, hrest, hf.advance hsend ht (by rw [hbase']; bv_omega)
      (by rw [hbase', h1.win.expect]; exact hak)⟩

/-! ## Operations of the receiver -/

/-- An operation that leaves the receiving half as it is. -/
theorem Flow.receiver (hf : Flow snd rcv S read fwd back) (hw : rcv'.wndRecv = rcv.wndRecv)
    (hb : rcv'.receivedBuf = rcv.receivedBuf) : Flow snd rcv' S read fwd back := by
  obtain ⟨r, h1, h2, h3⟩ := hf.recv
  exact ⟨hf.send, ⟨r, ⟨h1.inv, by rw [hw]; exact h1.win, by rw [hb]; exact h1.out, h1.taken⟩, h2, h3⟩,
    hf.data, by rw [hw]; exact hf.acks⟩

/-- A data packet is handled, and answered by an ACK. -/
theorem Flow.dataCall (hf : Flow snd rcv S read fwd back) (hS : Short S) (hp : pkt ∈ fwd)
    (hfl : getFlags pkt = noFlag) :
    ∃ rcv', handleData rcv pkt = some (rcv', [ackPacket rcv']) ∧
      Flow snd rcv' S read fwd (back ++ [ackPacket rcv']) := by
  obtain ⟨r, h1, h2, h3⟩ := hf.recv
  obtain ⟨s, hseg, hkind⟩ := hf.data pkt hp hfl
  have hlen := (h2.out_eq h1.inv).2
  have htl := transmitted_length hf.send hS
  obtain ⟨cut, n, -, -, -, hle, -, hnext⟩ := hf.send.spec hS
  have hS' := hS
  simp only [Short, maxRwindowSize, maxDlen] at hS'
  -- a segment at or above `expect_seq` is a piece of what was sent, so that no sum wraps
  have hwrap : r.next ≤ s.off →
      r.next + maxRwindowSize < 2 ^ 32 ∧ s.off + s.data.length < 2 ^ 32 := fun hge => by
    rcases hkind with ⟨-, hlt⟩ | ⟨hne, hpc⟩
    · omega
    · have hpos := List.length_pos_iff.2 hne
      have hlast := hpc.2 (s.data.length - 1) (by omega)
      rw [List.getElem?_eq_getElem (by omega)] at hlast
      have := (List.getElem?_eq_some_iff.1 hlast.symm).1
      simp only [maxRwindowSize, maxDlen]
      omega
  obtain ⟨rcv', hd, href⟩ := handleData_refines h1 hseg hwrap
  have hmono := Reasm.next_le_arrive r maxRwindowSize maxSockBufSize s
  have hagree : (r.arrive maxRwindowSize maxSockBufSize s).Agrees 1 (transmitted snd S) := by
    rcases hkind with ⟨-, hlt⟩ | ⟨-, hpc⟩
    · have hno : ¬ r.next ≤ s.off := by omega
      rwa [Reasm.arrive, if_neg hno]
    · exact h2.arrive hpc
  refine ⟨rcv', hd, hf.send, ⟨_, href, hagree, by omega⟩, hf.data, fun p hp hn => ?_⟩
  rcases List.mem_append.1 hp with hp | hp
  · have := hf.acks p hp hn
    rw [h1.win.expect] at this
    rw [href.win.expect]; omega
  · rw [List.mem_singleton] at hp
    subst hp
    exact le_of_eq (by rw [ackPacket_eq, getAck_wire])

/-- A `tju_recv`. -/
theorem Flow.recvCall {len : ℕ} {bytes : List Byte} (hf : Flow snd rcv S read fwd back)
    (hr : tjuRecv rcv len = some (rcv', bytes)) : Flow snd rcv' S (read ++ bytes) fwd back := by
  obtain ⟨r, h1, h2, h3⟩ := hf.recv
  have href := tjuRecv_refines h1 hr
  obtain ⟨-, rfl, -⟩ := tjuRecv_eq_some hr
  exact ⟨hf.send, ⟨r.take len, href, h2, h3⟩, hf.data, hf.acks⟩

/-! ## What is delivered -/

/-- **The stream.**  What was read, with what waits to be read, is the front of the stream, of
    length `expect_seq - 1`; `expect_seq` lies in the send window; and the unacknowledged part of
    `sending_buf` is the stream from `base - 1` on. -/
theorem Flow.stream (hf : Flow snd rcv S read fwd back) (hS : Short S) :
    read ++ rcv.receivedBuf = S.take (rcv.wndRecv.expectSeq.toNat - 1) ∧
      (read ++ rcv.receivedBuf).length = rcv.wndRecv.expectSeq.toNat - 1 ∧
      1 ≤ rcv.wndRecv.expectSeq.toNat ∧
      snd.wndSend.base.toNat ≤ rcv.wndRecv.expectSeq.toNat ∧
      rcv.wndRecv.expectSeq.toNat ≤ snd.wndSend.nextseq.toNat ∧
      snd.sendingBuf.drop snd.wndSend.ackCnt.toNat = S.drop (snd.wndSend.base.toNat - 1) := by
  obtain ⟨r, h1, h2, h3⟩ := hf.recv
  obtain ⟨cut, n, hbuf, -, -, hle, hbase, hnext⟩ := hf.send.spec hS
  obtain ⟨hout, hlen⟩ := h2.out_eq h1.inv
  rw [transmitted_length hf.send hS] at hlen
  have hr := h1.inv.next
  rw [h1.win.expect, h1.out]
  refine ⟨?_, by omega, by omega, h3, by omega, ?_⟩
  · rw [hout, transmitted, List.take_take]; congr 1; omega
  · rw [hbuf, List.drop_drop]; congr 1; omega

end Tju
