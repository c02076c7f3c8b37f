/-
  The sender stays inside the window of the receiver.

  `sending_thread` sends up to `window_size` bytes above `ack_cnt`, and the
  window is never larger than what the peer has advertised.  So no more than
  `MAX_SWINDOW_SIZE` bytes are ever in flight (`inCredit_reached`), however old
  the advertisement is, and no data segment lies above the receive window.

  `segments_fit`: every data segment in flight ends inside the window of its
  receiver, in every reachable state.  The handler drops one that it still
  waits for only if the segment ends exactly at the right edge, which takes a
  full window in flight of which the receiver has nothing.
-/
import TjuTcp.Endpoints
import TjuTcp.Bounds

namespace Tju

open Lib

/-- The bytes in flight fit into a window. -/
def InCredit (w : SenderWindow) : Prop := w.nextseq.toNat ≤ w.base.toNat + maxSwindowSize

/-- The segment ends inside the receive window of `rcv`; and if `rcv` waits for it and does not copy
    it, it is the end of a full window in flight of which `rcv` has delivered nothing. -/
structure SegmentFits (snd rcv : TjuTcp) (pkt : Buf) : Prop where
  inside : (getSeq pkt).toNat + (payloadLen pkt).toNat ≤
    rcv.wndRecv.expectSeq.toNat + maxRwindowSize
  refused : rcv.wndRecv.expectSeq ≤ getSeq pkt → ¬ Copied rcv.wndRecv pkt →
    snd.wndSend.base = rcv.wndRecv.expectSeq ∧
      snd.wndSend.nextseq.toNat = snd.wndSend.base.toNat + maxSwindowSize ∧
      (getSeq pkt).toNat + (payloadLen pkt).toNat = snd.wndSend.nextseq.toNat

variable {s s' : Conn} {e : ConnEv} {h h' : Host} {x : Side} {snd rcv : TjuTcp}
  {S read : List Byte} {fwd back : List Buf} {pkt : Buf} {now : ℕ}

/-! ## One step -/

/-- A pass of `sending_thread` sends up to the end of the window. -/
theorem Flow.sendPass_credit (now : ℕ) (hf : Flow h.sock rcv S read fwd back) (hS : Short S)
    (hw : h.sock.wndSend.windowSize.toNat ≤ maxSwindowSize) (hc : InCredit h.sock.wndSend) :
    InCredit (sendingThread now h).1.sock.wndSend := by
  obtain ⟨cut, n, hbuf, hn, hack, hle, hbase, hnext⟩ := hf.send.spec hS
  have hlen : h.sock.sendingBuf.length = S.length - cut := by rw [hbuf, List.length_drop]
  have hmax := hf.send.cursors.len_le
  have hS' := hS
  simp only [Short, maxRwindowSize, maxDlen] at hS'
  simp only [maxSockBufSize, maxLen] at hmax
  unfold InCredit at hc ⊢
  unfold sendingThread
  split
  · next smp hsmp =>
    obtain ⟨-, -, -, -, rfl⟩ := sendSample_eq_some_iff.1 hsmp
    obtain ⟨n', hn', -, hnext', -, -, -, -, hbase', -⟩ := sendBatch_spec now
      ⟨h.sock.wndSend.windowSize, h.sock.wndSend.ackCnt, h.sock.wndSend.base,
        h.sock.wndSend.nextseq⟩ hn (by omega) hf.send.cursors.len_le
    -- the limit of the batch does not wrap
    have hlim : (h.sock.wndSend.ackCnt + h.sock.wndSend.windowSize).toNat =
        h.sock.wndSend.ackCnt.toNat + h.sock.wndSend.windowSize.toNat := by
      simp only [maxSwindowSize, maxDlen] at hw
      bv_omega
    have hnat : (sendBatch now ⟨h.sock.wndSend.windowSize, h.sock.wndSend.ackCnt,
        h.sock.wndSend.base, h.sock.wndSend.nextseq⟩ h).1.sock.wndSend.nextseq.toNat =
        1 + cut + n' := by
      rw [hnext']
      bv_omega
    rw [hbase', hnat]
    dsimp only at hn'
    omega
  · exact hc

/-- **One step keeps both senders in their credit.** -/
theorem inCredit_step (hf : FlowAll s) (hw : WindowsOk s)
    (hcong : ∀ x, CongInv (s.ep x).sock.wndSend) (hc : ∀ x, InCredit (s.ep x).sock.wndSend)
    (hS : ShortAll s') (he : connStep s e = some s') :
    ∀ x, InCredit (s'.ep x).sock.wndSend := by
  intro y
  -- apart from `sending_thread`, no step moves `nextseq`, and `base` only grows
  have hkeep : (s'.ep y).sock.wndSend.nextseq = (s.ep y).sock.wndSend.nextseq →
      InCredit (s'.ep y).sock.wndSend := fun hn => by
    have hb : (s.ep y).sock.wndSend.base.toNat ≤ (s'.ep y).sock.wndSend.base.toNat :=
      base_mono_step he y
    have hold := hc y
    unfold InCredit at hold ⊢
    rw [hn]
    omega
  cases connStep_hosts he with
  | closes _ hcl => exact hkeep (by rw [(hcl y).wndSend])
  | sock x f _ hstep hpeer =>
    rcases Side.eq_or_peer x y with rfl | rfl
    · by_cases hsend : ∃ now, f = .sendPass now
      · obtain ⟨now, rfl⟩ := hsend
        have hwin : (s.ep y).sock.wndSend.windowSize.toNat ≤ maxSwindowSize := by
          rw [(hcong y).windowSize, cmin_toNat]
          exact (min_le_right _ _).trans (hw.rwnd y).2
        have hpass := (hf y).sendPass_credit now (hS.back he y) hwin (hc y)
        rw [← Option.some.inj hstep]
        exact hpass
      · exact hkeep (sockStep_nextseq hstep fun now h => hsend ⟨now, h⟩)
    · exact hkeep (by rw [hpeer])

/-! ## Runs -/

/-- **No more than a window is in flight**, in either direction. -/
theorem inCredit_reached (client server : TjuSockAddr)
    (hr : Reach connStep (.start client server (handshake client server)) s) (hS : ShortAll s) :
    ∀ x, InCredit (s.ep x).sock.wndSend := by
  have hall : Reach connStep (.start client server (handshake client server)) s ∧
      (ShortAll s → ∀ x, InCredit (s.ep x).sock.wndSend) := by
    refine hr.inv (I := fun s => Reach connStep (.start client server (handshake client server)) s ∧
      (ShortAll s → ∀ x, InCredit (s.ep x).sock.wndSend)) ⟨ReachBy.refl, fun _ => ?_⟩ ?_
    · exact start_hosts (I := fun h => InCredit h.sock.wndSend) fun _ _ =>
        show (1 : BitVec 32).toNat ≤ (1 : BitVec 32).toNat + maxSwindowSize from by decide
    · rintro s e s' ⟨hr, hc⟩ - he
      refine ⟨hr.tail trivial he, fun hS => ?_⟩
      have hS₀ := hS.back he
      have hf := (flowAll_reached hr).2
      exact inCredit_step (hf hS₀) (windowsOk_reached client server hr) (congInv_hosts hr)
        (hc hS₀) hS he
  exact hall.2 hS

/-! ## Segments -/

/-- A data packet in flight starts inside the transmitted part of the stream, and ends with it or
    before. -/
theorem Flow.end_le (hf : Flow snd rcv S read fwd back) (hS : Short S) (hp : pkt ∈ fwd)
    (hfl : getFlags pkt = noFlag) : (getSeq pkt).toNat ≤ S.length ∧
      (getSeq pkt).toNat + (payloadLen pkt).toNat ≤ snd.wndSend.nextseq.toNat := by
  obtain ⟨seg, hseg, hkind⟩ := hf.data pkt hp hfl
  obtain ⟨cut, n, -, -, hack, hle, hbase, hnext⟩ := hf.send.spec hS
  have hlen := transmitted_length hf.send hS
  rw [show (payloadLen pkt).toNat = seg.data.length from hseg.dlen, hseg.seq]
  rcases hkind with ⟨hnil, hlt⟩ | ⟨hne, hpc⟩
  · rw [hnil, List.length_nil]
    omega
  · -- the last byte of the piece exists in the stream
    have hpos := List.length_pos_iff.2 hne
    have ho := hpc.1
    have hlast := hpc.2 (seg.data.length - 1) (by omega)
    rw [List.getElem?_eq_getElem (by omega)] at hlast
    have hin := (List.getElem?_eq_some_iff.1 hlast.symm).1
    omega

/-- **Every segment in flight fits.**  In every reachable state of a connection whose streams are
    short, at most `MAX_SWINDOW_SIZE` bytes are in flight in either direction, and every data
    segment in flight ends inside the receive window of its receiver; one that the receiver still
    waits for is copied, unless it ends exactly at the right edge of a full window. -/
theorem segments_fit (client server : TjuSockAddr)
    (hr : Reach connStep (.start client server (handshake client server)) s) (hS : ShortAll s)
    (x : Side) : InCredit (s.ep x).sock.wndSend ∧
      ∀ pkt ∈ s.net x.peer, getFlags pkt = noFlag →
        SegmentFits (s.ep x).sock (s.ep x.peer).sock pkt := by
  obtain ⟨-, hf⟩ := flowAll_reached hr
  have hc := inCredit_reached client server hr hS x
  refine ⟨hc, fun pkt hp hfl => ?_⟩
  obtain ⟨hstart, hend⟩ := (hf hS x).end_le (hS x) hp hfl
  have hbase := ((hf hS).delivered hS x).base_le
  have hshort := hS x
  unfold InCredit at hc
  simp only [maxSwindowSize, maxDlen, Short, maxRwindowSize] at hc hshort
  refine ⟨by simp only [maxRwindowSize, maxDlen]; omega, fun hge hno => ?_⟩
  -- nothing wraps, so that the test for the right edge compares plain numbers
  have hedge : ¬ (getSeq pkt).toNat + (payloadLen pkt).toNat <
      (s.ep x.peer).sock.wndRecv.expectSeq.toNat + 44000 := by
    intro hlt
    refine hno ⟨hge, ?_⟩
    simp only [maxRwindowSize, maxDlen]
    bv_omega
  simp only [maxSwindowSize, maxDlen]
  exact ⟨BitVec.eq_of_toNat_eq (by omega), by omega, by omega⟩

/-- The client has sent a byte, and its packet is in flight. -/
theorem segments_fit_byte :
    let s := (exec connStep freshConn [.append .client [7], .sendPass .client 0]).getD freshConn
    InCredit (s.ep .client).sock.wndSend ∧ ∀ pkt ∈ s.net Side.client.peer, getFlags pkt = noFlag →
      SegmentFits (s.ep .client).sock (s.ep Side.client.peer).sock pkt :=
  segments_fit ⟨clientIp, 5678⟩ ⟨serverIp, 1234⟩
    (.of_exec [.append .client [7], .sendPass .client 0] rfl) (by intro x; cases x <;> decide)
    .client

end Tju
