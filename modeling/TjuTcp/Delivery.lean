/-
  The receiver against well-formed segments.

  `recvStep` runs an ESTABLISHED socket on data segments, in any order and
  with any content, and on calls of `tju_recv`.  It keeps what these calls have
  returned, and the segments that were copied into the window, newest first.

  `delivery`: in every state reached, the window, the marks and the delivered
  bytes are those of the accepted segments, position by position, where the
  newest segment counts.
-/
import TjuTcp.Bounds

namespace Tju

open Lib

/-- A receiver, what `tju_recv` has returned on it, and the segments it accepted. -/
structure Receiver where
  host : Host
  read : List Byte
  accepted : List (Seg Byte)

inductive RecvEv where
  | segment (now : ℕ) (pkt : Buf)
  | recv (len : ℕ)

/-- The segment in a packet with a header of 20 bytes. -/
def segmentOf (pkt : Buf) : Seg Byte := ⟨(getSeq pkt).toNat, pkt.drop 20⟩

def recvStep (s : Receiver) : RecvEv → Option Receiver
  | .segment now pkt => (tjuHandlePacket now s.host pkt).map fun r =>
    { s with
      host := r.1
      accepted := if Copied s.host.sock.wndRecv pkt then segmentOf pkt :: s.accepted
        else s.accepted }
  | .recv len =>
    if 0 < len then (tjuRecv s.host.sock len).map fun r =>
      { s with host := { s.host with sock := r.1 }, read := s.read ++ r.2 }
    else none

/-- A receiver whose socket has just been connected. -/
def Receiver.start (a b : TjuSockAddr) : Receiver := ⟨establishedHost a b, [], []⟩

/-- A well-formed data segment, as long as no sequence number wraps. -/
structure WellFormed (expectSeq : BitVec 32) (pkt : Buf) : Prop where
  flags : getFlags pkt = noFlag
  hlen : getHlen pkt = 20
  plen : pkt.length = (getPlen pkt).toNat
  le : 20 ≤ pkt.length
  max : pkt.length ≤ maxLen
  seq : (getSeq pkt).toNat + (pkt.length - 20) < 2 ^ 32
  expect : expectSeq.toNat + maxRwindowSize < 2 ^ 32

/-- The guard on a step: only well-formed segments arrive. -/
def SegmentsOk (s : Receiver) : RecvEv → Prop
  | .segment _ pkt => WellFormed s.host.sock.wndRecv.expectSeq pkt
  | .recv _ => True

/-- The receiver holds and has delivered the bytes of the accepted segments. -/
structure Delivers (s : Receiver) : Prop where
  mark : ∀ i < maxRwindowSize, (s.host.sock.wndRecv.mark i ≠ 0 ↔
    (cover s.accepted (s.host.sock.wndRecv.expectSeq.toNat + i)).isSome)
  recvBuf : ∀ i < maxRwindowSize, ∀ b,
    cover s.accepted (s.host.sock.wndRecv.expectSeq.toNat + i) = some b →
      s.host.sock.wndRecv.recvBuf i = b
  lastFree : LastFree s.host.sock.wndRecv
  freeLen : ∃ k, getWndFreeLen s.host.sock.wndRecv.mark = some k ∧ k.toNat < maxRwindowSize ∧
    (∀ i < k.toNat, s.host.sock.wndRecv.mark i ≠ 0) ∧ s.host.sock.wndRecv.mark k.toNat = 0
  length : (s.read ++ s.host.sock.receivedBuf).length + 1 = s.host.sock.wndRecv.expectSeq.toNat
  delivered : ∀ i < (s.read ++ s.host.sock.receivedBuf).length,
    (s.read ++ s.host.sock.receivedBuf)[i]? = cover s.accepted (1 + i)
  room : s.host.sock.receivedBuf.length ≤ maxSockBufSize

variable {s s' : Receiver} {pkt : Buf} {r : Reasm Byte}

/-! ## One step -/

/-- The receiver, in ESTABLISHED, is a reassembly buffer with the accepted segments. -/
structure RecvRel (s : Receiver) (r : Reasm Byte) : Prop where
  state : s.host.sock.state = .established
  refines : Refines s.host.sock s.read r
  segs : r.segs = s.accepted

theorem WellFormed.isSegment {e : BitVec 32} (h : WellFormed e pkt) :
    IsSegment pkt (segmentOf pkt) := by
  have h1 := h.plen
  have h2 := h.le
  refine ⟨rfl, h.hlen, ?_, ?_, rfl⟩ <;> simp only [segmentOf, List.length_drop] <;> omega

/-- The two tests of the handler are those of the reassembly buffer. -/
theorem copied_iff (hwin : WinRel s.host.sock.wndRecv r)
    (h : WellFormed s.host.sock.wndRecv.expectSeq pkt) :
    Copied s.host.sock.wndRecv pkt ↔ r.next ≤ (segmentOf pkt).off ∧
      (segmentOf pkt).off + (segmentOf pkt).data.length < r.next + maxRwindowSize := by
  have h1 := hwin.expect
  have h2 := h.isSegment.dlen
  have h3 := h.seq
  have h4 := h.expect
  have h5 := h.isSegment.length
  simp only [Copied, payloadLen, segmentOf, maxRwindowSize, maxDlen] at *
  bv_omega

/-- **A segment arrives** at the receiver and at the reassembly buffer. -/
theorem segment_rel {now : ℕ} (hi : RecvRel s r)
    (hok : WellFormed s.host.sock.wndRecv.expectSeq pkt)
    (he : recvStep s (.segment now pkt) = some s') :
    RecvRel s' (r.arrive maxRwindowSize maxSockBufSize (segmentOf pkt)) := by
  obtain ⟨⟨h', out⟩, ht, rfl⟩ := Option.map_eq_some_iff.1 he
  have hexp := hi.refines.win.expect
  have h1 := hok.expect
  have h2 := hok.seq
  have hlen : (segmentOf pkt).data.length = pkt.length - 20 := by simp [segmentOf]
  obtain ⟨sock', hd, href⟩ := handleData_refines hi.refines hok.isSegment
    fun _ => ⟨by omega, by rw [hlen]; exact h2⟩
  rw [handle_data hi.state hok.flags, hd] at ht
  cases ht
  refine ⟨?_, href, ?_⟩
  · show sock'.state = _
    rw [(handleData_frame hd).1]; exact hi.state
  · simp only [Reasm.arrive_segs, copied_iff hi.refines.win hok, hi.segs]

theorem recv_rel {len : ℕ} (hi : RecvRel s r) (he : recvStep s (.recv len) = some s') :
    RecvRel s' (r.take len) := by
  simp only [recvStep] at he
  split_ifs at he
  obtain ⟨⟨sock', bytes⟩, hr, rfl⟩ := Option.map_eq_some_iff.1 he
  have href := tjuRecv_refines hi.refines hr
  refine ⟨?_, href, hi.segs⟩
  obtain ⟨-, rfl, -⟩ := tjuRecv_eq_some hr
  exact hi.state

theorem start_rel (a b : TjuSockAddr) : RecvRel (.start a b) (Reasm.start 1) where
  state := rfl
  refines := ⟨tjuSocket_refines.inv, tjuSocket_refines.win, rfl, rfl⟩
  segs := rfl

/-! ## Runs -/

/-- A related reassembly buffer says what the receiver holds. -/
theorem RecvRel.delivers (hi : RecvRel s r) : Delivers s := by
  have hinv := hi.refines.inv
  have hwin := hi.refines.win
  obtain ⟨k, hk, hkr⟩ := getWndFreeLen_eq hwin hinv
  obtain ⟨hrun, hend⟩ := Reasm.ready_spec hinv
  have hlt : r.ready < maxRwindowSize := Reasm.ready_lt hinv (by simp)
  refine ⟨?_, ?_, ?_, ⟨k, hk, by omega, fun i hik => ?_, ?_⟩, ?_, ?_, ?_⟩
  · rw [hwin.expect, ← hi.segs]; exact hwin.mark
  · rw [hwin.expect, ← hi.segs]; exact hwin.buf
  · have hlast := hwin.mark (maxRwindowSize - 1) (by simp)
    rw [hinv.edge _ (by omega)] at hlast
    simpa [LastFree] using hlast
  · exact (hwin.mark i (by omega)).2 (hrun i (by omega))
  · have hstop := hwin.mark k.toNat (by omega)
    rw [hkr, hend] at hstop
    rw [hkr]
    simpa using hstop
  · rw [hi.refines.out, hwin.expect, hinv.next]; omega
  · rw [hi.refines.out, ← hi.segs]; exact hinv.out
  · rw [hi.refines.received_length]; exact hinv.room

theorem recvRel_reached (a b : TjuSockAddr) (hr : ReachBy recvStep SegmentsOk (.start a b) s) :
    ∃ r, RecvRel s r :=
  hr.inv (I := fun s => ∃ r, RecvRel s r) ⟨_, start_rel a b⟩ fun s e s' ⟨r, hi⟩ hok he => by
    cases e with
    | segment now pkt => exact ⟨_, segment_rel hi hok he⟩
    | recv len => exact ⟨_, recv_rel hi he⟩

/-- **The receiver is a reassembly buffer.**  In every state reached by well-formed segments and
    reads, it holds and has delivered the bytes of the segments it accepted. -/
theorem delivery (a b : TjuSockAddr) (hr : ReachBy recvStep SegmentsOk (.start a b) s) :
    Delivers s := by
  obtain ⟨r, hrel⟩ := recvRel_reached a b hr
  exact hrel.delivers

/-- Two bytes at the front of the window are delivered at once. -/
theorem delivery_two :
    Delivers ((recvStep (.start ⟨clientIp, 5678⟩ ⟨serverIp, 1234⟩)
      (.segment 0 (serverSegment 1 [7, 8]))).getD (.start ⟨clientIp, 5678⟩ ⟨serverIp, 1234⟩)) :=
  delivery ⟨clientIp, 5678⟩ ⟨serverIp, 1234⟩
    (ReachBy.one (e := .segment 0 (serverSegment 1 [7, 8]))
      ⟨rfl, rfl, rfl, by decide, by decide, by decide, by decide⟩ rfl)

end Tju
