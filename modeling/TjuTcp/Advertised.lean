/-
  The window that the receiver advertises.

  Every ACK for a data segment carries `expect_seq` and `remain_size`.  The
  second is from 1 to `MAX_RWINDOW_SIZE` (`remain_reached`), and the handler
  keeps every segment that ends in front of the last position of the window.
  So a segment inside the advertised window is kept, unless it ends exactly at
  the edge of a window that is advertised in full (`advertised_kept`).
-/
import TjuTcp.Delivery

namespace Tju

open Lib

/-- The byte with the sequence number `n` has been delivered, or is marked in the window. -/
def Holds (s : Receiver) (n : ℕ) : Prop :=
  n < 1 + (s.read ++ s.host.sock.receivedBuf).length ∨
    s.host.sock.wndRecv.expectSeq.toNat ≤ n ∧
      n - s.host.sock.wndRecv.expectSeq.toNat < maxRwindowSize ∧
      s.host.sock.wndRecv.mark (n - s.host.sock.wndRecv.expectSeq.toNat) ≠ 0

/-- The number and the window of the ACK that the receiver sends. -/
def advertised (s : Receiver) : ℕ × ℕ :=
  ((getAck (ackPacket s.host.sock)).toNat, (getAdvertisedWindow (ackPacket s.host.sock)).toNat)

variable {s s' : Receiver} {pkt : Buf} {r : Reasm Byte} {sock sock' : TjuTcp} {w w' : ReceiverWindow}

/-- What the receiver holds are the covered positions. -/
theorem RecvRel.holds (hi : RecvRel s r) {n : ℕ} (hn : 1 ≤ n) :
    Holds s n ↔ (cover s.accepted n).isSome := by
  have hinv := hi.refines.inv
  have hwin := hi.refines.win
  have hlen : 1 + (s.read ++ s.host.sock.receivedBuf).length = r.next := by
    rw [hi.refines.out, hinv.next]
  unfold Holds
  rw [hlen, hwin.expect, ← hi.segs]
  constructor
  · rintro (hlt | ⟨hge, hlt, hm⟩)
    · exact Reasm.cover_delivered hinv hn hlt
    · have hcov := (hwin.mark _ hlt).1 hm
      rwa [Nat.add_sub_cancel' hge] at hcov
  · intro hcov
    rcases Nat.lt_or_ge n r.next with hlt | hge
    · exact Or.inl hlt
    · have hlt : n - r.next < maxRwindowSize := by
        by_contra hout
        rw [hinv.edge n (by omega)] at hcov
        cases hcov
      exact Or.inr ⟨hge, hlt, (hwin.mark _ hlt).2 (by rwa [Nat.add_sub_cancel' hge])⟩

/-! ## `remain_size` -/

theorem getWndFreeLen_lt {mark : ℕ → Byte} {k : BitVec 16} (hk : getWndFreeLen mark = some k) :
    k.toNat < maxRwindowSize := by
  obtain ⟨j, hj, rfl⟩ := Option.map_eq_some_iff.1 hk
  obtain ⟨-, hlt, -, -⟩ := scan_eq_some hj
  rw [BitVec.toNat_ofNat]
  exact (Nat.mod_le _ _).trans_lt (by omega)

theorem putSegment_remain (hp : putSegment w pkt = some w') : w'.remainSize = w.remainSize := by
  unfold putSegment at hp
  simp only [Option.bind_eq_bind] at hp
  split_ifs at hp
  · obtain ⟨data, -, hp⟩ := Option.bind_eq_some_iff.1 hp
    obtain ⟨buf, -, hp⟩ := Option.bind_eq_some_iff.1 hp
    obtain ⟨mark, -, hp⟩ := Option.bind_eq_some_iff.1 hp
    cases hp
    rfl
  · cases hp
    rfl

/-- A size that fits into the 16 bits of the advertised window. -/
structure RemainOk (w : ReceiverWindow) : Prop where
  pos : 1 ≤ w.remainSize.toNat
  le : w.remainSize.toNat ≤ maxRwindowSize

theorem slideWindow_remain (h : slideWindow sock = some sock') (hr : RemainOk sock.wndRecv) :
    RemainOk sock'.wndRecv := by
  unfold slideWindow at h
  simp only [Option.bind_eq_bind] at h
  split_ifs at h
  · obtain ⟨k, hk, h⟩ := Option.bind_eq_some_iff.1 h
    have hlt := getWndFreeLen_lt hk
    split_ifs at h
    · cases h
      simp only [maxRwindowSize, maxDlen] at hlt
      have hsize : (BitVec.ofNat 32 maxRwindowSize - k.setWidth 32).toNat = 44000 - k.toNat := by
        simp only [maxRwindowSize, maxDlen]
        bv_omega
      refine ⟨?_, ?_⟩
      · show 1 ≤ (BitVec.ofNat 32 maxRwindowSize - k.setWidth 32).toNat
        omega
      · show (BitVec.ofNat 32 maxRwindowSize - k.setWidth 32).toNat ≤ maxRwindowSize
        rw [hsize]
        exact Nat.sub_le _ _
    · cases h
      exact ⟨show 1 ≤ (BitVec.ofNat 32 maxRwindowSize).toNat by decide, le_rfl⟩
  · cases h
    exact hr

theorem handleData_remain {out : List Buf} (h : handleData sock pkt = some (sock', out))
    (hr : RemainOk sock.wndRecv) : RemainOk sock'.wndRecv := by
  unfold handleData at h
  simp only [Option.bind_eq_bind] at h
  split_ifs at h
  · obtain ⟨w, hw, h⟩ := Option.bind_eq_some_iff.1 h
    obtain ⟨t, ht, h⟩ := Option.bind_eq_some_iff.1 h
    cases h
    have hrem := putSegment_remain hw
    exact slideWindow_remain ht ⟨hrem ▸ hr.pos, hrem ▸ hr.le⟩
  · cases h
    exact hr

/-- The guard on a step: whatever arrives is a data segment, well-formed or not. -/
def SegmentsOnly (_ : Receiver) : RecvEv → Prop
  | .segment _ pkt => getFlags pkt = noFlag
  | .recv _ => True

/-- The advertised window is never empty, and never larger than the window. -/
theorem segments_reached (a b : TjuSockAddr) (hr : ReachBy recvStep SegmentsOnly (.start a b) s) :
    s.host.sock.state = .established ∧ RemainOk s.host.sock.wndRecv := by
  refine hr.inv (I := fun s => s.host.sock.state = .established ∧ RemainOk s.host.sock.wndRecv)
    ⟨rfl, ⟨?_, le_rfl⟩⟩ ?_
  · show 1 ≤ (BitVec.ofNat 32 maxRwindowSize).toNat
    decide
  intro s e s' ⟨hs, hrem⟩ hok he
  cases e with
  | segment now pkt =>
    obtain ⟨⟨h', out⟩, ht, rfl⟩ := Option.map_eq_some_iff.1 he
    rw [handle_data hs hok] at ht
    obtain ⟨⟨sock', out⟩, hd, ht⟩ := Option.map_eq_some_iff.1 ht
    cases ht
    refine ⟨?_, handleData_remain hd hrem⟩
    rw [(handleData_frame hd).1]
    exact hs
  | recv len =>
    simp only [recvStep] at he
    split_ifs at he
    obtain ⟨⟨sock', bytes⟩, ht, rfl⟩ := Option.map_eq_some_iff.1 he
    obtain ⟨-, rfl, -⟩ := tjuRecv_eq_some ht
    exact ⟨hs, hrem.pos, hrem.le⟩

theorem SegmentsOk.only {e : RecvEv} (h : SegmentsOk s e) : SegmentsOnly s e := by
  cases e with
  | segment now pkt => exact h.flags
  | recv len => exact trivial

theorem remain_reached (a b : TjuSockAddr) (hr : ReachBy recvStep SegmentsOk (.start a b) s) :
    RemainOk s.host.sock.wndRecv :=
  (segments_reached a b (hr.weaken fun _ _ h => SegmentsOk.only h)).2

/-! ## The advertised window -/

theorem advertised_eq (hle : s.host.sock.wndRecv.remainSize.toNat ≤ maxRwindowSize) :
    advertised s =
      (s.host.sock.wndRecv.expectSeq.toNat, s.host.sock.wndRecv.remainSize.toNat) := by
  simp only [maxRwindowSize, maxDlen] at hle
  simp only [advertised, ackPacket, defaultHeaderLen, createPacketBuf_nil, getAck_wire,
    getAdvertisedWindow_wire, BitVec.toNat_setWidth, Prod.mk.injEq, true_and]
  omega

theorem segment_isSome (hi : RecvRel s r) (hok : WellFormed s.host.sock.wndRecv.expectSeq pkt)
    (now : ℕ) : ∃ s', recvStep s (.segment now pkt) = some s' := by
  have hexp := hi.refines.win.expect
  have h1 := hok.expect
  have h2 := hok.seq
  have hlen : (segmentOf pkt).data.length = pkt.length - 20 := by simp [segmentOf]
  obtain ⟨sock', hd, -⟩ := handleData_refines hi.refines hok.isSegment
    fun _ => ⟨by omega, by rw [hlen]; exact h2⟩
  refine Option.isSome_iff_exists.1 ?_
  rw [recvStep, handle_data hi.state hok.flags, hd]
  rfl

/-- A segment that does not start below the window is held after it was handled, just if it is
    empty or ends in front of the last position of the window. -/
theorem segment_holds {now : ℕ} (hi : RecvRel s r)
    (hok : WellFormed s.host.sock.wndRecv.expectSeq pkt)
    (hseq : s.host.sock.wndRecv.expectSeq.toNat ≤ (getSeq pkt).toNat)
    (he : recvStep s (.segment now pkt) = some s') :
    (∀ i < pkt.length - 20, Holds s' ((getSeq pkt).toNat + i)) ↔
      pkt.length - 20 = 0 ∨ (getSeq pkt).toNat + (pkt.length - 20) <
        s.host.sock.wndRecv.expectSeq.toNat + maxRwindowSize := by
  have hi' := segment_rel hi hok he
  have hexp := hi.refines.win.expect
  have hpos := hi.refines.inv.next
  have hlen : (segmentOf pkt).data.length = pkt.length - 20 := by simp [segmentOf]
  have hoff : (segmentOf pkt).off = (getSeq pkt).toNat := rfl
  have hcov := Reasm.arrive_covers hi.refines.inv (hexp.symm.le.trans hseq : r.next ≤ (segmentOf pkt).off)
  rw [hlen, hoff] at hcov
  rw [hexp, ← hcov]
  refine forall₂_congr fun i _ => ?_
  rw [hi'.holds (by omega), hi'.segs]

/-- **The advertised window is kept**, up to its last position: of a segment inside the window
    that the receiver has advertised every byte is held after it was handled, just if the segment
    is empty or does not end at the edge of the whole window. -/
theorem advertised_kept (a b : TjuSockAddr) (hr : ReachBy recvStep SegmentsOk (.start a b) s)
    (now : ℕ) (hok : WellFormed s.host.sock.wndRecv.expectSeq pkt)
    (hseq : (advertised s).1 ≤ (getSeq pkt).toNat)
    (hend : (getSeq pkt).toNat + (pkt.length - 20) ≤ (advertised s).1 + (advertised s).2) :
    ∃ s', recvStep s (.segment now pkt) = some s' ∧
      ((∀ i < pkt.length - 20, Holds s' ((getSeq pkt).toNat + i)) ↔
        pkt.length = 20 ∨
          (getSeq pkt).toNat + (pkt.length - 20) ≠ (advertised s).1 + maxRwindowSize) := by
  obtain ⟨r, hi⟩ := recvRel_reached a b hr
  have hle := (remain_reached a b hr).le
  have h20 := hok.le
  rw [advertised_eq hle] at hseq hend ⊢
  dsimp only at hseq hend ⊢
  obtain ⟨s', he⟩ := segment_isSome hi hok now
  refine ⟨s', he, ?_⟩
  rw [segment_holds hi hok hseq he]
  omega

/-- A receiver that has been sent the byte with the number 1, and has acknowledged it. -/
def oneByteReceiver : Receiver :=
  (recvStep (.start ⟨clientIp, 5678⟩ ⟨serverIp, 1234⟩) (.segment 0 (serverSegment 1 [7]))).getD
    (.start ⟨clientIp, 5678⟩ ⟨serverIp, 1234⟩)

theorem oneByteReceiver_reached :
    ReachBy recvStep SegmentsOk (.start ⟨clientIp, 5678⟩ ⟨serverIp, 1234⟩) oneByteReceiver :=
  ReachBy.one (e := .segment 0 (serverSegment 1 [7]))
    ⟨rfl, rfl, rfl, by decide, by decide, by decide, by decide⟩ rfl

/-- It keeps the byte in front of the last position of the window. -/
theorem advertised_kept_edge : ∃ s', recvStep oneByteReceiver (.segment 0 (serverSegment 44000 [9])) =
      some s' ∧
    ((∀ i < (serverSegment 44000 [9]).length - 20,
        Holds s' ((getSeq (serverSegment 44000 [9])).toNat + i)) ↔
      (serverSegment 44000 [9]).length = 20 ∨
        (getSeq (serverSegment 44000 [9])).toNat + ((serverSegment 44000 [9]).length - 20) ≠
          (advertised oneByteReceiver).1 + maxRwindowSize) :=
  advertised_kept _ _ oneByteReceiver_reached 0
    ⟨rfl, rfl, rfl, by decide, by decide, by decide, by decide⟩ (by decide) (by decide)

/-- The byte at the last position of the advertised window is dropped. -/
theorem advertised_dropped :
    ¬ ∀ s s' pkt, ReachBy recvStep SegmentsOk (.start ⟨clientIp, 5678⟩ ⟨serverIp, 1234⟩) s →
      WellFormed s.host.sock.wndRecv.expectSeq pkt → (advertised s).1 ≤ (getSeq pkt).toNat →
      (getSeq pkt).toNat + (pkt.length - 20) ≤ (advertised s).1 + (advertised s).2 →
      recvStep s (.segment 0 pkt) = some s' →
      ∀ i < pkt.length - 20, Holds s' ((getSeq pkt).toNat + i) := by
  intro hall
  obtain ⟨r, hi⟩ := recvRel_reached _ _ oneByteReceiver_reached
  have hok : WellFormed oneByteReceiver.host.sock.wndRecv.expectSeq (serverSegment 44001 [9]) :=
    ⟨rfl, rfl, rfl, by decide, by decide, by decide, by decide⟩
  obtain ⟨s', he⟩ := segment_isSome hi hok 0
  have hkept := hall _ _ _ oneByteReceiver_reached hok (by decide) (by decide) he
  rw [segment_holds hi hok (by decide) he] at hkept
  revert hkept
  decide

end Tju
