/-
  The receiver refines a reassembly buffer.

  `Refines sock read r` relates a socket, and the bytes `read` that `tju_recv`
  has returned on it, to a reassembly buffer `r` of the library: `expect_seq`
  is the next position, the marked cells of the window are the covered
  positions from there on and hold their bytes, and `received_buf` is what the
  reader has not taken yet.

  `handleData_refines`: handling a well-formed data segment is an arrival in
  the reassembly buffer; `tjuRecv_refines`: a `tju_recv` is a `take`.
-/
import TjuTcp.Tcp
import TjuTcp.Lib.Reassembly

namespace Tju

open Lib

/-- `pkt` is a well-formed packet that carries the segment `s`. -/
structure IsSegment (pkt : Buf) (s : Seg Byte) : Prop where
  seq : (getSeq pkt).toNat = s.off
  hlen : getHlen pkt = 20
  plen : (getPlen pkt).toNat = 20 + s.data.length
  length : pkt.length = 20 + s.data.length
  data : pkt.drop 20 = s.data

/-- The window of the socket shows the positions of `r` from `next` on. -/
structure WinRel (w : ReceiverWindow) (r : Reasm Byte) : Prop where
  expect : w.expectSeq.toNat = r.next
  mark : ∀ i < maxRwindowSize, (w.mark i ≠ 0 ↔ (cover r.segs (r.next + i)).isSome)
  buf : ∀ i < maxRwindowSize, ∀ b, cover r.segs (r.next + i) = some b → w.recvBuf i = b

structure Refines (sock : TjuTcp) (read : List Byte) (r : Reasm Byte) : Prop where
  inv : r.Inv 1 maxRwindowSize maxSockBufSize
  win : WinRel sock.wndRecv r
  out : read ++ sock.receivedBuf = r.out
  taken : read.length = r.taken

variable {sock sock' : TjuTcp} {read : List Byte} {r : Reasm Byte} {pkt : Buf} {s : Seg Byte}
  {w : ReceiverWindow} {o cap : ℕ}

/-- A fresh socket is the empty reassembly buffer. -/
theorem tjuSocket_refines : Refines tjuSocket [] (Reasm.start 1) where
  inv := Reasm.start_inv 1 _ _
  win := ⟨rfl, fun i _ => by simp [tjuSocket, ReceiverWindow.init, Reasm.start, cover],
    fun i _ b h => by simp [Reasm.start, cover] at h⟩
  out := rfl
  taken := rfl

@[simp] theorem sendToLayer3_header (p : Buf) : sendToLayer3 p 20 = [p] := rfl

theorem Refines.received_length (h : Refines sock read r) :
    sock.receivedBuf.length = r.out.length - r.taken := by
  rw [← h.out, ← h.taken, List.length_append]; omega

/-! ## The parts of the data branch -/

theorem IsSegment.dlen (h : IsSegment pkt s) : (getPlen pkt - getHlen pkt).toNat = s.data.length := by
  have h1 := h.plen
  rw [h.hlen]
  bv_omega

theorem IsSegment.load (h : IsSegment pkt s) :
    load? pkt (getHlen pkt).toNat s.data.length = some s.data := by
  have h20 : (getHlen pkt).toNat = 20 := by rw [h.hlen]; rfl
  have hl := h.length
  unfold load?
  rw [h20, if_pos (by omega), h.data, List.take_length]

/-- Copying a segment to its place in the window and marking it there. -/
theorem WinRel.put (hw : WinRel w r) {off : ℕ} (hs : s.off = r.next + off) :
    WinRel { w with
        recvBuf := store w.recvBuf off s.data
        mark := store w.mark off (List.replicate s.data.length 1) }
      { r with segs := s :: r.segs } where
  expect := hw.expect
  mark i hi := by
    show store w.mark off _ i ≠ 0 ↔ (cover (s :: r.segs) (r.next + i)).isSome
    by_cases hin : off ≤ i ∧ i < off + s.data.length
    · have hat : s.at? (r.next + i) = some s.data[i - off] :=
        Seg.at?_eq_some.2 ⟨by omega, by
          rw [List.getElem?_eq_getElem (by omega)]; congr 2; omega⟩
      rw [cover_cons_in hat, store_in hin.1 (by simp; omega)]
      simp
    · rw [store_out (by simp only [List.length_replicate]; omega),
        cover_cons_out (Seg.at?_eq_none.2 (by omega))]
      exact hw.mark i hi
  buf i hi b hb := by
    show store w.recvBuf off s.data i = b
    change cover (s :: r.segs) (r.next + i) = some b at hb
    by_cases hin : off ≤ i ∧ i < off + s.data.length
    · have hat : s.at? (r.next + i) = some s.data[i - off] :=
        Seg.at?_eq_some.2 ⟨by omega, by
          rw [List.getElem?_eq_getElem (by omega)]; congr 2; omega⟩
      rw [cover_cons_in hat] at hb
      rw [store_in hin.1 (by omega)]
      exact Option.some.inj hb
    · rw [cover_cons_out (Seg.at?_eq_none.2 (by omega))] at hb
      rw [store_out (by omega)]
      exact hw.buf i hi b hb

/-- A segment that passes the test for the right edge is accepted. -/
theorem putSegment_rel (hw : WinRel w r) (hp : IsSegment pkt s) (hs : r.next ≤ s.off)
    (hW : r.next + maxRwindowSize < 2 ^ 32) (hl : s.off + s.data.length < 2 ^ 32) :
    ∃ w', putSegment w pkt = some w' ∧ w'.remainSize = w.remainSize ∧
      WinRel w' (r.accept maxRwindowSize s) := by
  have hd := hp.dlen
  have hseq := hp.seq
  have hexp := hw.expect
  have hguard : (getSeq pkt + (getPlen pkt - getHlen pkt).setWidth 32 <
      w.expectSeq + BitVec.ofNat 32 maxRwindowSize) ↔
      s.off + s.data.length < r.next + maxRwindowSize := by
    simp only [maxRwindowSize, maxDlen] at hW ⊢
    bv_omega
  unfold putSegment Reasm.accept
  simp only [hguard]
  split_ifs with hg
  · have hfit : (getSeq pkt).toNat - w.expectSeq.toNat + s.data.length ≤ maxRwindowSize := by omega
    simp only [hd, hp.load, Option.bind_eq_bind, Option.bind_some, store?, List.length_replicate,
      hfit, if_true]
    exact ⟨_, rfl, rfl, hw.put (by omega)⟩
  · exact ⟨w, rfl, rfl, hw⟩

/-- **The scan of the marks ends inside the window**, with the length of the covered run. -/
theorem getWndFreeLen_eq (hw : WinRel w r) (hr : r.Inv o maxRwindowSize cap) :
    ∃ k, getWndFreeLen w.mark = some k ∧ k.toNat = r.ready := by
  obtain ⟨hrun, hend⟩ := Reasm.ready_spec hr
  have hlt : r.ready < maxRwindowSize := Reasm.ready_lt hr (by simp)
  have hfalse : (w.mark r.ready != 0) = false := by
    have := hw.mark r.ready hlt
    simp only [hend, Option.isSome_none, Bool.false_eq_true, iff_false, not_not] at this
    simp [this]
  obtain ⟨j, hj⟩ := scan_isSome (p := fun i => w.mark i != 0) hfalse (Nat.zero_le _)
    (show r.ready < 0 + maxRwindowSize by omega)
  obtain ⟨-, hjlt, hbefore, hstop⟩ := scan_eq_some hj
  have hjr : r.ready = j := by
    refine Reasm.ready_eq (fun i hi => ?_) ?_
    · exact (hw.mark i (by omega)).1 (by simpa using hbefore i (Nat.zero_le i) hi)
    · have := hw.mark j (by omega)
      rw [← Option.not_isSome_iff_eq_none, ← this]
      simpa using hstop
  refine ⟨.ofNat 16 j, by rw [getWndFreeLen, hj]; rfl, ?_⟩
  rw [hjr, BitVec.toNat_ofNat, Nat.mod_eq_of_lt]
  simp only [maxRwindowSize, maxDlen] at hjlt; omega

/-- The front of `recv_buf` is the run that the reassembly buffer delivers. -/
theorem front_eq (hw : WinRel w r) (hr : r.Inv o maxRwindowSize cap) :
    front w.recvBuf r.ready = (List.range r.ready).filterMap fun i => cover r.segs (r.next + i) := by
  obtain ⟨hrun, -⟩ := Reasm.ready_spec hr
  have hlt : r.ready < maxRwindowSize := Reasm.ready_lt hr (by simp)
  obtain ⟨hlen, hget⟩ := Reasm.run_getElem? hrun
  refine List.ext_getElem? fun i => ?_
  rcases Nat.lt_or_ge i r.ready with hi | hi
  · obtain ⟨b, hb⟩ := Option.isSome_iff_exists.1 (hrun i hi)
    rw [front_getElem? hi, hget i hi, hb, hw.buf i (by omega) b hb]
  · rw [List.getElem?_eq_none (by simp; omega), List.getElem?_eq_none (by omega)]

/-! ## The operations -/

/-- The window after its front of `k` cells has been delivered. -/
theorem WinRel.shift (hw : WinRel w r) (hr : r.Inv o maxRwindowSize cap)
    (hW : r.next + maxRwindowSize < 2 ^ 32) {k : BitVec 16} (hk : k.toNat = r.ready) {out : List Byte}
    {rs : BitVec 32} :
    WinRel ⟨rs, shiftDown maxRwindowSize k.toNat 0 w.recvBuf,
        shiftDown maxRwindowSize k.toNat 0 w.mark, w.expectSeq + k.setWidth 32⟩
      { r with next := r.next + r.ready, out := out } := by
  have hlt : r.ready < maxRwindowSize := Reasm.ready_lt hr (by simp)
  have hexp := hw.expect
  refine ⟨?_, fun i hi => ?_, fun i hi b hb => ?_⟩
  · show (w.expectSeq + k.setWidth 32).toNat = r.next + r.ready
    simp only [maxRwindowSize, maxDlen] at hW hlt
    bv_omega
  · show shiftDown maxRwindowSize k.toNat 0 w.mark i ≠ 0 ↔
      (cover r.segs (r.next + r.ready + i)).isSome
    rw [show r.next + r.ready + i = r.next + (i + k.toNat) by omega]
    unfold shiftDown
    split_ifs with hin
    · exact hw.mark _ (by omega)
    · rw [hr.edge _ (by omega)]; simp
  · show shiftDown maxRwindowSize k.toNat 0 w.recvBuf i = b
    change cover r.segs (r.next + r.ready + i) = some b at hb
    rw [show r.next + r.ready + i = r.next + (i + k.toNat) by omega] at hb
    unfold shiftDown
    split_ifs with hin
    · exact hw.buf _ (by omega) b hb
    · rw [hr.edge _ (by omega)] at hb; cases hb

/-- The front of the window stays, as it is not marked; or stays, as its marked run finds no room,
    with another size to advertise; or that run is delivered. -/
inductive Slides (sock : TjuTcp) : TjuTcp → Prop
  | unmarked : sock.wndRecv.mark 0 = 0 → Slides sock sock
  | full {k : BitVec 16} (rs : BitVec 32) : sock.wndRecv.mark 0 ≠ 0 →
      getWndFreeLen sock.wndRecv.mark = some k →
      maxSockBufSize - sock.receivedBuf.length < k.toNat →
      Slides sock { sock with wndRecv := { sock.wndRecv with remainSize := rs } }
  | delivered {k : BitVec 16} (rs : BitVec 32) : sock.wndRecv.mark 0 ≠ 0 →
      getWndFreeLen sock.wndRecv.mark = some k →
      ¬ maxSockBufSize - sock.receivedBuf.length < k.toNat →
      Slides sock { sock with
        receivedBuf := sock.receivedBuf ++ front sock.wndRecv.recvBuf k.toNat
        wndRecv := ⟨rs, shiftDown maxRwindowSize k.toNat 0 sock.wndRecv.recvBuf,
          shiftDown maxRwindowSize k.toNat 0 sock.wndRecv.mark,
          sock.wndRecv.expectSeq + k.setWidth 32⟩ }

theorem slideWindow_cases (h : slideWindow sock = some sock') : Slides sock sock' := by
  unfold slideWindow at h
  simp only [Option.bind_eq_bind] at h
  split_ifs at h with h0
  · obtain ⟨k, hk, h⟩ := Option.bind_eq_some_iff.1 h
    split_ifs at h with hfull
    · cases h; exact .full _ h0 hk hfull
    · cases h; exact .delivered _ h0 hk hfull
  · cases h
    exact .unmarked (not_not.1 h0)

/-- The window slides if the scan of the marks ends inside it. -/
theorem slideWindow_isSome {k : BitVec 16} (hk : getWndFreeLen sock.wndRecv.mark = some k) :
    ∃ sock', slideWindow sock = some sock' := by
  unfold slideWindow
  simp only [hk, Option.bind_eq_bind, Option.bind_some]
  split_ifs <;> exact ⟨_, rfl⟩

/-- Sliding the window is a delivery. -/
theorem slideWindow_refines (h : Refines sock read r) (hW : r.next + maxRwindowSize < 2 ^ 32) :
    ∃ sock', slideWindow sock = some sock' ∧ Refines sock' read (r.deliver maxSockBufSize) := by
  obtain ⟨j, hj, hjr⟩ := getWndFreeLen_eq h.win h.inv
  obtain ⟨sock', hs⟩ := slideWindow_isSome hj
  have hlen := h.received_length
  have hroom := h.inv.room
  have hinv := Reasm.deliver_inv h.inv
  refine ⟨sock', hs, ?_⟩
  cases slideWindow_cases hs with
  | unmarked h0 =>
    have hmark := h.win.mark 0 (by simp)
    have hz : r.ready = 0 := by
      refine Reasm.ready_eq (fun i hi => absurd hi (by omega)) ?_
      simpa [h0] using hmark
    rwa [Reasm.deliver_eq_self hz]
  | @full k rs _ hk hfull =>
    -- the run does not fit: nothing moves, and only the advertised window changes
    obtain rfl : j = k := Option.some.inj (hj.symm.trans hk)
    unfold Reasm.deliver
    rw [if_neg (by omega)]
    exact ⟨h.inv, ⟨h.win.expect, h.win.mark, h.win.buf⟩, h.out, h.taken⟩
  | @delivered k rs _ hk hfit =>
    obtain rfl : j = k := Option.some.inj (hj.symm.trans hk)
    unfold Reasm.deliver at hinv ⊢
    rw [if_pos (show r.out.length - r.taken + r.ready ≤ maxSockBufSize by omega)] at hinv ⊢
    refine ⟨hinv, h.win.shift h.inv hW hjr, ?_, h.taken⟩
    show read ++ (sock.receivedBuf ++ front sock.wndRecv.recvBuf j.toNat) = _
    rw [hjr, front_eq h.win h.inv, ← List.append_assoc, h.out]

theorem slideWindow_frame (h : slideWindow sock = some sock') :
    sock' = { sock with receivedBuf := sock'.receivedBuf, wndRecv := sock'.wndRecv } := by
  cases slideWindow_cases h <;> rfl

/-- A data segment changes only the receiving half of the socket, and is answered by an ACK. -/
theorem handleData_frame {out : List Buf} (h : handleData sock pkt = some (sock', out)) :
    sock' = { sock with receivedBuf := sock'.receivedBuf, wndRecv := sock'.wndRecv } ∧
      out = [ackPacket sock'] := by
  unfold handleData at h
  simp only [Option.bind_eq_bind] at h
  split_ifs at h
  · obtain ⟨w, -, h⟩ := Option.bind_eq_some_iff.1 h
    obtain ⟨t, ht, h⟩ := Option.bind_eq_some_iff.1 h
    cases h
    exact ⟨by conv_lhs => rw [slideWindow_frame ht], rfl⟩
  · cases h; exact ⟨rfl, rfl⟩

/-- **Handling a data segment is an arrival.** -/
theorem handleData_refines (h : Refines sock read r) (hp : IsSegment pkt s)
    (hs : r.next ≤ s.off → r.next + maxRwindowSize < 2 ^ 32 ∧ s.off + s.data.length < 2 ^ 32) :
    ∃ sock', handleData sock pkt = some (sock', [ackPacket sock']) ∧
      Refines sock' read (r.arrive maxRwindowSize maxSockBufSize s) := by
  have hseq : (getSeq pkt ≥ sock.wndRecv.expectSeq) ↔ r.next ≤ s.off := by
    have h1 := hp.seq
    have h2 := h.win.expect
    bv_omega
  unfold handleData Reasm.arrive
  simp only [hseq]
  split_ifs with hle
  · obtain ⟨hW, hl⟩ := hs hle
    obtain ⟨w', hw', -, hrel⟩ := putSegment_rel h.win hp hle hW hl
    have hnext : (r.accept maxRwindowSize s).next = r.next := by unfold Reasm.accept; split_ifs <;> rfl
    have hout : (r.accept maxRwindowSize s).out = r.out := by unfold Reasm.accept; split_ifs <;> rfl
    have htaken : (r.accept maxRwindowSize s).taken = r.taken := by
      unfold Reasm.accept; split_ifs <;> rfl
    have hput : Refines { sock with wndRecv := w' } read (r.accept maxRwindowSize s) :=
      ⟨Reasm.accept_inv h.inv hle, hrel, by rw [hout]; exact h.out, by rw [htaken]; exact h.taken⟩
    obtain ⟨sock', hs', href⟩ := slideWindow_refines hput (by rw [hnext]; exact hW)
    exact ⟨sock', by simp [hw', hs'], href⟩
  · exact ⟨sock, by simp, h⟩

/-- `tju_recv` cuts off the first `len` bytes of `received_buf`, or all there are. -/
theorem tjuRecv_eq_some {len : ℕ} {bytes : List Byte} (h : tjuRecv sock len = some (sock', bytes)) :
    0 < sock.receivedBuf.length ∧
      sock' = { sock with receivedBuf := sock.receivedBuf.drop (min len sock.receivedBuf.length) } ∧
      bytes = sock.receivedBuf.take (min len sock.receivedBuf.length) := by
  have hmin : (if sock.receivedBuf.length ≥ len then len else sock.receivedBuf.length) =
      min len sock.receivedBuf.length := by split_ifs <;> omega
  simp only [tjuRecv, hmin] at h
  split_ifs at h with h0
  cases h
  exact ⟨by omega, rfl, rfl⟩

/-- **`tju_recv` takes what was delivered**, in order. -/
theorem tjuRecv_refines (h : Refines sock read r) {len : ℕ} {bytes : List Byte}
    (hr : tjuRecv sock len = some (sock', bytes)) :
    Refines sock' (read ++ bytes) (r.take len) := by
  obtain ⟨-, rfl, rfl⟩ := tjuRecv_eq_some hr
  have hlen := h.received_length
  have ht := h.inv.taken
  have htk := h.taken
  refine ⟨Reasm.take_inv h.inv len, ⟨h.win.expect, h.win.mark, h.win.buf⟩, ?_, ?_⟩
  · show (read ++ sock.receivedBuf.take _) ++ sock.receivedBuf.drop _ = r.out
    rw [List.append_assoc, List.take_append_drop, h.out]
  · simp only [List.length_append, List.length_take, Reasm.take]; omega

end Tju
