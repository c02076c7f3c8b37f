/-
  Any order of arrival.

  The segments of a finite set arrive at a receiver with an empty window, in
  any order and each any number of times.  `TjuTcp.received` is the receiver
  after `out` has been delivered, with the bytes `c` in its window.

  * `handleData_arrives`: handling a segment is an arrival in a reassembly
    buffer over the numbers below `2 ^ 32`;
  * `arrivals_exec`: so a run of packets is a run of arrivals;
  * `any_order`: when every order leaves the receiver with all that the set
    covers, delivered or in the window;
  * `any_order_lost`: two bytes in order, the second of which is refused.
-/
import TjuTcp.Progress
import TjuTcp.Lib.Arrivals

namespace Tju

open Lib

/-- The cells of the window, after `n` bytes have been delivered. -/
def slid (n : ℕ) (m : ℕ → Byte) : ℕ → Byte := if n = 0 then m else shiftDown maxRwindowSize n 0 m

/-- The window `w`, after `n` bytes have been delivered, with the bytes `c` in it. -/
def ReceiverWindow.showing (w : ReceiverWindow) (n : ℕ) (c : ℕ → Option Byte) : ReceiverWindow where
  remainSize := if n = 0 then w.remainSize else .ofNat 32 maxRwindowSize
  recvBuf i := (c i).getD (slid n w.recvBuf i)
  mark i := if (c i).isSome then 1 else slid n w.mark i
  expectSeq := w.expectSeq + .ofNat 32 n

/-- The receiver after `out` has been delivered, with the bytes `c` in its window. -/
def TjuTcp.received (sock : TjuTcp) (out : List Byte) (c : ℕ → Option Byte) : TjuTcp :=
  { sock with
    receivedBuf := sock.receivedBuf ++ out
    wndRecv := sock.wndRecv.showing out.length c }

/-- The receiver that shows the reassembly buffer `r`. -/
def TjuTcp.shows (sock : TjuTcp) (r : Reasm Byte) : TjuTcp :=
  sock.received r.out fun i => cover r.segs (r.next + i)

open Classical in
/-- The receiver after all segments of `T` have arrived, pieces of the stream `S`: the run that `T`
    covers has been delivered, and what else it covers is in the window. -/
noncomputable def TjuTcp.reassembled (sock : TjuTcp) (S : List Byte) (T : Set (Seg Byte)) : TjuTcp :=
  let e := sock.wndRecv.expectSeq.toNat
  let n := runLen T e
  sock.received (S.take n) fun i => if Covered T (e + n + i) then S[n + i]? else none

/-- The packets carry the segments of `T`, each of them at least once. -/
structure Brings (pkts : List (ℕ × Buf)) (T : Set (Seg Byte)) : Prop where
  all : ∀ s ∈ T, ∃ p ∈ pkts, IsSegment p.2 s
  only : ∀ p ∈ pkts, getFlags p.2 = noFlag ∧ ∃ s ∈ T, IsSegment p.2 s

/-- Nothing is marked in the window, its right edge does not wrap, and there is room for all of it in
    `received_buf`. -/
structure EmptyWindow (sock : TjuTcp) : Prop where
  mark : ∀ i < maxRwindowSize, sock.wndRecv.mark i = 0
  edge : sock.wndRecv.expectSeq.toNat + maxRwindowSize < 2 ^ 32
  room : sock.receivedBuf.length + maxRwindowSize ≤ maxSockBufSize

variable {sock : TjuTcp} {w : ReceiverWindow} {r : Reasm Byte} {s : Seg Byte} {T : Set (Seg Byte)}
  {pkt : Buf} {n k : ℕ} {c : ℕ → Option Byte}

/-! ## The cells of the window -/

theorem slid_zero (h : ∀ i < maxRwindowSize, w.mark i = 0) {i : ℕ} (hi : i < maxRwindowSize) :
    slid n w.mark i = 0 := by
  unfold slid
  split_ifs
  · exact h i hi
  · unfold shiftDown
    split_ifs
    · exact h _ (by omega)
    · rfl

/-- Delivering `k` more bytes shifts the cells once more. -/
theorem slid_add {m : ℕ → Byte} (hk : 0 < k) (i : ℕ) : slid (n + k) m i =
    if i < maxRwindowSize - k then slid n m (i + k) else 0 := by
  unfold slid
  rw [if_neg (show n + k ≠ 0 by omega)]
  unfold shiftDown
  rcases Nat.eq_zero_or_pos n with rfl | hn
  · simp only [if_true, Nat.zero_add]
  · simp only [if_neg (show n ≠ 0 by omega), show i + (n + k) = i + k + n by omega]
    split_ifs <;> first | rfl | omega

/-- One more segment: in its place its bytes, elsewhere what was there. -/
theorem cover_put (segs : List (Seg Byte)) {e off : ℕ} (hs : s.off = e + off) (i : ℕ) :
    (off ≤ i ∧ ∃ h : i - off < s.data.length, cover (s :: segs) (e + i) = some s.data[i - off]) ∨
      (i < off ∨ off + s.data.length ≤ i) ∧ cover (s :: segs) (e + i) = cover segs (e + i) := by
  by_cases hin : off ≤ i ∧ i < off + s.data.length
  · refine Or.inl ⟨hin.1, by omega, cover_cons_in (Seg.at?_eq_some.2 ⟨by omega, ?_⟩)⟩
    rw [List.getElem?_eq_getElem (by omega)]
    congr 2
    omega
  · exact Or.inr ⟨by omega, cover_cons_out (Seg.at?_eq_none.2 (by omega))⟩

section
variable (segs : List (Seg Byte)) {e off : ℕ} (hs : s.off = e + off)
include hs

theorem recvBuf_put : store (w.showing n fun i => cover segs (e + i)).recvBuf off s.data =
    (w.showing n fun i => cover (s :: segs) (e + i)).recvBuf := by
  funext i
  unfold ReceiverWindow.showing
  rcases cover_put segs hs i with ⟨hle, h, hc⟩ | ⟨hout, hc⟩
  · rw [store_in hle h]
    simp only [hc, Option.getD_some]
  · rw [store_out hout]
    simp only [hc]

theorem mark_put :
    store (w.showing n fun i => cover segs (e + i)).mark off (List.replicate s.data.length 1) =
      (w.showing n fun i => cover (s :: segs) (e + i)).mark := by
  funext i
  unfold ReceiverWindow.showing
  rcases cover_put segs hs i with ⟨hle, h, hc⟩ | ⟨hout, hc⟩
  · rw [store_in hle (by simpa using h)]
    simp [hc]
  · rw [store_out (by simpa using hout)]
    simp only [hc]

end

section
variable (hk : 0 < k) (hc : ∀ i, maxRwindowSize ≤ i → c i = none)
include hk hc

theorem recvBuf_shift : shiftDown maxRwindowSize k 0 (w.showing n c).recvBuf =
    (w.showing (n + k) fun i => c (i + k)).recvBuf := by
  funext i
  unfold ReceiverWindow.showing
  simp only [slid_add hk]
  unfold shiftDown
  split_ifs with hi
  · rfl
  · rw [hc _ (by omega), Option.getD_none]

theorem mark_shift : shiftDown maxRwindowSize k 0 (w.showing n c).mark =
    (w.showing (n + k) fun i => c (i + k)).mark := by
  funext i
  unfold ReceiverWindow.showing
  simp only [slid_add hk]
  unfold shiftDown
  by_cases hi : i < maxRwindowSize - k
  · simp only [if_pos hi]
  · simp only [if_neg hi, hc _ (show maxRwindowSize ≤ i + k by omega)]
    rfl

/-- The window after its front of `k` cells has been delivered. -/
theorem showing_shift : (⟨.ofNat 32 maxRwindowSize,
      shiftDown maxRwindowSize k 0 (w.showing n c).recvBuf,
      shiftDown maxRwindowSize k 0 (w.showing n c).mark,
      (w.showing n c).expectSeq + .ofNat 32 k⟩ : ReceiverWindow) =
    w.showing (n + k) fun i => c (i + k) := by
  have hexp : (w.showing n c).expectSeq + .ofNat 32 k =
      (w.showing (n + k) fun i => c (i + k)).expectSeq := by
    unfold ReceiverWindow.showing
    rw [BitVec.ofNat_add, BitVec.add_assoc]
  have hremain : BitVec.ofNat 32 maxRwindowSize =
      (w.showing (n + k) fun i => c (i + k)).remainSize := by
    unfold ReceiverWindow.showing
    rw [if_neg (by omega)]
  rw [recvBuf_shift hk hc, mark_shift hk hc, hexp, hremain]

end

/-! ## An arrival -/

section
variable (he : EmptyWindow sock)
  (hi : r.Inv sock.wndRecv.expectSeq.toNat maxRwindowSize maxRwindowSize) (ht : r.taken = 0)
include he hi ht

theorem shows_winRel : WinRel (sock.shows r).wndRecv r := by
  have hedge := he.edge
  have hle := hi.room
  rw [ht] at hle
  refine ⟨?_, fun i hlt => ?_, fun i _ b hb => ?_⟩
  · show (sock.wndRecv.expectSeq + .ofNat 32 r.out.length).toNat = r.next
    rw [hi.next, BitVec.toNat_add, BitVec.toNat_ofNat, Nat.mod_eq_of_lt (a := r.out.length) (by omega),
      Nat.mod_eq_of_lt (by omega)]
  · show (if (cover r.segs (r.next + i)).isSome then (1 : Byte) else slid r.out.length _ i) ≠ 0 ↔ _
    split_ifs with hs
    · exact iff_of_true (by decide) hs
    · rw [slid_zero he.mark hlt]
      exact iff_of_false (fun h => h rfl) hs
  · show (cover r.segs (r.next + i)).getD _ = b
    rw [hb, Option.getD_some]

/-- **Sliding the window** is a delivery. -/
theorem slideWindow_shows (hroom : r.out.length - r.taken + r.ready ≤ maxRwindowSize) :
    slideWindow (sock.shows r) = some (sock.shows (r.deliver maxRwindowSize)) := by
  have hwin := shows_winRel he hi ht
  have hbuf := he.room
  obtain ⟨j, hj, hjr⟩ := getWndFreeLen_eq hwin hi
  have hmark := hwin.mark 0 (by simp)
  obtain ⟨hrun, hend⟩ := Reasm.ready_spec hi
  unfold Reasm.deliver
  rw [if_pos hroom]
  unfold slideWindow
  rcases Nat.eq_zero_or_pos r.ready with h0 | hpos
  · have hfree : (sock.shows r).wndRecv.mark 0 = 0 := by
      by_contra hne
      have hsome := hmark.1 hne
      rw [← h0, hend] at hsome
      cases hsome
    simp only [hfree, ne_eq, not_true_eq_false, if_false, h0, Nat.add_zero, List.range_zero,
      List.filterMap_nil, List.append_nil]
  · have hmarked : (sock.shows r).wndRecv.mark 0 ≠ 0 := hmark.2 (hrun 0 hpos)
    have hfits : ¬ maxSockBufSize - (sock.shows r).receivedBuf.length < r.ready := by
      show ¬ maxSockBufSize - (sock.receivedBuf ++ r.out).length < r.ready
      rw [List.length_append]
      omega
    have hnone : ∀ i, maxRwindowSize ≤ i → cover r.segs (r.next + i) = none :=
      fun i hle => hi.edge _ (by omega)
    have hfront := front_eq hwin hi
    have hlen := (Reasm.run_getElem? hrun).1
    have hshift : j.setWidth 32 = BitVec.ofNat 32 r.ready := by
      rw [← hjr]
      bv_omega
    have hcells : (fun i => cover r.segs (r.next + (i + r.ready))) =
        fun i => cover r.segs (r.next + r.ready + i) := by
      funext i
      congr 1
      omega
    have hwnd := showing_shift (w := sock.wndRecv) (n := r.out.length) hpos hnone
    rw [hcells] at hwnd
    rw [if_pos hmarked]
    simp only [hj, Option.bind_eq_bind, Option.bind_some, if_neg hfits, hfront, hjr, hshift]
    unfold TjuTcp.shows TjuTcp.received
    simp only [List.length_append, hlen, List.append_assoc, hwnd]

end

theorem arrives_seq_iff (he : EmptyWindow sock)
    (hc : r.Collects sock.wndRecv.expectSeq.toNat maxRwindowSize T) (hp : IsSegment pkt s) :
    getSeq pkt ≥ (sock.shows r).wndRecv.expectSeq ↔ r.next ≤ s.off := by
  have hexp := (shows_winRel he hc.inv hc.taken).expect
  have hseq := hp.seq
  bv_omega

section
variable (he : EmptyWindow sock) (hT : Apart sock.wndRecv.expectSeq.toNat maxRwindowSize T)
  (hc : r.Collects sock.wndRecv.expectSeq.toNat maxRwindowSize T) (hs : s ∈ T)
  (hp : IsSegment pkt s)
include he hT hc hs hp

/-- A segment is copied unless it starts below `expect_seq`, or the right edge of the window wraps. -/
theorem arrives_copied_iff : Copied (sock.shows r).wndRecv pkt ↔
    r.next ≤ s.off ∧ r.next + maxRwindowSize < 2 ^ 32 := by
  have hexp := (shows_winRel he hc.inv hc.taken).expect
  have hseq := hp.seq
  have hd := hp.dlen
  have hedge := he.edge
  have hnext := hc.inv.next
  have hbefore := hT.before s hs
  unfold Copied
  rw [arrives_seq_iff he hc hp, and_congr_right_iff]
  intro hle
  unfold payloadLen
  generalize getPlen pkt - getHlen pkt = d at *
  generalize (sock.shows r).wndRecv.expectSeq = x at *
  simp only [maxRwindowSize, maxDlen] at *
  constructor <;> intro h <;> bv_omega

theorem putSegment_shows (hcop : Copied (sock.shows r).wndRecv pkt) :
    putSegment (sock.shows r).wndRecv pkt =
      some (sock.shows { r with segs := s :: r.segs }).wndRecv := by
  obtain ⟨hle, -⟩ := (arrives_copied_iff he hT hc hs hp).1 hcop
  have hexp := (shows_winRel he hc.inv hc.taken).expect
  have hoff : copyOff (sock.shows r).wndRecv pkt = s.off - r.next := by
    unfold copyOff
    rw [hp.seq, hexp]
  have hd : (payloadLen pkt).toNat = s.data.length := hp.dlen
  have hload : load? pkt (getHlen pkt).toNat s.data.length = some s.data := hp.load
  have hnext := hc.inv.next
  have hbefore := hT.before s hs
  have hplace : s.off = r.next + (s.off - r.next) := by omega
  rw [putSegment_copied hcop, hd, hoff, hload, Option.bind_some, store?, if_pos (by omega),
    Option.bind_some, store?, if_pos (by rw [List.length_replicate]; omega), Option.bind_some]
  have hbytes := recvBuf_put (w := sock.wndRecv) (n := r.out.length) r.segs hplace
  have hmarks := mark_put (w := sock.wndRecv) (n := r.out.length) r.segs hplace
  unfold TjuTcp.shows TjuTcp.received
  rw [hbytes, hmarks]
  rfl

/-- **Handling a segment is an arrival.** -/
theorem handleData_arrives : ∃ out, handleData (sock.shows r) pkt =
    some (sock.shows (r.arriveTo (2 ^ 32) maxRwindowSize s), out) := by
  have hseq := arrives_seq_iff he hc hp
  have hcopied := arrives_copied_iff he hT hc hs hp
  unfold handleData
  simp only [Option.bind_eq_bind]
  by_cases hle : r.next ≤ s.off
  · rw [if_pos (hseq.2 hle)]
    by_cases hM : r.next + maxRwindowSize < 2 ^ 32
    · have hput := putSegment_shows he hT hc hs hp (hcopied.2 ⟨hle, hM⟩)
      obtain ⟨hinv, -, hroom⟩ := hc.accepted hT hs hle
      rw [hc.accept_eq hT hs] at hinv hroom
      have hslide := slideWindow_shows he hinv hc.taken hroom
      have hsock : ({ sock.shows r with
            wndRecv := (sock.shows { r with segs := s :: r.segs }).wndRecv } : TjuTcp) =
          sock.shows { r with segs := s :: r.segs } := rfl
      unfold Reasm.arriveTo Reasm.arrive
      rw [if_pos hM, if_pos hle, hc.accept_eq hT hs]
      rw [hput, Option.bind_some, hsock, hslide]
      exact ⟨_, rfl⟩
    · -- nothing is copied, and the front of the window is free
      have hroom : r.out.length - r.taken + r.ready ≤ maxRwindowSize := by
        rw [hc.ready]
        exact hc.inv.room
      have hslide := slideWindow_shows he hc.inv hc.taken hroom
      rw [Reasm.deliver_eq_self hc.ready] at hslide
      rw [putSegment_skipped (hseq.2 hle) fun h => hM (hcopied.1 h).2, Option.bind_some, hslide,
        Reasm.arriveTo_refused (by omega)]
      exact ⟨_, rfl⟩
  · rw [if_neg fun hge => hle (hseq.1 hge), Reasm.arriveTo_dropped (by omega)]
    exact ⟨_, rfl⟩

end

/-! ## All arrivals -/

theorem IsSegment.segmentOf_eq (hp : IsSegment pkt s) : segmentOf pkt = s := by
  obtain ⟨off, data⟩ := s
  unfold segmentOf
  rw [hp.seq, hp.data]

theorem shows_start (sock : TjuTcp) :
    sock.shows (Reasm.start sock.wndRecv.expectSeq.toNat) = sock := by
  unfold TjuTcp.shows TjuTcp.received ReceiverWindow.showing Reasm.start slid
  simp [cover]

/-- The segments that the packets carry, in the order in which they arrive. -/
def carried (pkts : List (ℕ × Buf)) : List (Seg Byte) := pkts.map fun p => segmentOf p.2

theorem Brings.carried_iff {pkts : List (ℕ × Buf)} (h : Brings pkts T) :
    s ∈ carried pkts ↔ s ∈ T := by
  unfold carried
  rw [List.mem_map]
  constructor
  · rintro ⟨p, hp, rfl⟩
    obtain ⟨-, t, ht, hseg⟩ := h.only p hp
    rwa [hseg.segmentOf_eq]
  · intro hs
    obtain ⟨p, hp, hseg⟩ := h.all s hs
    exact ⟨p, hp, hseg.segmentOf_eq⟩

section
variable {h : Host} (hest : h.sock.state = .established) (he : EmptyWindow h.sock)
  (hT : Apart h.sock.wndRecv.expectSeq.toNat maxRwindowSize T)
include hest he hT

/-- **The packets arrive** at the receiver as their segments do at a reassembly buffer. -/
theorem arrivals_exec {pkts : List (ℕ × Buf)}
    (hc : r.Collects h.sock.wndRecv.expectSeq.toNat maxRwindowSize T)
    (honly : ∀ p ∈ pkts, getFlags p.2 = noFlag ∧ ∃ s ∈ T, IsSegment p.2 s) :
    exec sockStep { h with sock := h.sock.shows r } (arrivals pkts) = some { h with
      sock := h.sock.shows (r.arriveAll (2 ^ 32) maxRwindowSize (carried pkts)) } := by
  induction pkts generalizing r with
  | nil => rfl
  | cons p pkts ih =>
    obtain ⟨⟨hflags, s, hs, hp⟩, honly⟩ := List.forall_mem_cons.1 honly
    obtain ⟨out, hd⟩ := handleData_arrives he hT hc hs hp
    have hstep : sockStep { h with sock := h.sock.shows r } (.packet p.1 p.2) = some { h with
        sock := h.sock.shows (r.arriveTo (2 ^ 32) maxRwindowSize s) } := by
      show (tjuHandlePacket p.1 _ p.2).map Prod.fst = _
      rw [handle_data (h := { h with sock := h.sock.shows r }) hest hflags, hd]
      rfl
    have hrest := ih (hc.arriveTo hT hs (M := 2 ^ 32)) honly
    have hcarried : carried (p :: pkts) = s :: carried pkts := by
      rw [← hp.segmentOf_eq]
      rfl
    unfold arrivals at hrest ⊢
    rw [List.map_cons, exec, hstep, Option.bind_some, hrest, hcarried, Reasm.arriveAll]

end

/-- Packets that carry the segments of a list. -/
def segmentPackets (L : List (Seg Byte)) : List (ℕ × Buf) :=
  L.map fun s => (0, serverSegment (.ofNat 32 s.off) s.data)

theorem segmentPacket_isSegment (he : EmptyWindow sock)
    (hT : Apart sock.wndRecv.expectSeq.toNat maxRwindowSize T) (hs : s ∈ T) :
    IsSegment (serverSegment (.ofNat 32 s.off) s.data) s := by
  have hedge := he.edge
  have hafter := hT.after s hs
  have hbefore := hT.before s hs
  simp only [maxRwindowSize, maxDlen] at hedge hbefore
  have hseg := serverSegment_isSegment (.ofNat 32 s.off) (show 20 + s.data.length < 2 ^ 16 by omega)
  rwa [BitVec.toNat_ofNat, Nat.mod_eq_of_lt (by omega)] at hseg

theorem carried_segmentPackets {L : List (Seg Byte)}
    (hL : ∀ s ∈ L, IsSegment (serverSegment (.ofNat 32 s.off) s.data) s) :
    carried (segmentPackets L) = L := by
  unfold carried segmentPackets
  rw [List.map_map]
  exact (List.map_congr_left fun s hs => (hL s hs).segmentOf_eq).trans (List.map_id L)

/-- The receiver shows all of `T`, just if all of it has been accepted. -/
theorem shows_eq_iff {S : List Byte} (he : EmptyWindow sock)
    (hT : Apart sock.wndRecv.expectSeq.toNat maxRwindowSize T)
    (hp : ∀ s ∈ T, Reasm.Piece sock.wndRecv.expectSeq.toNat S s)
    (hc : r.Collects sock.wndRecv.expectSeq.toNat maxRwindowSize T) :
    sock.shows r = sock.reassembled S T ↔ ∀ s ∈ T, s ∈ r.segs := by
  classical
  have hlen := Reasm.runLen_le_length hp
  constructor
  · intro heq s hs
    have hrecv : sock.receivedBuf ++ r.out = sock.receivedBuf ++ S.take _ :=
      congrArg TjuTcp.receivedBuf heq
    have hout := congrArg List.length (List.append_cancel_left hrecv)
    rw [List.length_take, Nat.min_eq_left hlen] at hout
    have hnext := hc.inv.next
    have hpos := hT.pos s hs
    have hafter := hT.after s hs
    have hbefore := hT.before s hs
    -- the first byte of the segment has been delivered, or is marked
    have hcov : Covered {t | t ∈ r.segs} s.off := by
      rw [← cover_isSome_iff]
      rcases Nat.lt_or_ge s.off r.next with hlt | hle
      · exact Reasm.cover_delivered hc.inv hafter hlt
      · have hcovT : Covered T s.off := ⟨s, hs, le_rfl, by omega⟩
        have hin := Reasm.covered_getElem? hp hcovT
        have hmark : (sock.reassembled S T).wndRecv.mark (s.off - r.next) ≠ 0 := by
          show (if (if Covered T _ then S[_]? else none).isSome then (1 : Byte) else _) ≠ 0
          rw [show sock.wndRecv.expectSeq.toNat + runLen T sock.wndRecv.expectSeq.toNat +
              (s.off - r.next) = s.off by omega,
            show runLen T sock.wndRecv.expectSeq.toNat + (s.off - r.next) =
              s.off - sock.wndRecv.expectSeq.toNat by omega, if_pos hcovT, if_pos hin]
          decide
        rw [← heq] at hmark
        have hsome := ((shows_winRel he hc.inv hc.taken).mark _ (by omega)).1 hmark
        rwa [Nat.add_sub_cancel' hle] at hsome
    obtain ⟨t, ht, hoff, hlt⟩ := hcov
    have hst : s = t := hT.eq_of_covered hs (hc.segs t ht) le_rfl (by omega) hoff hlt
    rw [hst]
    exact ht
  · intro hall
    have hout := hc.out_eq hp hall
    have hnext := hc.next_eq
    rw [hc.segs_eq hall] at hnext
    unfold TjuTcp.shows TjuTcp.reassembled
    rw [hout]
    congr 1
    funext i
    rw [hc.cover_eq hp hall, hnext, Nat.add_assoc, Nat.add_sub_cancel_left]

section
variable {h : Host} {S : List Byte} (hest : h.sock.state = .established) (he : EmptyWindow h.sock)
  (hT : Apart h.sock.wndRecv.expectSeq.toNat maxRwindowSize T) (hfin : T.Finite)
  (hp : ∀ s ∈ T, Reasm.Piece h.sock.wndRecv.expectSeq.toNat S s)
include hest he hT hp

/-- Packets that bring the segments of `T` leave all of them behind, just if all are accepted. -/
theorem brings_exec_iff {pkts : List (ℕ × Buf)} (hb : Brings pkts T) :
    exec sockStep h (arrivals pkts) = some { h with sock := h.sock.reassembled S T } ↔
      ∀ t ∈ T, t ∈ (Reasm.arriveAll (2 ^ 32) maxRwindowSize (carried pkts)
        (.start h.sock.wndRecv.expectSeq.toNat)).segs := by
  have hstart := Reasm.start_collects h.sock.wndRecv.expectSeq.toNat maxRwindowSize T
  have hexec := arrivals_exec hest he hT hstart hb.only
  have hc := Reasm.arriveAll_collects (M := 2 ^ 32) hT (fun s hs => hb.carried_iff.1 hs) hstart
  rw [shows_start] at hexec
  rw [hexec, ← shows_eq_iff he hT hp hc, Option.some.injEq]
  exact ⟨fun heq => congrArg Host.sock heq, fun heq => by rw [heq]⟩

include hfin

/-- **Any order of arrival** leaves the receiver with all of `T`, if and only if for each segment of
    `T` the run that the others cover leaves the right edge of the window below `2 ^ 32`. -/
theorem any_order : (∀ pkts, Brings pkts T →
      exec sockStep h (arrivals pkts) = some { h with sock := h.sock.reassembled S T }) ↔
    ∀ t ∈ T, h.sock.wndRecv.expectSeq.toNat +
      runLen (T \ {t}) h.sock.wndRecv.expectSeq.toNat + maxRwindowSize < 2 ^ 32 := by
  rw [← Reasm.accepts_all_iff hT hfin]
  constructor
  · intro hall L hL
    have hcarried : carried (segmentPackets L) = L := carried_segmentPackets fun s hs =>
      segmentPacket_isSegment he hT ((hL s).1 hs)
    have hb : Brings (segmentPackets L) T := ⟨fun s hs => ?_, fun p hmem => ?_⟩
    · have hrun := (brings_exec_iff hest he hT hp hb).1 (hall _ hb)
      rwa [hcarried] at hrun
    · exact ⟨_, List.mem_map_of_mem ((hL s).2 hs), segmentPacket_isSegment he hT hs⟩
    · obtain ⟨s, hs, rfl⟩ := List.mem_map.1 hmem
      exact ⟨rfl, s, (hL s).1 hs, segmentPacket_isSegment he hT ((hL s).1 hs)⟩
  · intro hall pkts hb
    exact (brings_exec_iff hest he hT hp hb).2 (hall _ fun s => hb.carried_iff)

end

/-! ## Two bytes -/

/-- Two bytes from `e` on, each in its own segment. -/
def twoBytes (e : ℕ) : Set (Seg Byte) := {⟨e, [7]⟩, ⟨e + 1, [8]⟩}

theorem twoBytes_apart (e : ℕ) : Apart e maxRwindowSize (twoBytes e) where
  pos s hs := by
    rcases hs with rfl | rfl <;> exact Nat.one_pos
  disjoint s hs t ht hne := by
    rcases hs with rfl | rfl <;> rcases ht with rfl | rfl
    · exact absurd rfl hne
    · exact Or.inl le_rfl
    · exact Or.inr le_rfl
    · exact absurd rfl hne
  after s hs := by
    rcases hs with rfl | rfl
    · exact le_rfl
    · exact Nat.le_succ e
  before s hs := by
    rcases hs with rfl | rfl <;> simp only [maxRwindowSize, maxDlen, List.length_singleton] <;> omega

theorem twoBytes_piece (e : ℕ) : ∀ s ∈ twoBytes e, Reasm.Piece e [7, 8] s := by
  rintro s (rfl | rfl)
  · refine ⟨le_rfl, fun i hi => ?_⟩
    obtain rfl : i = 0 := by simpa using hi
    simp
  · refine ⟨Nat.le_succ e, fun i hi => ?_⟩
    obtain rfl : i = 0 := by simpa using hi
    simp

theorem twoBytes_finite (e : ℕ) : (twoBytes e).Finite :=
  Set.toFinite ({⟨e, [7]⟩, ⟨e + 1, [8]⟩} : Set (Seg Byte))

/-- Two packets with the two segments, in any order. -/
theorem twoBytes_brings {pkts : List (ℕ × Buf)} {e : ℕ} {x y : BitVec 32} (hx : x.toNat = e)
    (hy : y.toNat = e + 1)
    (hmem : ∀ p, p ∈ pkts ↔ p = (0, serverSegment x [7]) ∨ p = (0, serverSegment y [8])) :
    Brings pkts (twoBytes e) := by
  have h7 := serverSegment_isSegment x (show 20 + [(7 : Byte)].length < 2 ^ 16 by decide)
  have h8 := serverSegment_isSegment y (show 20 + [(8 : Byte)].length < 2 ^ 16 by decide)
  rw [hx] at h7
  rw [hy] at h8
  constructor
  · rintro s (rfl | rfl)
    · exact ⟨_, (hmem _).2 (Or.inl rfl), h7⟩
    · exact ⟨_, (hmem _).2 (Or.inr rfl), h8⟩
  · intro p hp
    rcases (hmem p).1 hp with rfl | rfl
    · exact ⟨rfl, _, Or.inl rfl, h7⟩
    · exact ⟨rfl, _, Or.inr rfl, h8⟩

theorem any_order_two : exec sockStep clientHost
      (arrivals [(0, serverSegment 2 [8]), (0, serverSegment 1 [7])]) =
    some { clientHost with sock := clientHost.sock.reassembled [7, 8] (twoBytes 1) } := by
  have hempty : EmptyWindow clientHost.sock := ⟨fun _ _ => rfl, by decide, by decide⟩
  refine (any_order rfl hempty (twoBytes_apart 1) (twoBytes_finite 1) (twoBytes_piece 1)).2
    (fun t _ => ?_) _ (twoBytes_brings (x := 1) (y := 2) rfl rfl fun p => ?_)
  · have hle := ((twoBytes_apart 1).mono (Set.sdiff_subset (t := {t}))).runLen_le
    show 1 + runLen _ 1 + maxRwindowSize < 2 ^ 32
    simp only [maxRwindowSize, maxDlen] at hle ⊢
    omega
  · simp [or_comm]

theorem twoBytes_run (e : ℕ) : runLen (twoBytes e) e = 2 := by
  refine runLen_eq (fun i hi => ?_) fun ⟨s, hs, _, hlt⟩ => ?_
  · interval_cases i
    · exact ⟨_, Or.inl rfl, le_rfl, Nat.lt_succ_self e⟩
    · exact ⟨_, Or.inr rfl, le_rfl, Nat.lt_succ_self (e + 1)⟩
  · rcases hs with rfl | rfl <;> simp at hlt

/-- At the end of the sequence space the second byte is refused. -/
theorem twoBytes_refused {e : ℕ} (h1 : e + maxRwindowSize < 2 ^ 32)
    (h2 : 2 ^ 32 ≤ e + 1 + maxRwindowSize) :
    ∃ r, (Reasm.start e).arriveAll (2 ^ 32) maxRwindowSize [⟨e, [7]⟩, ⟨e + 1, [8]⟩] = r ∧
      r.segs = [⟨e, [7]⟩] ∧ r.next = e + 1 ∧ r.out = [(7 : Byte)] := by
  have hone : Apart e maxRwindowSize {⟨e, [(7 : Byte)]⟩} :=
    (twoBytes_apart e).mono (Set.singleton_subset_iff.2 (Or.inl rfl))
  have hpiece : ∀ s ∈ ({⟨e, [7]⟩} : Set (Seg Byte)), Reasm.Piece e [7, 8] s := fun s hs =>
    twoBytes_piece e s (Or.inl hs)
  have hc := (Reasm.start_collects e maxRwindowSize _).arriveTo hone (M := 2 ^ 32) rfl
  have hsegs : ((Reasm.start e).arriveTo (2 ^ 32) maxRwindowSize ⟨e, [(7 : Byte)]⟩).segs =
      [⟨e, [7]⟩] := by
    unfold Reasm.arriveTo
    rw [if_pos (show (Reasm.start e : Reasm Byte).next + maxRwindowSize < 2 ^ 32 from h1),
      Reasm.arrive_segs, if_pos ⟨le_rfl, hone.before _ rfl⟩]
    rfl
  have hall : ∀ s ∈ ({⟨e, [7]⟩} : Set (Seg Byte)), s ∈
      ((Reasm.start e).arriveTo (2 ^ 32) maxRwindowSize ⟨e, [(7 : Byte)]⟩).segs := fun s hs => by
    rw [hsegs, Set.mem_singleton_iff.1 hs]
    exact List.mem_cons_self
  have hrun : runLen {(⟨e, [7]⟩ : Seg Byte)} e = 1 := by
    refine runLen_eq (fun i hi => ⟨_, rfl, by simp, by simpa using hi⟩) ?_
    rintro ⟨s, rfl, -, hlt⟩
    exact absurd hlt (Nat.lt_irrefl _)
  have hnext := hc.next_eq
  rw [hc.segs_eq hall, hrun] at hnext
  have hout := hc.out_eq hpiece hall
  rw [hrun] at hout
  refine ⟨_, ?_, hsegs, hnext, hout⟩
  rw [← hnext] at h2
  unfold Reasm.arriveAll Reasm.arriveAll
  exact Reasm.arriveTo_refused h2

/-- **The order matters.**  At a receiver that has delivered `2 ^ 32 - 44002` bytes, two bytes arrive
    in order.  The first one is delivered, the second one is refused. -/
theorem any_order_lost : ∃ h h', Reach sockStep clientHost h ∧ h.sock.state = .established ∧
    EmptyWindow h.sock ∧ h.sock.wndRecv.expectSeq.toNat = 4294923295 ∧
    Apart 4294923295 maxRwindowSize (twoBytes 4294923295) ∧
    (∀ s ∈ twoBytes 4294923295, Reasm.Piece 4294923295 [7, 8] s) ∧
    runLen (twoBytes 4294923295) 4294923295 = 2 ∧
    Brings [(0, serverSegment 4294923295 [7]), (0, serverSegment 4294923296 [8])]
      (twoBytes 4294923295) ∧
    exec sockStep h
      (arrivals [(0, serverSegment 4294923295 [7]), (0, serverSegment 4294923296 [8])]) = some h' ∧
    h'.sock.wndRecv.expectSeq = 4294923296 ∧ h'.sock.receivedBuf = [7] ∧
    ∀ i < maxRwindowSize, h'.sock.wndRecv.mark i = 0 := by
  obtain ⟨h, hr, hs, hexp, hmark, hrecv⟩ := fresh_reached 4294923294 (by decide)
  have hnum : h.sock.wndRecv.expectSeq.toNat = 4294923295 := by rw [hexp]; rfl
  have hempty : EmptyWindow h.sock := ⟨fun i _ => hmark i, by rw [hnum]; decide, by rw [hrecv]; decide⟩
  have hbrings : Brings [(0, serverSegment 4294923295 [7]), (0, serverSegment 4294923296 [8])]
      (twoBytes 4294923295) :=
    twoBytes_brings (x := 4294923295) (y := 4294923296) rfl rfl (by simp)
  have hstart := Reasm.start_collects 4294923295 maxRwindowSize (twoBytes 4294923295)
  have hapart := twoBytes_apart 4294923295
  have hexec := arrivals_exec (h := h) hs hempty (by rw [hnum]; exact hapart)
    (by rw [hnum]; exact hstart) hbrings.only
  obtain ⟨r, hr', hsegs, hnext, hout⟩ := twoBytes_refused (e := 4294923295) (by decide) (by decide)
  have hcarried : carried [(0, serverSegment 4294923295 [7]), (0, serverSegment 4294923296 [8])] =
      [⟨4294923295, [7]⟩, ⟨4294923296, [8]⟩] := rfl
  have hfirst : h.sock.shows (Reasm.start 4294923295) = h.sock := by
    rw [← hnum]
    exact shows_start h.sock
  rw [hfirst, hcarried, hr'] at hexec
  refine ⟨h, _, hr, hs, hempty, hnum, hapart, twoBytes_piece _, twoBytes_run _, hbrings, hexec,
    ?_, ?_, fun i hi => ?_⟩
  · show h.sock.wndRecv.expectSeq + .ofNat 32 r.out.length = _
    rw [hexp, hout]
    rfl
  · show h.sock.receivedBuf ++ r.out = _
    rw [hrecv, hout]
    rfl
  · show (if (cover r.segs (r.next + i)).isSome then (1 : Byte) else slid r.out.length _ i) = 0
    have hfree : cover r.segs (r.next + i) = none := by
      rw [hsegs, hnext, cover_cons_out (Seg.at?_eq_none.2 (Or.inr (by simp)))]
      rfl
    rw [hfree, slid_zero hempty.mark hi]
    rfl

end Tju
