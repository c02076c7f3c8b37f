/-
  In-order data at every point of the sequence space.

  The handler compares `seq + dlen` with `expect_seq + MAX_RWINDOW_SIZE`, and
  the number of an ACK with `base`, as plain numbers of 32 bits.  In the last
  `MAX_RWINDOW_SIZE` numbers the second sum wraps and the first one does not,
  unless the segment itself reaches over the end: there the segment that the
  receiver waits for is not copied.

  * `inOrder_copied_iff`: when the segment at `expect_seq` is copied;
  * `data_progress`: from every state reached, with room in `received_buf`, when
    handling it takes the receiver on, and when an ACK for `nextseq` takes the
    sender on;
  * `data_stuck`: a receiver at the number `2 ^ 32 - 44000` refuses the byte
    that it waits for.
-/
import TjuTcp.Delivery
import TjuTcp.SendCursors

namespace Tju

open Lib

/-- `data`, and what was waiting behind it, has gone to `received_buf`. -/
def Progress (sock sock' : TjuTcp) (data : List Byte) : Prop :=
  ∃ rest, sock'.receivedBuf = sock.receivedBuf ++ (data ++ rest) ∧
    sock'.wndRecv.expectSeq = sock.wndRecv.expectSeq + .ofNat 32 (data ++ rest).length

/-- The front of the window already holds `data`. -/
def Held (w : ReceiverWindow) (data : List Byte) : Prop :=
  ∀ i < data.length, w.mark i ≠ 0 ∧ data[i]? = some (w.recvBuf i)

/-- The right edge of the window does not wrap, or the segment wraps too. -/
def SameSide (w : ReceiverWindow) (data : List Byte) : Prop :=
  w.expectSeq.toNat + maxRwindowSize < 2 ^ 32 ∨ 2 ^ 32 ≤ w.expectSeq.toNat + data.length

/-- The marked front of `k` cells has been delivered. -/
structure Slid (sock sock' : TjuTcp) (k : ℕ) : Prop where
  lt : k < maxRwindowSize
  marked : ∀ i < k, sock.wndRecv.mark i ≠ 0
  free : sock.wndRecv.mark k = 0
  receivedBuf : sock'.receivedBuf = sock.receivedBuf ++ front sock.wndRecv.recvBuf k
  expectSeq : sock'.wndRecv.expectSeq = sock.wndRecv.expectSeq + .ofNat 32 k
  mark : ∀ i, sock'.wndRecv.mark i ≠ 0 → sock.wndRecv.mark (i + k) ≠ 0

variable {h h' : Host} {sock sock' : TjuTcp} {w : ReceiverWindow} {pkt : Buf} {data : List Byte}
  {k : ℕ}

/-! ## The window slides -/

theorem getWndFreeLen_spec {mark : ℕ → Byte} {n : BitVec 16} (hn : getWndFreeLen mark = some n) :
    n.toNat < maxRwindowSize ∧ (∀ i < n.toNat, mark i ≠ 0) ∧ mark n.toNat = 0 := by
  obtain ⟨j, hj, rfl⟩ := Option.map_eq_some_iff.1 hn
  obtain ⟨-, hlt, hbefore, hstop⟩ := scan_eq_some hj
  have htn : (BitVec.ofNat 16 j).toNat = j := by
    rw [BitVec.toNat_ofNat, Nat.mod_eq_of_lt]
    simp only [maxRwindowSize, maxDlen] at hlt
    omega
  rw [htn]
  exact ⟨by omega, fun i hi => by simpa using hbefore i (Nat.zero_le i) hi, by simpa using hstop⟩

/-- **With room for a whole window** the marked front is delivered. -/
theorem slideWindow_room (hw : LastFree sock.wndRecv)
    (hroom : sock.receivedBuf.length + maxRwindowSize ≤ maxSockBufSize) :
    ∃ sock' k, slideWindow sock = some sock' ∧ Slid sock sock' k := by
  obtain ⟨n, hn⟩ := Option.isSome_iff_exists.1 (getWndFreeLen_isSome hw)
  obtain ⟨hlt, hmarked, hfree⟩ := getWndFreeLen_spec hn
  obtain ⟨sock', hs⟩ := slideWindow_isSome hn
  refine ⟨sock', n.toNat, hs, ?_⟩
  cases slideWindow_cases hs with
  | unmarked h0 =>
    have hz : n.toNat = 0 := by
      by_contra hpos
      exact hmarked 0 (by omega) h0
    rw [hz] at hmarked hfree hlt ⊢
    exact ⟨hlt, hmarked, hfree, by simp [front], by simp, fun i hi => hi⟩
  | @full k rs _ hk hfull =>
    obtain rfl : n = k := Option.some.inj (hn.symm.trans hk)
    exact absurd hfull (by omega)
  | @delivered k rs _ hk _ =>
    obtain rfl : n = k := Option.some.inj (hn.symm.trans hk)
    refine ⟨hlt, hmarked, hfree, rfl, by rw [BitVec.ofNat_toNat], fun i hi => ?_⟩
    dsimp only at hi
    unfold shiftDown at hi
    split_ifs at hi
    · exact hi
    · exact absurd rfl hi

/-! ## The segment at `expect_seq` -/

section
variable (hp : IsSegment pkt ⟨w.expectSeq.toNat, data⟩)
include hp

theorem inOrder_seq : getSeq pkt = w.expectSeq := BitVec.eq_of_toNat_eq hp.seq

/-- **The in-order segment is copied** unless only the right edge of the window wraps. -/
theorem inOrder_copied_iff (h1 : 1 ≤ data.length) (h2 : data.length ≤ maxDlen) :
    Copied w pkt ↔ SameSide w data := by
  have hd := hp.dlen
  have hseq := inOrder_seq hp
  unfold Copied SameSide payloadLen
  rw [hseq]
  simp only [maxDlen] at h2
  simp only [maxRwindowSize, maxDlen] at hd ⊢
  generalize getPlen pkt - getHlen pkt = d at *
  constructor
  · rintro ⟨-, hlt⟩
    bv_omega
  · intro hside
    exact ⟨BitVec.le_refl _, by bv_omega⟩

theorem inOrder_put (h2 : data.length ≤ maxDlen) (hc : Copied w pkt) : putSegment w pkt =
    some { w with
      recvBuf := store w.recvBuf 0 data
      mark := store w.mark 0 (List.replicate data.length 1) } := by
  have hoff : copyOff w pkt = 0 := by
    unfold copyOff
    rw [inOrder_seq hp, Nat.sub_self]
  have hd : (payloadLen pkt).toNat = data.length := hp.dlen
  have hload : load? pkt (getHlen pkt).toNat data.length = some data := hp.load
  simp only [maxDlen] at h2
  rw [putSegment_copied hc, hd, hoff, hload, Option.bind_some, store?,
    if_pos (by simp only [maxRwindowSize, maxDlen]; omega), Option.bind_some, store?,
    if_pos (by simp only [List.length_replicate, maxRwindowSize, maxDlen]; omega), Option.bind_some]

end

/-- A delivery takes `data` on just if the window held it. -/
theorem Slid.progress_iff (hs : Slid sock sock' k) :
    Progress sock sock' data ↔ Held sock.wndRecv data := by
  constructor
  · rintro ⟨rest, hrecv, -⟩ i hi
    have hfront : front sock.wndRecv.recvBuf k = data ++ rest :=
      List.append_cancel_left (hs.receivedBuf.symm.trans hrecv)
    have hlen := congrArg List.length hfront
    rw [front_length, List.length_append] at hlen
    refine ⟨hs.marked i (by omega), ?_⟩
    rw [← front_getElem? (show i < k by omega), hfront, List.getElem?_append_left hi]
  · intro hheld
    have hle : data.length ≤ k := by
      by_contra hlt
      exact (hheld k (by omega)).1 hs.free
    have hdata : (front sock.wndRecv.recvBuf k).take data.length = data := by
      refine List.ext_getElem? fun i => ?_
      rcases Nat.lt_or_ge i data.length with hi | hi
      · rw [List.getElem?_take_of_lt hi, front_getElem? (by omega), (hheld i hi).2]
      · rw [List.getElem?_eq_none hi, List.getElem?_eq_none (by simp; omega)]
    have hsplit : data ++ (front sock.wndRecv.recvBuf k).drop data.length =
        front sock.wndRecv.recvBuf k := by
      rw [← hdata, List.length_take, front_length, Nat.min_eq_left hle, hdata]
      exact (congrArg (· ++ _) hdata).symm.trans (List.take_append_drop ..)
    refine ⟨(front sock.wndRecv.recvBuf k).drop data.length, ?_, ?_⟩
    · rw [hsplit, hs.receivedBuf]
    · rw [hsplit, front_length, hs.expectSeq]

/-- The window with `data` copied to its front. -/
def ReceiverWindow.filled (w : ReceiverWindow) (data : List Byte) : ReceiverWindow :=
  { w with
    recvBuf := store w.recvBuf 0 data
    mark := store w.mark 0 (List.replicate data.length 1) }

theorem filled_held (w : ReceiverWindow) (data : List Byte) : Held (w.filled data) data := by
  intro i hi
  constructor
  · show store _ 0 _ i ≠ 0
    rw [store_in (Nat.zero_le i) (by simpa using hi)]
    simp
  · show _ = some (store _ 0 data i)
    rw [store_in (Nat.zero_le i) (by omega), List.getElem?_eq_getElem hi]
    rfl

section
variable (hp : IsSegment pkt ⟨sock.wndRecv.expectSeq.toNat, data⟩) (h1 : 1 ≤ data.length)
  (h2 : data.length ≤ maxDlen) (hw : LastFree sock.wndRecv)
  (hroom : sock.receivedBuf.length + maxRwindowSize ≤ maxSockBufSize)
include hp h1 h2 hw hroom

/-- The in-order segment is copied, and then the window slides. -/
theorem inOrder_handle : ∃ sock' k, handleData sock pkt = some (sock', [ackPacket sock']) ∧
    (SameSide sock.wndRecv data ∧ Slid { sock with wndRecv := sock.wndRecv.filled data } sock' k ∨
      ¬ SameSide sock.wndRecv data ∧ Slid sock sock' k) := by
  have hge : getSeq pkt ≥ sock.wndRecv.expectSeq := by
    rw [inOrder_seq hp]
    exact BitVec.le_refl _
  unfold handleData
  simp only [Option.bind_eq_bind]
  rw [if_pos hge]
  by_cases hc : Copied sock.wndRecv pkt
  · have hput : putSegment sock.wndRecv pkt = some (sock.wndRecv.filled data) := inOrder_put hp h2 hc
    have hlast := putSegment_lastFree hge hw hput
    obtain ⟨sock', k, hs, hslid⟩ :=
      slideWindow_room (show LastFree
        ({ sock with wndRecv := sock.wndRecv.filled data } : TjuTcp).wndRecv from hlast) hroom
    refine ⟨sock', k, ?_, Or.inl ⟨(inOrder_copied_iff hp h1 h2).1 hc, hslid⟩⟩
    rw [hput, Option.bind_some, hs]
    rfl
  · obtain ⟨sock', k, hs, hslid⟩ := slideWindow_room hw hroom
    refine ⟨sock', k, ?_, Or.inr ⟨fun hside => hc ((inOrder_copied_iff hp h1 h2).2 hside), hslid⟩⟩
    rw [putSegment_skipped hge hc, Option.bind_some, hs]
    rfl

/-- **The in-order segment** is handled, and takes the receiver on if it is copied, or if the window
    held its data before. -/
theorem inOrder_progress : ∃ sock' out, handleData sock pkt = some (sock', out) ∧
    (Progress sock sock' data ↔ SameSide sock.wndRecv data ∨ Held sock.wndRecv data) := by
  obtain ⟨sock', k, hd, hor⟩ := inOrder_handle hp h1 h2 hw hroom
  refine ⟨sock', _, hd, ?_⟩
  rcases hor with ⟨hside, hslid⟩ | ⟨hside, hslid⟩
  · exact iff_of_true (hslid.progress_iff.2 (filled_held _ data)) (Or.inl hside)
  · rw [hslid.progress_iff, or_iff_right hside]

end

/-! ## In every state reached -/

/-- An ACK for `nextseq` is handled, and moves `base` there unless that is a lower number. -/
theorem nextseqAck_progress {now : ℕ} (hs : h.sock.state = .established)
    (hf : getFlags pkt = ackFlagMask) (hack : getAck pkt = h.sock.wndSend.nextseq)
    (hc : Cursors h.sock) : ∃ h' out, tjuHandlePacket now h pkt = some (h', out) ∧
      (h'.sock.wndSend.base = h.sock.wndSend.nextseq ↔
        ¬ h.sock.wndSend.nextseq < h.sock.wndSend.base) := by
  have hin : AckInWindow h.sock (getAck pkt) := by
    unfold AckInWindow
    rw [hack]
    exact BitVec.le_refl _
  obtain ⟨h', ha, -⟩ := handleAck_cursors now hc (Or.inr hin)
  refine ⟨h', [], by rw [handle_ack hs hf, ha]; rfl, ?_⟩
  by_cases hlt : h.sock.wndSend.base < getAck pkt
  · rw [handleAck_base hlt ha, hack]
    rw [hack] at hlt
    exact iff_of_true rfl (by bv_omega)
  · obtain ⟨t, ha', -, hsame, -⟩ := handleAck_old now (BitVec.not_lt.1 hlt)
    cases ha.symm.trans ha'
    rw [hsame.base]
    rw [hack] at hlt
    constructor <;> intro h <;> bv_omega

/-- **Progress.**  In every state that the process can reach, with room for a window in
    `received_buf`, the segment at `expect_seq` is handled and takes the receiver on if and only if
    the right edge of the window does not wrap alone, or the window held its data already.  And in
    every state with the cursors in order, an ACK for `nextseq` is handled and takes `base` there if
    and only if `nextseq` has not wrapped below `base`. -/
theorem data_progress {a b : TjuSockAddr} (hr : Reach sockStep (establishedHost a b) h)
    (hs : h.sock.state = .established)
    (hroom : h.sock.receivedBuf.length + maxRwindowSize ≤ maxSockBufSize) :
    (∀ now pkt data, getFlags pkt = noFlag → IsSegment pkt ⟨h.sock.wndRecv.expectSeq.toNat, data⟩ →
      1 ≤ data.length → data.length ≤ maxDlen →
      ∃ h' out, tjuHandlePacket now h pkt = some (h', out) ∧
        (Progress h.sock h'.sock data ↔
          SameSide h.sock.wndRecv data ∨ Held h.sock.wndRecv data)) ∧
    ∀ (g : Host) now pkt, g.sock.state = .established → Cursors g.sock →
      getFlags pkt = ackFlagMask → getAck pkt = g.sock.wndSend.nextseq →
      ∃ g' out, tjuHandlePacket now g pkt = some (g', out) ∧
        (g'.sock.wndSend.base = g.sock.wndSend.nextseq ↔
          ¬ g.sock.wndSend.nextseq < g.sock.wndSend.base) := by
  refine ⟨fun now pkt data hf hp h1 h2 => ?_, fun g now pkt hsg hc hf hack =>
    nextseqAck_progress hsg hf hack hc⟩
  obtain ⟨sock', out, hd, hiff⟩ := inOrder_progress hp h1 h2 (lastFree_reached hr) hroom
  exact ⟨{ h with sock := sock' }, out, by rw [handle_data hs hf, hd]; rfl, hiff⟩

/-! ## The end of the sequence space -/

/-- A receiver that has delivered and handed out all that it has received. -/
structure Fresh (h : Host) (e : BitVec 32) : Prop where
  state : h.sock.state = .established
  expectSeq : h.sock.wndRecv.expectSeq = e
  mark : ∀ i, h.sock.wndRecv.mark i = 0
  receivedBuf : h.sock.receivedBuf = []

theorem serverSegment_isSegment (seq : BitVec 32) {data : List Byte}
    (h : 20 + data.length < 2 ^ 16) : IsSegment (serverSegment seq data) ⟨seq.toNat, data⟩ := by
  unfold serverSegment
  refine ⟨by rw [getSeq_wire], by rw [getHlen_wire], ?_, wire_length _ _, wire_drop _ _⟩
  rw [getPlen_wire]
  bv_omega

section
variable {b : Byte} (hmark : ∀ i, sock.wndRecv.mark i = 0)
include hmark

/-- In an empty window a single byte is the only one marked. -/
theorem filled_mark_iff (i : ℕ) : (sock.wndRecv.filled [b]).mark i ≠ 0 ↔ i = 0 := by
  show store sock.wndRecv.mark 0 [1] i ≠ 0 ↔ i = 0
  rcases Nat.eq_zero_or_pos i with rfl | hi
  · rw [store_in (Nat.zero_le 0) (by decide)]
    exact iff_of_true (by decide) rfl
  · rw [store_out (Or.inr (by simp; omega)), hmark]
    exact iff_of_false (fun h => h rfl) (by omega)

/-- That byte is delivered, and leaves the window empty. -/
theorem Slid.one (hs : Slid { sock with wndRecv := sock.wndRecv.filled [b] } sock' k) :
    k = 1 ∧ ∀ i, sock'.wndRecv.mark i = 0 := by
  have hk0 : k ≠ 0 := fun h0 => (filled_mark_iff hmark k).2 h0 hs.free
  constructor
  · by_contra hk1
    exact absurd ((filled_mark_iff hmark 1).1 (hs.marked 1 (by omega))) (by decide)
  · intro i
    by_contra hi
    exact absurd ((filled_mark_iff hmark (i + k)).1 (hs.mark i hi)) (by omega)

end

/-- One more byte is received, delivered and handed out. -/
theorem fresh_step {e : BitVec 32} (hf : Fresh h e) (he : e.toNat + maxRwindowSize < 2 ^ 32) :
    ∃ h', exec sockStep h [.packet 0 (serverSegment e [0]), .recv 1] = some h' ∧
      Fresh h' (e + 1) := by
  obtain ⟨hs, rfl, hmark, hrecv⟩ := hf
  obtain ⟨sock', k, hd, hor⟩ := inOrder_handle
    (serverSegment_isSegment h.sock.wndRecv.expectSeq (show 20 + [(0 : Byte)].length < 2 ^ 16 by decide))
    le_rfl (by decide) (hmark _) (by rw [hrecv]; decide)
  have hslid : Slid { h.sock with wndRecv := h.sock.wndRecv.filled [0] } sock' k := by
    rcases hor with ⟨-, hslid⟩ | ⟨hside, -⟩
    · exact hslid
    · exact absurd (Or.inl he) hside
  obtain ⟨hk, hempty⟩ := hslid.one hmark
  have hbuf : sock'.receivedBuf.length = 1 := by
    rw [hslid.receivedBuf, hk, List.length_append, front_length]
    simp [hrecv]
  refine ⟨{ h with sock := { sock' with receivedBuf := sock'.receivedBuf.drop 1 } }, ?_, ?_, ?_,
    hempty, ?_⟩
  · have hpkt : sockStep h (.packet 0 (serverSegment h.sock.wndRecv.expectSeq [0])) =
        some { h with sock := sock' } := by
      show (tjuHandlePacket 0 h _).map Prod.fst = _
      rw [handle_data hs rfl, hd]
      rfl
    have hget : sockStep { h with sock := sock' } (.recv 1) =
        some { h with sock := { sock' with receivedBuf := sock'.receivedBuf.drop 1 } } := by
      simp only [sockStep, tjuRecv, hbuf]
      rfl
    unfold exec
    rw [hpkt, Option.bind_some]
    unfold exec
    rw [hget]
    rfl
  · show sock'.state = _
    rw [(handleData_frame hd).1]
    exact hs
  · show sock'.wndRecv.expectSeq = _
    rw [hslid.expectSeq, hk]
    rfl
  · show sock'.receivedBuf.drop 1 = []
    rw [List.drop_eq_nil_iff, hbuf]

/-- Every number up to the last `MAX_RWINDOW_SIZE` ones is reached. -/
theorem fresh_reached (n : ℕ) (hn : n + maxRwindowSize < 2 ^ 32) :
    ∃ h, Reach sockStep clientHost h ∧ Fresh h (.ofNat 32 (n + 1)) := by
  induction n with
  | zero => exact ⟨clientHost, .refl, rfl, rfl, fun _ => rfl, rfl⟩
  | succ n ih =>
    obtain ⟨h, hr, hf⟩ := ih (by omega)
    obtain ⟨h', hx, hf'⟩ := fresh_step hf (by
      simp only [maxRwindowSize, maxDlen] at hn ⊢
      bv_omega)
    refine ⟨h', hr.trans (ReachBy.of_exec _ hx), ?_⟩
    rw [BitVec.ofNat_add (n + 1) 1]
    exact hf'

theorem data_progress_first : ∃ h' out,
    tjuHandlePacket 0 clientHost (serverSegment 1 [7]) = some (h', out) ∧
      (Progress clientHost.sock h'.sock [7] ↔
        SameSide clientHost.sock.wndRecv [7] ∨ Held clientHost.sock.wndRecv [7]) := by
  have hroom : clientHost.sock.receivedBuf.length + maxRwindowSize ≤ maxSockBufSize := by decide
  exact (data_progress (h := clientHost) .refl rfl hroom).1 0 (serverSegment 1 [7]) [7] rfl
    (serverSegment_isSegment 1 (by decide)) le_rfl (by decide)

/-- **A receiver that is stuck.**  `2 ^ 32 - 44001` bytes have been delivered; the next one is
    refused, as are all that come after it. -/
theorem data_stuck : ∃ h h', Reach sockStep clientHost h ∧ h.sock.state = .established ∧
    h.sock.wndRecv.expectSeq = 4294923296 ∧ h.sock.receivedBuf = [] ∧
    tjuHandlePacket 0 h (serverSegment 4294923296 [7]) = some (h', [ackPacket h'.sock]) ∧
    h'.sock.wndRecv.expectSeq = 4294923296 ∧ h'.sock.receivedBuf = [] := by
  obtain ⟨h, hr, hs, he, hmark, hrecv⟩ := fresh_reached 4294923295 (by decide)
  have hexp : h.sock.wndRecv.expectSeq = 4294923296 := he
  have hseg := serverSegment_isSegment h.sock.wndRecv.expectSeq
    (show 20 + [(7 : Byte)].length < 2 ^ 16 by decide)
  obtain ⟨sock', k, hd, hor⟩ := inOrder_handle hseg le_rfl (by decide) (hmark _)
    (by rw [hrecv]; decide)
  have hslid : Slid h.sock sock' k := by
    rcases hor with ⟨hside, -⟩ | ⟨-, hslid⟩
    · unfold SameSide at hside
      rw [hexp] at hside
      exact absurd hside (by decide)
    · exact hslid
  have hk : k = 0 := by
    by_contra hpos
    exact hslid.marked 0 (by omega) (hmark 0)
  refine ⟨h, { h with sock := sock' }, hr, hs, hexp, hrecv, ?_, ?_, ?_⟩
  · rw [← hexp, handle_data hs rfl, hd]
    rfl
  · show sock'.wndRecv.expectSeq = _
    rw [hslid.expectSeq, hk, hexp]
    rfl
  · show sock'.receivedBuf = []
    rw [hslid.receivedBuf, hk, hrecv]
    rfl

end Tju
