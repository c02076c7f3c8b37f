/-
  The bounds of the receive window under arbitrary data segments.

  Before it copies a segment into the window, the handler makes one test: the
  sum `seq + dlen` against `expect_seq + MAX_RWINDOW_SIZE`, both modulo
  `2 ^ 32`, with `dlen = plen - hlen` modulo `2 ^ 16`.  `SegmentOk` says which
  segments may pass it: those with `hlen <= plen` for which not the first sum
  alone wraps.

  * `inBounds_iff`: the copy and the scan of the marks stay inside their arrays
    exactly on these segments;
  * `window_reached`: in every reachable state the last mark is not set, on
    which the scan relies, so that the former holds there.
-/
import TjuTcp.Socket
import TjuTcp.Lib.Simulation

namespace Tju

open Lib

/-- The payload length that the handler computes. -/
def payloadLen (pkt : Buf) : BitVec 16 := getPlen pkt - getHlen pkt

/-- The segment passes both tests before the copy. -/
def Copied (w : ReceiverWindow) (pkt : Buf) : Prop :=
  getSeq pkt ≥ w.expectSeq ∧
    getSeq pkt + (payloadLen pkt).setWidth 32 < w.expectSeq + BitVec.ofNat 32 maxRwindowSize

instance (w : ReceiverWindow) (pkt : Buf) : Decidable (Copied w pkt) :=
  inferInstanceAs (Decidable (_ ∧ _))

/-- The index of the window at which the copy starts. -/
def copyOff (w : ReceiverWindow) (pkt : Buf) : ℕ := (getSeq pkt).toNat - w.expectSeq.toNat

/-- Every index that the data branch touches is inside its array. -/
structure InBounds (w : ReceiverWindow) (pkt : Buf) : Prop where
  write : Copied w pkt → ∀ i < (payloadLen pkt).toNat, copyOff w pkt + i < maxRwindowSize
  read : Copied w pkt → ∀ i < (payloadLen pkt).toNat, (getHlen pkt).toNat + i < pkt.length
  scan : getSeq pkt ≥ w.expectSeq → ∀ w', putSegment w pkt = some w' → w'.mark 0 ≠ 0 →
    (getWndFreeLen w'.mark).isSome

/-- A copied segment has `hlen <= plen`, and `seq + dlen` wraps only if
    `expect_seq + MAX_RWINDOW_SIZE` does. -/
def SegmentOk (w : ReceiverWindow) (pkt : Buf) : Prop :=
  Copied w pkt → getHlen pkt ≤ getPlen pkt ∧
    ((getSeq pkt).toNat + (payloadLen pkt).toNat < 2 ^ 32 ∨
      2 ^ 32 ≤ w.expectSeq.toNat + maxRwindowSize)

instance (w : ReceiverWindow) (pkt : Buf) : Decidable (SegmentOk w pkt) :=
  inferInstanceAs (Decidable (_ → _ ∧ (_ ∨ _)))

/-- The mark that the scan relies on. -/
def LastFree (w : ReceiverWindow) : Prop := w.mark (maxRwindowSize - 1) = 0

variable {w w' : ReceiverWindow} {pkt : Buf} {sock sock' : TjuTcp} {h h' : Host}

/-! ## The copy -/

/-- A segment inside the window leaves the last cell free. -/
theorem SegmentOk.fits (hc : Copied w pkt) (hok : SegmentOk w pkt) :
    copyOff w pkt + (payloadLen pkt).toNat < maxRwindowSize := by
  obtain ⟨hge, hlt⟩ := hc
  obtain ⟨-, hwrap⟩ := hok ⟨hge, hlt⟩
  simp only [copyOff, maxRwindowSize, maxDlen] at *
  bv_omega

theorem SegmentOk.reads (hc : Copied w pkt) (hok : SegmentOk w pkt)
    (hlen : pkt.length = (getPlen pkt).toNat) :
    (getHlen pkt).toNat + (payloadLen pkt).toNat ≤ pkt.length := by
  have hle := (hok hc).1
  simp only [payloadLen]
  bv_omega

/-- The copy stays inside its arrays only if the segment meets `SegmentOk`. -/
theorem segmentOk_of_copy (hlen : pkt.length = (getPlen pkt).toNat)
    (hw : ∀ i < (payloadLen pkt).toNat, copyOff w pkt + i < maxRwindowSize)
    (hr : ∀ i < (payloadLen pkt).toNat, (getHlen pkt).toNat + i < pkt.length) :
    SegmentOk w pkt := by
  rintro ⟨hge, hlt⟩
  have hw' := hw ((payloadLen pkt).toNat - 1)
  have hr' := hr ((payloadLen pkt).toNat - 1)
  simp only [copyOff, payloadLen, maxRwindowSize, maxDlen] at *
  constructor <;> bv_omega

/-- What the copy writes, if it is made at all. -/
theorem putSegment_copied (hc : Copied w pkt) : putSegment w pkt =
    (load? pkt (getHlen pkt).toNat (payloadLen pkt).toNat).bind fun data =>
      (store? maxRwindowSize w.recvBuf (copyOff w pkt) data).bind fun recvBuf =>
        (store? maxRwindowSize w.mark (copyOff w pkt)
          (List.replicate (payloadLen pkt).toNat 1)).bind fun mark =>
          some { w with recvBuf := recvBuf, mark := mark } := by
  unfold putSegment
  exact if_pos hc.2

theorem putSegment_skipped (hge : getSeq pkt ≥ w.expectSeq) (hc : ¬ Copied w pkt) :
    putSegment w pkt = some w := by
  unfold putSegment
  exact if_neg fun hlt => hc ⟨hge, hlt⟩

/-- A copy that is defined stays inside its arrays. -/
theorem putSegment_bounds (hc : Copied w pkt) (hp : putSegment w pkt = some w') :
    (getHlen pkt).toNat + (payloadLen pkt).toNat ≤ pkt.length ∧
      copyOff w pkt + (payloadLen pkt).toNat ≤ maxRwindowSize ∧
      w'.mark = store w.mark (copyOff w pkt) (List.replicate (payloadLen pkt).toNat 1) := by
  rw [putSegment_copied hc] at hp
  obtain ⟨data, hl, hp⟩ := Option.bind_eq_some_iff.1 hp
  obtain ⟨buf, -, hp⟩ := Option.bind_eq_some_iff.1 hp
  obtain ⟨mark, hs, hp⟩ := Option.bind_eq_some_iff.1 hp
  cases hp
  obtain ⟨hs, hm⟩ := store?_eq_some hs
  rw [List.length_replicate] at hs
  exact ⟨(load?_eq_some hl).1, hs, hm⟩

/-- A defined copy has passed `SegmentOk`. -/
theorem segmentOk_of_put (hlen : pkt.length = (getPlen pkt).toNat)
    (hp : putSegment w pkt = some w') : SegmentOk w pkt := by
  intro hc
  obtain ⟨hr, hw, -⟩ := putSegment_bounds hc hp
  exact segmentOk_of_copy hlen (fun i hi => by omega) (fun i hi => by omega) hc

theorem putSegment_isSome (hge : getSeq pkt ≥ w.expectSeq)
    (hlen : pkt.length = (getPlen pkt).toNat) (hok : SegmentOk w pkt) :
    ∃ w', putSegment w pkt = some w' := by
  by_cases hc : Copied w pkt
  · have hfit := hok.fits hc
    have hread := hok.reads hc hlen
    have hdata : ((pkt.drop (getHlen pkt).toNat).take (payloadLen pkt).toNat).length =
        (payloadLen pkt).toNat := by
      simp only [List.length_take, List.length_drop]; omega
    rw [putSegment_copied hc, load?, if_pos hread, Option.bind_some, store?,
      if_pos (by rw [hdata]; omega), Option.bind_some, store?,
      if_pos (by rw [List.length_replicate]; omega), Option.bind_some]
    exact ⟨_, rfl⟩
  · exact ⟨w, putSegment_skipped hge hc⟩

/-! ## The last mark -/

/-- The sums of the test cannot agree on a segment that fills the window: the last cell is
    never written. -/
theorem putSegment_lastFree (hge : getSeq pkt ≥ w.expectSeq) (hw : LastFree w)
    (hp : putSegment w pkt = some w') : LastFree w' := by
  by_cases hc : Copied w pkt
  · obtain ⟨-, hle, hm⟩ := putSegment_bounds hc hp
    have hlt : copyOff w pkt + (payloadLen pkt).toNat < maxRwindowSize := by
      obtain ⟨-, hlt⟩ := hc
      simp only [copyOff, payloadLen, maxRwindowSize, maxDlen] at *
      bv_omega
    unfold LastFree
    rw [hm, store_out (by simp only [List.length_replicate]; omega)]
    exact hw
  · rw [putSegment_skipped hge hc] at hp
    cases hp
    exact hw

/-- With the last mark not set, the scan ends inside the array. -/
theorem getWndFreeLen_isSome (hw : LastFree w) : (getWndFreeLen w.mark).isSome := by
  have hf : (w.mark (maxRwindowSize - 1) != 0) = false := by
    rw [show w.mark (maxRwindowSize - 1) = 0 from hw]; rfl
  obtain ⟨j, hj⟩ := scan_isSome (p := fun i => w.mark i != 0) (n := maxRwindowSize) (i := 0) hf
    (by omega) (by simp)
  rw [getWndFreeLen, hj]
  rfl

theorem LastFree.of_mark (hw : LastFree w) (hm : w'.mark = w.mark) : LastFree w' := by
  unfold LastFree; rw [hm]; exact hw

theorem LastFree.shift (hw : LastFree w) (k : ℕ) (rs es : BitVec 32) (buf : ℕ → Byte) :
    LastFree ⟨rs, buf, shiftDown maxRwindowSize k 0 w.mark, es⟩ := by
  unfold LastFree shiftDown
  dsimp only
  split_ifs with hlt
  · have hk : k = 0 := by simp only [maxRwindowSize, maxDlen] at hlt; omega
    rw [hk]; exact hw
  · rfl

theorem slideWindow_lastFree (hw : LastFree sock.wndRecv) (hs : slideWindow sock = some sock') :
    LastFree sock'.wndRecv := by
  cases slideWindow_cases hs with
  | unmarked => exact hw
  | full => exact hw.of_mark rfl
  | @delivered k => exact hw.shift k.toNat _ _ _

theorem handleData_lastFree {out : List Buf} (hw : LastFree sock.wndRecv)
    (hd : handleData sock pkt = some (sock', out)) : LastFree sock'.wndRecv := by
  unfold handleData at hd
  simp only [Option.bind_eq_bind] at hd
  split_ifs at hd with hge
  · obtain ⟨w, hp, hd⟩ := Option.bind_eq_some_iff.1 hd
    obtain ⟨t, hs, hd⟩ := Option.bind_eq_some_iff.1 hd
    cases hd
    exact slideWindow_lastFree (putSegment_lastFree hge hw hp) hs
  · cases hd; exact hw

/-! ## The data branch -/

/-- **Bounds of one segment.** -/
theorem inBounds_iff (hw : LastFree w) (hlen : pkt.length = (getPlen pkt).toNat) :
    InBounds w pkt ↔ SegmentOk w pkt := by
  constructor
  · intro hb hc
    exact segmentOk_of_copy hlen (hb.write hc) (hb.read hc) hc
  · intro hok
    refine ⟨fun hc i hi => ?_, fun hc i hi => ?_, fun hge w' hp _ => ?_⟩
    · have := hok.fits hc; omega
    · have := hok.reads hc hlen; omega
    · exact getWndFreeLen_isSome (putSegment_lastFree hge hw hp)

/-- The data branch runs to its end on the same segments. -/
theorem handleData_isSome_iff (hw : LastFree sock.wndRecv)
    (hlen : pkt.length = (getPlen pkt).toNat) :
    (handleData sock pkt).isSome ↔ SegmentOk sock.wndRecv pkt := by
  unfold handleData
  simp only [Option.bind_eq_bind]
  by_cases hge : getSeq pkt ≥ sock.wndRecv.expectSeq
  · rw [if_pos hge]
    constructor
    · intro hs
      cases hp : putSegment sock.wndRecv pkt with
      | none => rw [hp] at hs; cases hs
      | some w' => exact segmentOk_of_put hlen hp
    · intro hok
      obtain ⟨w', hp⟩ := putSegment_isSome hge hlen hok
      obtain ⟨k, hk⟩ := Option.isSome_iff_exists.1
        (getWndFreeLen_isSome (putSegment_lastFree hge hw hp))
      obtain ⟨t, ht⟩ : ∃ t, slideWindow { sock with wndRecv := w' } = some t := slideWindow_isSome hk
      rw [hp, Option.bind_some, ht]
      rfl
  · rw [if_neg hge]
    exact ⟨fun _ hc => absurd hc.1 hge, fun _ => rfl⟩

/-! ## Runs -/

/-- **One step leaves the last mark free.** -/
theorem lastFree_step {e : SockEv} (hw : LastFree h.sock.wndRecv) (he : sockStep h e = some h') :
    LastFree h'.sock.wndRecv := by
  cases e with
  | append data =>
    obtain ⟨sock, hs, rfl⟩ := Option.map_eq_some_iff.1 he
    obtain ⟨-, rfl⟩ := appendData_eq_some hs
    exact hw
  | sendPass now =>
    cases he
    exact (sendingThread_rest now h).wndRecv ▸ hw
  | retransPass =>
    obtain ⟨⟨t, out⟩, ht, rfl⟩ := Option.map_eq_some_iff.1 he
    exact (retransThread_rest ht).wndRecv ▸ hw
  | alarm => cases he; exact hw
  | packet now pkt =>
    obtain ⟨⟨t, out⟩, ht, rfl⟩ := Option.map_eq_some_iff.1 he
    rcases handle_receiving ht with ⟨-, hsame⟩ | ⟨-, -, sock, hd, rfl⟩
    · exact hsame ▸ hw
    · exact handleData_lastFree hw hd
  | recv len =>
    simp only [sockStep] at he
    split_ifs at he
    obtain ⟨⟨sock, bytes⟩, hr, rfl⟩ := Option.map_eq_some_iff.1 he
    obtain ⟨-, rfl, -⟩ := tjuRecv_eq_some hr
    exact hw

theorem lastFree_reached {a b : TjuSockAddr} (hr : Reach sockStep (establishedHost a b) h) :
    LastFree h.sock.wndRecv :=
  hr.inv (I := fun h => LastFree h.sock.wndRecv) (show LastFree ReceiverWindow.init from rfl)
    fun _ _ _ hi _ => lastFree_step hi

/-- **The bounds of the receive window.**  In every reachable state and for every data packet, a
    packet buffer being as long as its field says, the handler stays inside its arrays if and only
    if the segment meets `SegmentOk`. -/
theorem window_reached (a b : TjuSockAddr) (hr : Reach sockStep (establishedHost a b) h)
    (hs : h.sock.state = .established) (hf : getFlags pkt = noFlag)
    (hlen : pkt.length = (getPlen pkt).toNat) (now : ℕ) :
    (InBounds h.sock.wndRecv pkt ↔ SegmentOk h.sock.wndRecv pkt) ∧
      ((tjuHandlePacket now h pkt).isSome ↔ SegmentOk h.sock.wndRecv pkt) := by
  have hw := lastFree_reached hr
  refine ⟨inBounds_iff hw hlen, ?_⟩
  rw [handle_data hs hf, Option.isSome_map]
  exact handleData_isSome_iff hw hlen

/-- A segment from the server. -/
def serverSegment (seq : BitVec 32) (data : List Byte) : Buf :=
  wire ⟨1234, 5678, seq, 0, 20, 20 + .ofNat 16 data.length, noFlag, 1, 0⟩ data

/-- The bytes 1 and 2 have come in order, and the byte 5 early. -/
def earlyByte : List SockEv :=
  [.packet 0 (serverSegment 1 [7, 8]), .packet 0 (serverSegment 5 [11])]

/-- The next two bytes are copied between them. -/
theorem window_reached_data :
    let h := (exec sockStep clientHost earlyByte).getD clientHost
    InBounds h.sock.wndRecv (serverSegment 3 [9, 10]) ∧
      (tjuHandlePacket 0 h (serverSegment 3 [9, 10])).isSome := by
  intro h
  have hr : Reach sockStep clientHost h :=
    .of_exec earlyByte (exec_getD (by decide +kernel) clientHost)
  have hf : getFlags (serverSegment 3 [9, 10]) = noFlag := by decide
  obtain ⟨hin, hsome⟩ :=
    window_reached ⟨clientIp, 5678⟩ ⟨serverIp, 1234⟩ hr (by decide +kernel) hf (by decide) 0
  have hok : SegmentOk h.sock.wndRecv (serverSegment 3 [9, 10]) := by decide +kernel
  exact ⟨hin.2 hok, hsome.2 hok⟩

/-- A packet of 20 bytes from the server whose header claims `hlen`, at the front of the window. -/
def headerOnly (hlen : BitVec 16) : Buf := wire ⟨1234, 5678, 1, 0, hlen, 20, noFlag, 1, 0⟩ []

/-- With `hlen` far above `plen` the payload length wraps to 21, and the copy starts 65515 bytes
    behind the packet. -/
theorem window_overread :
    ¬ ∀ h, Reach sockStep clientHost h → ∀ pkt, h.sock.state = .established →
      getFlags pkt = noFlag → pkt.length = (getPlen pkt).toNat → 20 ≤ pkt.length →
        InBounds h.sock.wndRecv pkt := by
  intro hall
  have hb := hall clientHost ReachBy.refl (headerOnly 65535) rfl rfl rfl (by decide)
  exact absurd (hb.read ⟨by decide, by decide⟩ 0 (by decide)) (by decide)

end Tju
