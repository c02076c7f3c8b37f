/-
  The sizes of both windows.

  `window_sizes`: the send window is the smaller one of `cwnd` and `rwnd` in
  every state that a sender reaches; what a receiver of data segments
  advertises is its `remain_size`, from 1 to `MAX_RWINDOW_SIZE`; and a sender
  that handles only ACKs of such receivers has a window of at most
  `MAX_SWINDOW_SIZE`.
-/
import TjuTcp.Congestion
import TjuTcp.Advertised

namespace Tju

open Lib

/-- A receiver of data segments sends the packet `q`, for a packet that is not a FIN. -/
def Answers (q : Buf) : Prop :=
  ∃ a b s now pkt h' out, ReachBy recvStep SegmentsOnly (.start a b) s ∧
    getFlags pkt ≠ finFlagMask ∧ tjuHandlePacket now s.host pkt = some (h', out) ∧ q ∈ out

/-- The guard on a step: the ACK that is handled advertises the window of such an answer. -/
def AckAnswers (h : Host) (e : SockEv) : Prop :=
  ∀ pkt, ackOf h e = some pkt → ∃ q, Answers q ∧ getAdvertisedWindow pkt = getAdvertisedWindow q

variable {h h' : Host} {s : Receiver} {pkt q : Buf} {now : ℕ} {a b : TjuSockAddr} {out : List Buf}

theorem ackPacket_window (sock : TjuTcp) (hr : RemainOk sock.wndRecv) :
    (getAdvertisedWindow (ackPacket sock)).toNat = sock.wndRecv.remainSize.toNat := by
  have hle := hr.le
  simp only [maxRwindowSize, maxDlen] at hle
  rw [ackPacket_eq, getAdvertisedWindow_wire, BitVec.toNat_setWidth]
  omega

/-- A receiver in ESTABLISHED sends nothing but the ACK of the state that it leaves, unless a FIN
    arrives. -/
theorem established_answers (hs : h.sock.state = .established) (hr : RemainOk h.sock.wndRecv)
    (hf : getFlags pkt ≠ finFlagMask) (he : tjuHandlePacket now h pkt = some (h', out))
    (hq : q ∈ out) : RemainOk h'.sock.wndRecv ∧ q = ackPacket h'.sock := by
  cases tjuHandlePacket_cases he with
  | fin _ hfin => exact absurd hfin hf
  | data _ _ hd =>
    rw [(handleData_frame hd).2] at hq
    exact ⟨handleData_remain hd hr, List.mem_singleton.1 hq⟩
  | ack => cases hq
  | ignored => cases hq
  | closing _ _ hne => exact absurd hs hne

/-- **The advertised window** is `remain_size`, not truncated. -/
theorem answers_window (hr : ReachBy recvStep SegmentsOnly (.start a b) s)
    (hf : getFlags pkt ≠ finFlagMask) (he : tjuHandlePacket now s.host pkt = some (h', out))
    (hq : q ∈ out) : RemainOk h'.sock.wndRecv ∧
      (getAdvertisedWindow q).toNat = h'.sock.wndRecv.remainSize.toNat := by
  obtain ⟨hs, hrem⟩ := segments_reached a b hr
  obtain ⟨hok, rfl⟩ := established_answers hs hrem hf he hq
  exact ⟨hok, ackPacket_window _ hok⟩

/-- The window that the peer has advertised. -/
theorem rwnd_reached (hr : ReachBy sockStep AckAnswers (establishedHost a b) h) :
    h.sock.wndSend.rwnd.toNat ≤ maxSwindowSize := by
  refine hr.inv (I := fun h => h.sock.wndSend.rwnd.toNat ≤ maxSwindowSize) le_rfl
    fun h e h' hle hok he => ?_
  cases sockStep_window he with
  | ack pkt hack hw =>
    obtain ⟨q, ⟨a, b, s, now, p, t, out, hr, hf, ht, hq⟩, hadv⟩ := hok pkt hack
    obtain ⟨hrem, hwin⟩ := answers_window hr hf ht hq
    have hle := hrem.le
    rw [hw.rwnd, ackWindow_rwnd, hadv, BitVec.toNat_setWidth, hwin]
    exact (Nat.mod_le _ _).trans hle
  | timeout _ hw => rw [hw.rwnd]; exact hle
  | same _ hw => rw [hw.rwnd]; exact hle

/-- **The sizes of the windows.**  Every sender has the smaller one of `cwnd` and `rwnd` for its
    window, in slow start, congestion avoidance or fast recovery; every receiver of data segments
    has a `remain_size` from 1 to `MAX_RWINDOW_SIZE`, and answers what is not a FIN with
    exactly that; and with such ACKs only, the send window is at most `MAX_SWINDOW_SIZE`. -/
theorem window_sizes (a b : TjuSockAddr) :
    (∀ h, Reach sockStep (establishedHost a b) h →
      h.sock.wndSend.windowSize = cmin h.sock.wndSend.cwnd h.sock.wndSend.rwnd ∧
        (h.sock.wndSend.windowStatus = .slowStart ∨
          h.sock.wndSend.windowStatus = .congestionAvoidance ∨
          h.sock.wndSend.windowStatus = .fastRecovery)) ∧
    (∀ s, ReachBy recvStep SegmentsOnly (.start a b) s → RemainOk s.host.sock.wndRecv ∧
      ∀ now pkt h' out, getFlags pkt ≠ finFlagMask → tjuHandlePacket now s.host pkt = some (h', out) →
        ∀ q ∈ out, (getAdvertisedWindow q).toNat = h'.sock.wndRecv.remainSize.toNat) ∧
    ∀ h, ReachBy sockStep AckAnswers (establishedHost a b) h →
      h.sock.wndSend.windowSize.toNat ≤ maxSwindowSize := by
  refine ⟨fun h hr => ?_, fun s hr => ⟨(segments_reached a b hr).2, ?_⟩, fun h hr => ?_⟩
  · have hi := congInv_reached hr
    refine ⟨hi.windowSize, ?_⟩
    have hst := hi.windowStatus
    cases hs : h.sock.wndSend.windowStatus with
    | slowStart => exact Or.inl rfl
    | congestionAvoidance => exact Or.inr (Or.inl rfl)
    | fastRecovery => exact Or.inr (Or.inr rfl)
    | timeout => exact absurd hs hst
  · intro now pkt h' out hf he q hq
    exact (answers_window hr hf he hq).2
  · have hle := rwnd_reached hr
    have hi := congInv_reached (hr.weaken fun _ _ _ => trivial)
    rw [hi.windowSize, cmin_toNat]
    exact (min_le_right _ _).trans hle

/-- The packet that carries a byte from the server to the client, and its acknowledgement. -/
theorem answers_byte : Answers (ackPacket
    ((recvStep (.start ⟨clientIp, 5678⟩ ⟨serverIp, 1234⟩) (.segment 0 (serverSegment 1 [7]))).getD
      (.start ⟨clientIp, 5678⟩ ⟨serverIp, 1234⟩)).host.sock) :=
  ⟨⟨clientIp, 5678⟩, ⟨serverIp, 1234⟩, .start ⟨clientIp, 5678⟩ ⟨serverIp, 1234⟩, 0,
    serverSegment 1 [7], _, _, ReachBy.refl, by decide, rfl, List.mem_singleton_self _⟩

/-- The client takes a byte of the server, and has a byte of its own acknowledged. -/
theorem window_sizes_byte :
    let s := (recvStep (.start ⟨clientIp, 5678⟩ ⟨serverIp, 1234⟩)
      (.segment 0 (serverSegment 1 [7]))).getD (.start ⟨clientIp, 5678⟩ ⟨serverIp, 1234⟩)
    let h := (exec sockStep clientHost [.append [7], .sendPass 0, .packet 5 (bareAck 2)]).getD
      clientHost
    RemainOk s.host.sock.wndRecv ∧ h.sock.wndSend.windowSize.toNat ≤ maxSwindowSize := by
  intro s h
  obtain ⟨-, hrecv, hsend⟩ := window_sizes ⟨clientIp, 5678⟩ ⟨serverIp, 1234⟩
  have hone : ReachBy recvStep SegmentsOnly (.start ⟨clientIp, 5678⟩ ⟨serverIp, 1234⟩) s :=
    .one (e := .segment 0 (serverSegment 1 [7])) (show getFlags _ = noFlag by decide) rfl
  refine ⟨(hrecv s hone).1, hsend h ?_⟩
  refine .of_along [.append [7], .sendPass 0, .packet 5 (bareAck 2)] ⟨?_, fun _ _ => ⟨?_, fun h₂ _ =>
    ⟨fun pkt hp => ⟨_, answers_byte, ?_⟩, fun _ _ => trivial⟩⟩⟩ (exec_getD (by decide +kernel) _)
  · exact fun pkt hp => by cases hp
  · exact fun pkt hp => by cases hp
  · simp only [ackOf, Option.ite_none_right_eq_some, Option.some.injEq] at hp
    rw [← hp.2]
    decide +kernel

end Tju
