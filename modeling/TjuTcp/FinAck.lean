/-
  The acknowledgement of a FIN.

  A side takes any ACK with the number `FIN_SEQ + 1` for the acknowledgement of
  its FIN, and `FIN_SEQ + 1` is also the number of an ACK of the handshake, and
  of an ACK for data while nothing has been received in order.  `FinClean` are
  the steps that send neither a FIN while such an ACK is still in flight, nor
  such an ACK while a FIN is out (`handleData_moves`).

  `finAcked_reached`: in a run of such steps a FIN counts as acknowledged only
  if the handler of the peer has taken it.
-/
import TjuTcp.Bounds
import TjuTcp.Teardown

namespace Tju

open Lib

/-- The FIN of the side counts as acknowledged. -/
def finAcked : State → Bool
  | .finWait2 | .timeWait | .closed => true
  | _ => false

/-- Behind the packet the next ACK does not have the number 1: something was received in order
    before, or the packet is the first piece of the stream and fits. -/
def MovesOn (sock : TjuTcp) (pkt : Buf) : Prop :=
  1 < sock.wndRecv.expectSeq.toNat ∧ sock.wndRecv.expectSeq.toNat + 2 ^ 16 ≤ 2 ^ 32 ∨
    sock.wndRecv.expectSeq = 1 ∧ getSeq pkt = 1 ∧ 0 < (payloadLen pkt).toNat ∧
      (payloadLen pkt).toNat < maxRwindowSize ∧ sock.receivedBuf = []

/-- The steps of a run in which no other ACK can be taken for the one of a FIN. -/
def FinClean (s : Conn) : ConnEv → Prop
  | .close x => (s.ep x).sock.state = .established → ¬ AckComing s x
  | .wake x => (s.ep x).sock.state = .closeWait → ¬ AckComing s x
  | .deliver x pkt _ _ => (s.ep x).sock.state = .established → getFlags pkt = noFlag →
      awaits (s.ep x.peer).sock.state = true → MovesOn (s.ep x).sock pkt
  | _ => True

/-- A FIN that counts as acknowledged, or is about to, was taken by the peer. -/
structure FinInv (s : Conn) : Prop where
  ctl : CtlInv s
  coming : ∀ x, awaits (s.ep x).sock.state = true → AckComing s x → s.finSeen x.peer = true
  acked : ∀ x, finAcked (s.ep x).sock.state = true → s.finSeen x.peer = true

variable {s s' : Conn} {x : Side} {e : ConnEv} {st : State} {fin : Option Buf} {out : List Buf}
  {b : Bool} {sock sock' : TjuTcp} {pkt : Buf} {w w' : ReceiverWindow}

/-! ## The number of the ACK for data -/

/-- A segment at the front of the window marks its first cell. -/
theorem putSegment_front (hp : putSegment w pkt = some w') (hseq : getSeq pkt = w.expectSeq)
    (hpos : 0 < (payloadLen pkt).toNat) (hfit : (payloadLen pkt).toNat < maxRwindowSize)
    (hone : w.expectSeq = 1) : w'.mark 0 ≠ 0 := by
  have hguard : getSeq pkt + (payloadLen pkt).setWidth 32 <
      w.expectSeq + BitVec.ofNat 32 maxRwindowSize := by
    rw [hseq, hone]
    simp only [maxRwindowSize, maxDlen] at hfit ⊢
    bv_omega
  have hcopied : Copied w pkt := ⟨by rw [hseq]; exact BitVec.le_refl _, hguard⟩
  obtain ⟨-, -, hmark⟩ := putSegment_bounds hcopied hp
  have hoff : copyOff w pkt = 0 := by unfold copyOff; rw [hseq]; omega
  rw [hmark, hoff, store_in (Nat.zero_le 0) (by rw [List.length_replicate]; exact hpos)]
  simp

/-- The number moves on by the length of the run that is delivered, which is not empty if the
    front is marked and there is room. -/
theorem slideWindow_expect (h : slideWindow sock = some sock') :
    ∃ k : BitVec 16, sock'.wndRecv.expectSeq = sock.wndRecv.expectSeq + k.setWidth 32 ∧
      (sock.wndRecv.mark 0 ≠ 0 → sock.receivedBuf = [] → k ≠ 0) := by
  cases slideWindow_cases h with
  | unmarked h0 => exact ⟨0, (BitVec.add_zero _).symm, fun h => absurd h0 h⟩
  | full rs h0 hk hfull =>
    refine ⟨0, (BitVec.add_zero _).symm, fun _ hempty => ?_⟩
    rw [hempty, List.length_nil] at hfull
    simp only [maxSockBufSize, maxLen] at hfull
    bv_omega
  | @delivered k rs h0 hk =>
    refine ⟨k, rfl, fun _ _ => ?_⟩
    -- the scan goes on behind a marked cell
    obtain ⟨j, hj, rfl⟩ := Option.map_eq_some_iff.1 hk
    obtain ⟨-, hlt, -, hstop⟩ := scan_eq_some hj
    have hne : j ≠ 0 := by
      rintro rfl
      exact h0 (by simpa using hstop)
    simp only [maxRwindowSize, maxDlen] at hlt
    bv_omega

theorem putSegment_expect (hp : putSegment w pkt = some w') : w'.expectSeq = w.expectSeq := by
  unfold putSegment at hp
  dsimp only at hp
  split_ifs at hp
  · obtain ⟨_, -, hp⟩ := Option.bind_eq_some_iff.1 hp
    obtain ⟨_, -, hp⟩ := Option.bind_eq_some_iff.1 hp
    obtain ⟨_, -, hp⟩ := Option.bind_eq_some_iff.1 hp
    cases hp; rfl
  · cases hp; rfl

/-- **The ACK for the packet does not have the number of the acknowledgement of a FIN.** -/
theorem handleData_moves (hm : MovesOn sock pkt) (h : handleData sock pkt = some (sock', out)) :
    sock'.wndRecv.expectSeq ≠ finSeq + 1 := by
  unfold handleData at h
  simp only [Option.bind_eq_bind] at h
  split_ifs at h with hge
  · obtain ⟨w, hw, h⟩ := Option.bind_eq_some_iff.1 h
    obtain ⟨t, ht, h⟩ := Option.bind_eq_some_iff.1 h
    cases h
    obtain ⟨k, hk, hk0⟩ := slideWindow_expect ht
    have hexp : w.expectSeq = sock.wndRecv.expectSeq := putSegment_expect hw
    rw [hk]
    show w.expectSeq + _ ≠ _
    rcases hm with ⟨h1, hwrap⟩ | ⟨h1, hseq, hpos, hfit, hempty⟩
    · rw [hexp]; simp only [finSeq]; bv_omega
    · have hmark := putSegment_front hw (by rw [hseq, h1]) hpos hfit h1
      have hne := hk0 hmark hempty
      rw [hexp, h1]; simp only [finSeq]; bv_omega
  · cases h
    rcases hm with ⟨h1, -⟩ | ⟨h1, hseq, -⟩
    · simp only [finSeq]; bv_omega
    · exact absurd (show getSeq pkt ≥ sock.wndRecv.expectSeq by rw [hseq, h1]; exact BitVec.le_refl _) hge

/-! ## One step -/

/-- A step that acknowledges a FIN takes it; in a clean run no other ACK has its number. -/
theorem CtlStep.ack_takes (hg : FinClean s e) (hst : CtlStep s x e st fin out b)
    (hpeer : awaits (s.ep x.peer).sock.state = true) {p : Buf} (hp : p ∈ out)
    (hf : getFlags p = ackFlagMask) (hn : getAck p = finSeq + 1) (hi : CtlInv s) : b = true := by
  have hfin : ∀ q, IsFin q → p ≠ q := fun q hq h => not_isFin_ack hf (h ▸ hq)
  cases hst with
  | quiet => cases hp
  | @dataAck pkt keep now sock hs _ hno hd =>
    rw [List.mem_singleton.1 hp, ackPacket_eq, getAck_wire] at hn
    exact absurd hn (handleData_moves (hg hs hno hpeer) hd)
  | finIn => rfl
  | closeStep _ _ hc =>
    generalize (s.ep x).sock.state = old at hc
    cases hc with
    | ignore => cases hp
    | finWait2 => cases hp
    | closing hin => rcases hin with hin | hin <;> rw [hin] <;> rfl
    | timeWait hin => rw [hin]; rfl
    | closed => cases hp
    | closingDone => cases hp
  | @close q _ hq =>
    exact absurd (List.mem_singleton.1 hp) (hfin q (hq ▸ (finPacket_isFin _ _ _ (Or.inr rfl)).1))
  | @resend q hq => exact absurd (List.mem_singleton.1 hp) (hfin q (hi.pending x q hq).1)
  | @finOut q _ hq =>
    exact absurd (List.mem_singleton.1 hp) (hfin q (hq ▸ (finPacket_isFin _ _ _ (Or.inl rfl)).1))
  | done => cases hp

/-- A side that waits after its step waited before, or no ACK with the number of its FIN is in
    flight to it. -/
theorem CtlStep.awaits_back (hg : FinClean s e) (hst : CtlStep s x e st fin out b)
    (ha : awaits st = true) : awaits (s.ep x).sock.state = true ∨ ¬ AckComing s x := by
  cases hst with
  | quiet => exact Or.inl ha
  | dataAck => cases ha
  | finIn => cases ha
  | closeStep _ _ hc =>
    generalize (s.ep x).sock.state = old at hc
    cases hc with
    | ignore => exact Or.inl ha
    | closing => exact Or.inl rfl
    | finWait2 => cases ha
    | timeWait => cases ha
    | closed => cases ha
    | closingDone => cases ha
  | close hs => exact Or.inr (hg hs)
  | resend => exact Or.inl ha
  | finOut hs => exact Or.inr (hg hs)
  | done => cases ha

/-- A FIN counts as acknowledged after the step only if it did before, or if such an ACK was in
    flight. -/
theorem CtlStep.acked_back (hst : CtlStep s x e st fin out b) (ha : finAcked st = true) :
    finAcked (s.ep x).sock.state = true ∨
      awaits (s.ep x).sock.state = true ∧ AckComing s x := by
  cases hst with
  | quiet => exact Or.inl ha
  | dataAck => cases ha
  | finIn => cases ha
  | @closeStep pkt _ _ _ _ _ hp hc =>
    generalize (s.ep x).sock.state = old at hc
    cases hc with
    | ignore => exact Or.inl ha
    | closing => cases ha
    | finWait2 hf hn => exact Or.inr ⟨rfl, pkt, hp, hf, hn⟩
    | timeWait => exact Or.inl rfl
    | closed hf hn => exact Or.inr ⟨rfl, pkt, hp, hf, hn⟩
    | closingDone hf hn => exact Or.inr ⟨rfl, pkt, hp, hf, hn⟩
  | close => cases ha
  | resend => exact Or.inl ha
  | finOut => cases ha
  | done hs => rw [hs]; exact Or.inl rfl

/-- **One clean step.** -/
theorem finInv_step (hi : FinInv s) (hg : FinClean s e) (he : connStep s e = some s') :
    FinInv s' := by
  obtain ⟨x, st, fin, out, b, hst, hv⟩ := connStep_ctl hi.ctl.notSynSent he
  have hseen : ∀ y, s.finSeen y = true → s'.finSeen y = true := fun y h => by
    rcases Side.eq_or_peer x y with rfl | rfl
    · rw [hv.finSeen, h]; rfl
    · rw [hv.finSeenPeer, h]
  refine ⟨ctlInv_step hi.ctl he, fun y ha hc => ?_, fun y ha => ?_⟩
  · rcases Side.eq_or_peer x y with rfl | rfl
    · -- the side of the step: the ACK was in flight before
      rw [hv.state] at ha
      obtain ⟨p, hp, hp'⟩ := hc
      have hcome : AckComing s y := ⟨p, hv.net p hp, hp'⟩
      rcases hst.awaits_back hg ha with hw | hno
      · exact hseen _ (hi.coming y hw hcome)
      · exact absurd hcome hno
    · -- its peer: the ACK was in flight before, or the step has sent it
      rw [hv.peer] at ha
      obtain ⟨p, hp, hf, hn⟩ := hc
      rcases hv.netPeer p hp with h | h | ⟨-, h⟩
      · exact hseen _ (hi.coming _ ha ⟨p, h, hf, hn⟩)
      · rw [Side.peer_peer, hv.finSeen, hst.ack_takes hg ha h hf hn hi.ctl, Bool.or_true]
      · rw [hf] at h; exact absurd h (by decide)
  · rcases Side.eq_or_peer x y with rfl | rfl
    · rw [hv.state] at ha
      rcases hst.acked_back ha with h | ⟨hw, hc⟩
      · exact hseen _ (hi.acked y h)
      · exact hseen _ (hi.coming y hw hc)
    · rw [hv.peer] at ha
      exact hseen _ (hi.acked _ ha)

/-! ## Runs -/

/-- **A FIN that counts as acknowledged was received.**  In every state reached by a clean run, a
    side in FIN_WAIT_2, TIME_WAIT or CLOSED has a peer whose handler has taken its FIN, and an ACK
    that a waiting side would take for the acknowledgement of its FIN is in flight only if that
    handler has taken it. -/
theorem finAcked_reached (client server : TjuSockAddr)
    (hr : ReachBy connStep FinClean (.start client server (handshake client server)) s) (x : Side) :
    (finAcked (s.ep x).sock.state = true → s.finSeen x.peer = true) ∧
      (awaits (s.ep x).sock.state = true → AckComing s x → s.finSeen x.peer = true) := by
  have hstart : FinInv (.start client server (handshake client server)) := by
    refine ⟨ctlInv_start (handshake_not_isFin client server), fun y ha => ?_, fun y ha => ?_⟩ <;>
      cases y <;> cases ha
  have hi : FinInv s := hr.inv hstart fun _ _ _ hi hg he => finInv_step hi hg he
  exact ⟨hi.acked x, hi.coming x⟩

/-- The client closes, the server takes the FIN, and its acknowledgement arrives. -/
def closeAcked : List ConnEv :=
  [.close .client,
    .deliver .server (finPacket clientHost.sock 0 finFlagMask) false 0,
    .deliver .client (replyAck (finPacket clientHost.sock 0 finFlagMask) 0) false 0]

theorem finAcked_reached_closeAcked :
    let s := (exec connStep freshConn closeAcked).getD freshConn
    (finAcked (s.ep .client).sock.state = true → s.finSeen .server = true) ∧
      (awaits (s.ep .client).sock.state = true → AckComing s .client → s.finSeen .server = true) := by
  refine finAcked_reached ⟨clientIp, 5678⟩ ⟨serverIp, 1234⟩ (.of_along closeAcked ?_ rfl) .client
  refine ⟨fun _ => ?_, fun s1 h1 => ⟨?_, fun s2 h2 => ⟨?_, fun s3 h3 => trivial⟩⟩⟩
  · -- only the SYN|ACK is in flight to the client
    rintro ⟨p, hp, hf, -⟩
    change p ∈ handshake _ _ .client at hp
    rw [List.mem_singleton.1 hp, synAckPacket_flags] at hf
    exact absurd hf (by decide)
  · intro _ h
    exact absurd h (by decide)
  · cases h1; cases h2
    intro h
    exact absurd h (by decide)

/-- The acknowledgement of the handshake is delivered once more after the server has closed: it is
    taken for the one of the FIN, which the client has not received. -/
theorem finAcked_broken : ¬ ∀ s, Reach connStep freshConn s →
    ∀ x, finAcked (s.ep x).sock.state = true → s.finSeen x.peer = true := by
  intro h
  have hrun := h _ (.of_exec [.close .server,
    .deliver .server (replyAck (synAckPacket (synPacket 5678 1234)) 1) true 0] rfl) .server
  exact absurd (hrun rfl) (by decide)

end Tju
