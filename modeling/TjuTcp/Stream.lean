/-
  The byte stream of a connection.

  `FlowAll` is the relation of `TjuTcp.Flow` in both directions at once.  Every
  step of the connection keeps it (`flowAll_step`), in every order of sends,
  retransmissions, probes, losses, duplicates and stale ACKs, and also while
  the connection closes.

  `stream_reached`: in every reachable state, what a side has been given is the
  front of what its peer has appended, and the cursors of both sides lie where
  the stream says.
-/
import TjuTcp.Control

namespace Tju

open Lib

/-- Both directions are in order. -/
def FlowAll (s : Conn) : Prop :=
  ∀ x, Flow (s.ep x).sock (s.ep x.peer).sock (s.sent x) (s.read x.peer) (s.net x.peer) (s.net x)

/-- The streams of both sides are short enough. -/
def ShortAll (s : Conn) : Prop := ∀ x, Short (s.sent x)

variable {s s' : Conn} {x : Side} {h : Host} {out : List Buf} {snt rd : List Byte} {pkt : Buf}

/-! ## Combining the directions -/

theorem FlowAll.back (hf : FlowAll s) (x : Side) : Flow (s.ep x.peer).sock (s.ep x).sock
    (s.sent x.peer) (s.read x) (s.net x) (s.net x.peer) := by
  have := hf x.peer
  rwa [Side.peer_peer] at this

theorem FlowAll.put (h1 : Flow h.sock (s.ep x.peer).sock (s.sent x ++ snt) (s.read x.peer)
      (s.net x.peer ++ out) (s.net x))
    (h2 : Flow (s.ep x.peer).sock h.sock (s.sent x.peer) (s.read x ++ rd) (s.net x)
      (s.net x.peer ++ out)) : FlowAll (s.put x h out snt rd) := by
  intro y
  rcases Side.eq_or_peer x y with rfl | rfl
  · simpa using h1
  · simpa using h2

theorem FlowAll.consume (hf : FlowAll s) (x : Side) (pkt : Buf) (keep : Bool) :
    FlowAll (s.consume x pkt keep) := fun y => by
  simp only [Conn.consume_ep, Conn.consume_sent, Conn.consume_read]
  exact (hf y).packets (fun p hp => Or.inl (Conn.mem_consume hp))
    fun p hp => Or.inl (Conn.mem_consume hp)

theorem Flow.one_le {snd rcv : TjuTcp} {S read : List Byte} {fwd back : List Buf}
    (hf : Flow snd rcv S read fwd back) : 1 ≤ rcv.wndRecv.expectSeq.toNat := by
  obtain ⟨r, h1, -, -⟩ := hf.recv
  rw [h1.win.expect, h1.inv.next]; omega

/-- The packets of the sending half leave the other direction as it is. -/
theorem Flow.dataOut {snd rcv rcv' : TjuTcp} {S read : List Byte} {fwd back : List Buf}
    (hf : Flow snd rcv S read fwd back) (hr : SameRest rcv rcv')
    (hout : ∀ p ∈ out, getFlags p = noFlag) : Flow snd rcv' S read fwd (back ++ out) :=
  (hf.receiver hr.wndRecv hr.receivedBuf).packets (fun _ hp => Or.inl hp) fun p hp =>
    (List.mem_append.1 hp).imp_right fun h => Or.inl (by rw [hout p h]; decide)

/-- A step that moves no cursor and sends control packets only, with 1 as the number of an ACK. -/
theorem FlowAll.control (hf : FlowAll s) (hcur : SameCursors (s.ep x).sock h.sock)
    (hw : h.sock.wndRecv = (s.ep x).sock.wndRecv)
    (hb : h.sock.receivedBuf = (s.ep x).sock.receivedBuf)
    (hout : ∀ p ∈ out, getFlags p ≠ noFlag ∧ (getFlags p ≠ ackFlagMask ∨ getAck p = 1)) :
    FlowAll (s.put x h out [] []) := by
  refine FlowAll.put ?_ ?_
  · rw [List.append_nil]
    exact ((hf x).sender hcur).packets
      (fun p hp => (List.mem_append.1 hp).imp_right fun h => (hout p h).1) fun p hp => Or.inl hp
  · rw [List.append_nil]
    have hf' := (hf.back x).receiver hw hb
    refine hf'.packets (fun p hp => Or.inl hp) fun p hp => ?_
    refine (List.mem_append.1 hp).imp_right fun h => (hout p h).2.imp_right fun hack => ?_
    rw [hack]; exact hf'.one_le

/-! ## One step -/

theorem replyAck_control (hi : CtlInv s) (hp : pkt ∈ s.net x) (hf : IsFin pkt) (seq : BitVec 32) :
    getFlags (replyAck pkt seq) ≠ noFlag ∧
      (getFlags (replyAck pkt seq) ≠ ackFlagMask ∨ getAck (replyAck pkt seq) = 1) := by
  rw [replyAck_flags, replyAck_eq, getAck_wire, hi.fins x pkt hp hf]
  exact ⟨by decide, Or.inr rfl⟩

theorem isFin_control {p : Buf} (hf : IsFin p) :
    getFlags p ≠ noFlag ∧ (getFlags p ≠ ackFlagMask ∨ getAck p = 1) :=
  ⟨fun h => not_isFin_data h hf, Or.inl fun h => not_isFin_ack h hf⟩

/-- The handler is defined on every packet in flight, and keeps both directions in order. -/
theorem FlowAll.handle (hi : CtlInv s) (hf : FlowAll s) (hS : ShortAll s) (hp : pkt ∈ s.net x)
    (now : ℕ) : ∃ r, tjuHandlePacket now (s.ep x) pkt = some r ∧
      FlowAll (s.put x r.1 r.2 [] []) := by
  by_cases hs : (s.ep x).sock.state = .established
  · by_cases h1 : getFlags pkt = finFlagMask
    · refine ⟨_, handle_fin hs h1, hf.control ⟨rfl, rfl, rfl, rfl, rfl⟩ rfl rfl fun p hm => ?_⟩
      rw [List.mem_singleton.1 hm]
      exact replyAck_control hi hp (Or.inr h1) _
    · by_cases h2 : getFlags pkt = noFlag
      · obtain ⟨sock, hd, hf'⟩ := (hf.back x).dataCall (hS _) hp h2
        refine ⟨_, by rw [handle_data hs h2, hd]; rfl, FlowAll.put ?_ ?_⟩
        · rw [List.append_nil]
          have hcur : SameCursors (s.ep x).sock sock := by
            rw [(handleData_frame hd).1]; exact ⟨rfl, rfl, rfl, rfl, rfl⟩
          refine ((hf x).sender hcur).packets (fun p hm => ?_) fun p hm => Or.inl hm
          refine (List.mem_append.1 hm).imp_right fun hm => ?_
          rw [List.mem_singleton.1 hm, ackPacket_flags]; decide
        · rw [List.append_nil]; exact hf'
      · by_cases h3 : getFlags pkt = ackFlagMask
        · obtain ⟨h', ha, hrest, hf'⟩ := (hf x).ackCall now (hS x) hp h3
          refine ⟨_, by rw [handle_ack hs h3, ha]; rfl, FlowAll.put ?_ ?_⟩
          · rw [List.append_nil, List.append_nil]; exact hf'
          · rw [List.append_nil, List.append_nil]
            exact (hf.back x).receiver hrest.wndRecv hrest.receivedBuf
        · exact ⟨_, handle_other hs h1 h2 h3,
            hf.control (SameCursors.refl _) rfl rfl fun p hm => by cases hm⟩
  · -- a closing connection only changes its state
    have hdef : ∃ r, tjuHandlePacket now (s.ep x) pkt = some r := by
      unfold tjuHandlePacket
      cases hst : (s.ep x).sock.state <;> simp only [hst] at hs ⊢
      case established => exact absurd trivial hs
      all_goals first | exact ⟨_, rfl⟩ | (split_ifs <;> exact ⟨_, rfl⟩)
    obtain ⟨⟨h', out⟩, he⟩ := hdef
    obtain ⟨st, rfl, hstep⟩ := handle_closeStep hs (hi.notSynSent x) he
    refine ⟨_, he, hf.control ⟨rfl, rfl, rfl, rfl, rfl⟩ rfl rfl fun p hm => ?_⟩
    obtain ⟨seq, rfl, hfin⟩ := hstep.acks p hm
    exact replyAck_control hi hp hfin seq

/-- `retrans_thread` is defined, and keeps both directions in order. -/
theorem FlowAll.retrans (hf : FlowAll s) (hS : ShortAll s) (x : Side) :
    ∃ r, retransThread (s.ep x) = some r ∧ FlowAll (s.put x r.1 r.2 [] []) := by
  obtain ⟨h', out, he, hf'⟩ := (hf x).retransPass (hS x)
  refine ⟨_, he, FlowAll.put ?_ ?_⟩
  · rw [List.append_nil]; exact hf'
  · rw [List.append_nil]
    exact (hf.back x).dataOut (retransThread_rest he) (retransThread_flags he)

/-- Streams only grow. -/
theorem sent_mono {e : ConnEv} (he : connStep s e = some s') (y : Side) :
    (s.sent y).length ≤ (s'.sent y).length := by
  have hput : ∀ x h out snt rd, (s.sent y).length ≤ ((s.put x h out snt rd).sent y).length := by
    intro x h out snt rd
    rcases Side.eq_or_peer x y with rfl | rfl <;> simp
  cases connStep_move he with
  | @deliver x => simpa using hput x _ _ _ _
  | lose => simp
  | _ => exact hput ..

theorem ShortAll.back {e : ConnEv} (hS : ShortAll s') (he : connStep s e = some s') :
    ShortAll s := fun y => Nat.lt_of_le_of_lt (sent_mono he y) (hS y)

/-- **One step keeps both directions in order.** -/
theorem flowAll_step {e : ConnEv} (hi : CtlInv s) (hf : FlowAll s) (hS : ShortAll s')
    (he : connStep s e = some s') : FlowAll s' := by
  have hS₀ := hS.back he
  have hnil : ∀ p ∈ ([] : List Buf), getFlags p ≠ noFlag ∧
      (getFlags p ≠ ackFlagMask ∨ getAck p = 1) := fun p hp => by cases hp
  have hone : ∀ {q : Buf}, IsFin q → ∀ p ∈ [q], getFlags p ≠ noFlag ∧
      (getFlags p ≠ ackFlagMask ∨ getAck p = 1) := fun hq p hp => by
    rw [List.mem_singleton.1 hp]; exact isFin_control hq
  cases connStep_move he with
  | @append x data sock _ ha =>
    have hSx : Short (s.sent x ++ data) := by simpa using hS x
    refine FlowAll.put ?_ ?_
    · rw [List.append_nil]; exact (hf x).append hSx ha
    · rw [List.append_nil, List.append_nil]
      obtain ⟨-, rfl⟩ := appendData_eq_some ha
      exact (hf.back x).receiver rfl rfl
  | @sendPass x now =>
    refine FlowAll.put ?_ ?_
    · rw [List.append_nil]; exact (hf x).sendPass (hS₀ x)
    · rw [List.append_nil]
      exact (hf.back x).dataOut (sendingThread_rest now _) (sendingThread_flags now _)
  | @retransPass x h out ht =>
    obtain ⟨r, hr, hf'⟩ := hf.retrans hS₀ x
    rw [ht] at hr
    cases hr
    exact hf'
  | alarm => exact hf.control ⟨rfl, rfl, rfl, rfl, rfl⟩ rfl rfl hnil
  | @deliver x pkt keep now h out hp _ ht =>
    obtain ⟨r, hr, hf'⟩ := hf.handle hi hS₀ hp now
    rw [ht] at hr
    cases hr
    exact hf'.consume x pkt keep
  | lose => exact hf.consume _ _ _
  | @recv x len sock bytes _ hr =>
    refine FlowAll.put ?_ ?_
    · rw [List.append_nil, List.append_nil]
      obtain ⟨-, rfl, -⟩ := tjuRecv_eq_some hr
      exact (hf x).sender ⟨rfl, rfl, rfl, rfl, rfl⟩
    · rw [List.append_nil]; exact (hf.back x).recvCall hr
  | close =>
    exact hf.control ⟨rfl, rfl, rfl, rfl, rfl⟩ rfl rfl (hone (finPacket_isFin _ _ _ (Or.inr rfl)).1)
  | closeAgain => exact hf.control (SameCursors.refl _) rfl rfl hnil
  | @resend x p hp => exact hf.control (SameCursors.refl _) rfl rfl (hone (hi.pending x p hp).1)
  | silent => exact hf.control (SameCursors.refl _) rfl rfl hnil
  | finOut =>
    exact hf.control ⟨rfl, rfl, rfl, rfl, rfl⟩ rfl rfl (hone (finPacket_isFin _ _ _ (Or.inl rfl)).1)
  | done => exact hf.control ⟨rfl, rfl, rfl, rfl, rfl⟩ rfl rfl hnil

/-! ## Runs -/

/-- A connection starts with both directions in order, if no data packet is in flight and every
    ACK is for the number 1. -/
theorem flowAll_start {client server : TjuSockAddr} {net : Side → List Buf}
    (hnet : ∀ x, ∀ p ∈ net x, getFlags p ≠ noFlag ∧ (getFlags p = ackFlagMask → getAck p = 1)) :
    FlowAll (.start client server net) := by
  have hflow : ∀ a b c d : TjuSockAddr, ∀ x, Flow (establishedHost a b).sock
      (establishedHost c d).sock [] [] (net x.peer) (net x) := fun a b c d x => by
    refine ⟨⟨establishedHost_cursors a b, 0, by simp, rfl, rfl⟩,
      ⟨Reasm.start 1, ⟨tjuSocket_refines.inv, tjuSocket_refines.win, rfl, rfl⟩,
        Reasm.start_agrees 1 _, le_rfl⟩, fun p hp hn => absurd hn (hnet _ p hp).1, fun p hp hn => ?_⟩
    rw [(hnet x p hp).2 hn]; exact le_rfl
  intro x
  cases x
  · exact hflow client server server client .client
  · exact hflow server client client server .server

theorem handshake_quiet (client server : TjuSockAddr) (x : Side) : ∀ p ∈ handshake client server x,
    getFlags p ≠ noFlag ∧ (getFlags p = ackFlagMask → getAck p = 1) := by
  intro p hp
  cases x <;> simp only [handshake, List.mem_cons, List.not_mem_nil, or_false] at hp
  · subst hp
    rw [synAckPacket_flags]
    exact ⟨by decide, fun h => absurd h (by decide)⟩
  · rcases hp with rfl | rfl
    · rw [synPacket_flags]
      exact ⟨by decide, fun h => absurd h (by decide)⟩
    · rw [replyAck_flags, replyAck_eq, getAck_wire, synAckPacket_eq, getSeq_wire]
      exact ⟨by decide, fun _ => rfl⟩

/-- **A run keeps both directions in order**, whatever is lost, repeated or reordered. -/
theorem flowAll_reached {client server : TjuSockAddr}
    (hr : Reach connStep (.start client server (handshake client server)) s) :
    CtlInv s ∧ (ShortAll s → FlowAll s) :=
  hr.inv (I := fun s => CtlInv s ∧ (ShortAll s → FlowAll s))
    ⟨ctlInv_start (handshake_not_isFin client server),
      fun _ => flowAll_start (handshake_quiet client server)⟩
    fun _ _ _ hi _ he => ⟨ctlInv_step hi.1 he,
      fun hS => flowAll_step hi.1 (hi.2 (hS.back he)) hS he⟩

/-- What the peer of `x` was given, and where the cursors of the direction from `x` lie. -/
structure Delivered (s : Conn) (x : Side) : Prop where
  front : s.read x.peer ++ (s.ep x.peer).sock.receivedBuf =
    (s.sent x).take ((s.ep x.peer).sock.wndRecv.expectSeq.toNat - 1)
  length : (s.read x.peer ++ (s.ep x.peer).sock.receivedBuf).length =
    (s.ep x.peer).sock.wndRecv.expectSeq.toNat - 1
  expect : 1 ≤ (s.ep x.peer).sock.wndRecv.expectSeq.toNat
  base_le : (s.ep x).sock.wndSend.base.toNat ≤ (s.ep x.peer).sock.wndRecv.expectSeq.toNat
  expect_le : (s.ep x.peer).sock.wndRecv.expectSeq.toNat ≤ (s.ep x).sock.wndSend.nextseq.toNat
  unacked : (s.ep x).sock.sendingBuf.drop (s.ep x).sock.wndSend.ackCnt.toNat =
    (s.sent x).drop ((s.ep x).sock.wndSend.base.toNat - 1)

theorem FlowAll.delivered (hf : FlowAll s) (hS : ShortAll s) (x : Side) : Delivered s x := by
  obtain ⟨h1, h2, h3, h4, h5, h6⟩ := (hf x).stream (hS x)
  exact ⟨h1, h2, h3, h4, h5, h6⟩

/-- **The byte stream, end to end.**  In every reachable state of a connection whose streams are
    short, each side was given the front of the stream of its peer, up to `expect_seq`, which lies
    in the send window of the peer; and every step of the threads and of the handler is defined. -/
theorem stream_reached (client server : TjuSockAddr)
    (hr : Reach connStep (.start client server (handshake client server)) s) (hS : ShortAll s) :
    (∀ x, Delivered s x) ∧ (∀ x, (retransThread (s.ep x)).isSome) ∧
      ∀ x, ∀ pkt ∈ s.net x, ∀ now, (tjuHandlePacket now (s.ep x) pkt).isSome := by
  obtain ⟨hi, hf⟩ := flowAll_reached hr
  refine ⟨fun x => (hf hS).delivered hS x, fun x => ?_, fun x pkt hp now => ?_⟩
  · obtain ⟨r, h, -⟩ := (hf hS).retrans hS x
    rw [h]; rfl
  · obtain ⟨r, h, -⟩ := (hf hS).handle hi hS hp now
    rw [h]; rfl

/-- The client appends and sends one byte, and the server receives it. -/
def oneByte : List ConnEv :=
  [.append .client [7], .sendPass .client 0,
    .deliver .server (dataPacket clientHost.sock 1 [7]) false 0]

theorem stream_reached_oneByte :
    let s := (exec connStep freshConn oneByte).getD freshConn
    (∀ x, Delivered s x) ∧ (∀ x, (retransThread (s.ep x)).isSome) ∧
      ∀ x, ∀ pkt ∈ s.net x, ∀ now, (tjuHandlePacket now (s.ep x) pkt).isSome :=
  stream_reached ⟨clientIp, 5678⟩ ⟨serverIp, 1234⟩ (.of_exec oneByte rfl)
    (by intro x; cases x <;> decide)

end Tju
