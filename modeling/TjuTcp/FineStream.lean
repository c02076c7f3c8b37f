/-
  The byte stream, statement by statement.

  `Proc.view` is the socket of a process as its threads will leave it: with the
  bytes that are sent but not counted, and with the ACK that is counted but not
  stored.  Seen so, a direction of a connection is a `Flow` after every
  statement.  Between an ACK's arrival and its second update the handler holds
  its number as if the ACK were still in flight (`HandleAt.pending`).

  * `fineInv_step`: one statement, one packet, or one call;
  * `fine_stream`: in every run in which no pass of `retrans_thread` reads the
    fields of two different ACKs, each application is given the front of what
    the other one appended;
  * `fine_stream_broken`: without this condition it is given other bytes.
-/
import TjuTcp.Fine
import TjuTcp.Lib.Simulation

namespace Tju

open Lib

/-- The socket as the threads of the process will leave it. -/
def Proc.view (p : Proc) : TjuTcp :=
  { p.host.sock with
    haveSendLen := p.sentLen
    wndSend := { p.host.sock.wndSend with base := .ofNat 32 (1 + p.ackPos), nextseq := p.sentSeq } }

/-- The ACK that the handler has not stored yet. -/
def HandleAt.pending : HandleAt → List Buf
  | slideAck ack | slideBase ack => [bareAck ack]
  | _ => []

/-- The connection of the two sockets. -/
def FineConn.conn (s : FineConn) : Conn where
  ep x := (s.proc x).host
  net := s.net
  sent x := (s.proc x).stream
  read := s.read
  finSeen _ := false

/-- Both directions are in order. -/
def FineFlow (s : FineConn) : Prop :=
  ∀ x, Flow (s.proc x).view (s.proc x.peer).host.sock (s.proc x).stream (s.read x.peer)
    (s.net x.peer) (s.net x ++ (s.proc x).handler.pending)

structure FineInv (s : FineConn) : Prop where
  seg : ∀ x, SegInv (s.proc x)
  ctl : CtlInv s.conn
  flow : FineFlow s

/-- The streams of both sides are short enough. -/
def FineShort (s : FineConn) : Prop := ∀ x, Short (s.proc x).stream

variable {p p' : Proc} {e : ProcEv} {now : ℕ} {free : Bool} {h h' : Host} {out : List Buf}
  {pkt : Buf} {s s' : FineConn} {x y : Side} {rd : List Byte} {keep : Bool} {c : Conn}
  {rcv : TjuTcp} {read : List Byte} {fwd bwd : List Buf}

/-! ## The socket as the threads will leave it -/

theorem view_base (hi : ProcInv p) (hS : Short p.stream) :
    p.view.wndSend.base.toNat = 1 + p.ackPos := by
  have hle := hi.ackPos_le.trans hi.sentPos_le
  simp only [Short, maxRwindowSize, maxDlen] at hS
  show (BitVec.ofNat 32 (1 + p.ackPos)).toNat = _
  rw [BitVec.toNat_ofNat]
  omega

theorem view_sendRel (hi : ProcInv p) (hS : Short p.stream) : SendRel p.view p.stream where
  cursors := by
    have hack := hi.ack_le
    have hfits := hi.fits
    refine ⟨?_, ?_, hi.len_le, ?_⟩
    · show (p.host.sock.wndSend.ackCnt.toNat : ℤ) ≤ (p.sentLen : ℤ)
      omega
    · show (p.sentLen : ℤ) ≤ (p.host.sock.sendingBuf.length : ℤ)
      omega
    · show p.sentSeq - BitVec.ofNat 32 (1 + p.ackPos) =
        BitVec.ofInt 32 (p.sentLen : ℤ) - p.host.sock.wndSend.ackCnt
      rw [hi.sentSeq]
      unfold Proc.ackPos
      bv_omega
  buf := ⟨p.dropped, hi.dropped_le, hi.stream, by
    rw [view_base hi hS]
    unfold Proc.ackPos
    rw [Nat.add_assoc]
    rfl⟩

theorem transmitted_view (hi : ProcInv p) (hS : Short p.stream) :
    transmitted p.view p.stream = p.stream.take p.sentPos := by
  have hn : p.view.wndSend.nextseq.toNat = 1 + p.sentPos := hi.sentSeq_toNat hS
  rw [transmitted, hn, Nat.add_sub_cancel_left]

/-- **A process moves on** in its stream. -/
theorem Flow.moved (hf : Flow p.view rcv p.stream read fwd bwd) (hi : ProcInv p)
    (hi' : ProcInv p') (hS : Short p'.stream) {D : List Byte} (hD : p'.stream = p.stream ++ D)
    (hsent : p.sentPos ≤ p'.sentPos) (hack : p.ackPos ≤ p'.ackPos)
    (hle : 1 + p'.ackPos ≤ rcv.wndRecv.expectSeq.toNat) :
    Flow p'.view rcv p'.stream read fwd bwd := by
  have hS₀ : Short p.stream := by
    rw [hD] at hS
    simp only [Short, List.length_append] at hS ⊢
    omega
  refine hf.advance (U := (p'.stream.drop p.sentPos).take (p'.sentPos - p.sentPos))
    (view_sendRel hi' hS) ?_ ?_ ?_
  · rw [transmitted_view hi hS₀, transmitted_view hi' hS]
    have hpos := hi.sentPos_le
    have hold : p.stream.take p.sentPos = p'.stream.take p.sentPos := by
      rw [hD, List.take_append_of_le_length hpos]
    rw [hold, ← List.take_add]
    congr 1
    omega
  · rw [view_base hi hS₀, view_base hi' hS]
    omega
  · rw [view_base hi' hS]
    exact hle

/-! ## What the other half of the socket sees -/

theorem sendAtStep_rest {pc pc' : SendAt} (he : sendAtStep now free h pc = some (h', pc', out)) :
    SameRest h.sock h'.sock := by
  cases pc with
  | idle =>
    obtain ⟨smp, -, hr⟩ := Option.map_eq_some_iff.1 he
    cases hr
    exact SameRest.refl _
  | sampled smp =>
    simp only [sendAtStep] at he
    split_ifs at he
    cases he
    exact SameRest.refl _
  | loop v =>
    simp only [sendAtStep] at he
    split_ifs at he <;> cases he <;> exact ⟨rfl, rfl, rfl, rfl, rfl, rfl⟩
  | sent | start | mark | count =>
    cases he
    exact ⟨rfl, rfl, rfl, rfl, rfl, rfl⟩

theorem retransAtStep_rest {pc pc' : RetransAt}
    (he : retransAtStep free h pc = some (h', pc', out)) : SameRest h.sock h'.sock := by
  cases pc <;> simp only [retransAtStep] at he <;> (try split_ifs at he) <;> cases he <;>
    exact ⟨rfl, rfl, rfl, rfl, rfl, rfl⟩

theorem handleAtStep_rest {pc pc' : HandleAt} (he : handleAtStep free h pc = some (h', pc')) :
    SameRest h.sock h'.sock := by
  cases pc with
  | idle => cases he
  | clean =>
    simp only [handleAtStep] at he
    split_ifs at he
    obtain ⟨sock, hd, hr⟩ := Option.map_eq_some_iff.1 he
    cases hr
    obtain ⟨-, rfl⟩ := dropAcked_eq_some hd
    exact ⟨rfl, rfl, rfl, rfl, rfl, rfl⟩
  | _ =>
    cases he
    exact ⟨rfl, rfl, rfl, rfl, rfl, rfl⟩

theorem ackArrives_rest (now : ℕ) (h : Host) (pkt : Buf) :
    SameRest h.sock (ackArrives now h pkt).1.sock := by
  unfold ackArrives
  dsimp only
  split_ifs <;> exact ⟨rfl, rfl, rfl, rfl, rfl, rfl⟩

/-- The threads leave the receiving half and the state as they are. -/
theorem procStep_rest (he : procStep p e = some p') (hm : mayMove p e = true) :
    SameRest p.host.sock p'.host.sock := by
  cases e with
  | send now =>
    obtain ⟨⟨h, pc, out⟩, hk, rfl⟩ := Option.map_eq_some_iff.1 he
    exact sendAtStep_rest hk
  | retrans =>
    obtain ⟨⟨h, pc, out⟩, hk, rfl⟩ := Option.map_eq_some_iff.1 he
    exact retransAtStep_rest hk
  | handle =>
    obtain ⟨⟨h, pc⟩, hk, rfl⟩ := Option.map_eq_some_iff.1 he
    exact handleAtStep_rest hk
  | packet now pkt => cases hm
  | alarm =>
    simp only [procStep] at he
    split_ifs at he
    cases he
    exact SameRest.refl _
  | append data =>
    simp only [procStep] at he
    split_ifs at he
    obtain ⟨sock, ha, rfl⟩ := Option.map_eq_some_iff.1 he
    obtain ⟨-, rfl⟩ := appendData_eq_some ha
    exact ⟨rfl, rfl, rfl, rfl, rfl, rfl⟩

/-- What is appended stands behind the stream. -/
theorem procStep_stream (he : procStep p e = some p') : ∃ D, p'.stream = p.stream ++ D := by
  have hsame : p'.stream = p.stream → ∃ D, p'.stream = p.stream ++ D := fun h =>
    ⟨[], by rw [h, List.append_nil]⟩
  cases e with
  | send now =>
    obtain ⟨⟨h, pc, out⟩, hk, rfl⟩ := Option.map_eq_some_iff.1 he
    exact hsame rfl
  | retrans =>
    obtain ⟨⟨h, pc, out⟩, hk, rfl⟩ := Option.map_eq_some_iff.1 he
    exact hsame rfl
  | handle => exact hsame (handle_cases he).1.stream
  | packet now pkt => exact hsame (by rw [(packet_cases he).2.1])
  | alarm =>
    simp only [procStep] at he
    split_ifs at he
    cases he
    exact hsame rfl
  | append data =>
    simp only [procStep] at he
    split_ifs at he
    obtain ⟨sock, ha, rfl⟩ := Option.map_eq_some_iff.1 he
    exact ⟨data, rfl⟩

theorem HandleAt.pending_plain {pc : HandleAt} (hp : pc.plain = true) : pc.pending = [] := by
  cases pc <;> first | rfl | cases hp

/-- The handler holds only ACKs that have arrived. -/
theorem procStep_pending (he : procStep p e = some p') (hm : mayMove p e = true) :
    ∀ q ∈ p'.handler.pending, q ∈ p.handler.pending := by
  intro q hq
  cases e with
  | send now =>
    obtain ⟨⟨h, pc, out⟩, hk, rfl⟩ := Option.map_eq_some_iff.1 he
    exact hq
  | retrans =>
    obtain ⟨⟨h, pc, out⟩, hk, rfl⟩ := Option.map_eq_some_iff.1 he
    exact hq
  | handle =>
    obtain ⟨-, hmv⟩ := handle_cases he
    cases hmv with
    | same _ hp' =>
      rw [HandleAt.pending_plain hp'] at hq
      cases hq
    | slideAck ack hp hp' =>
      rw [hp'] at hq
      rw [hp]
      exact hq
    | slideBase _ _ hp' | clean _ hp' =>
      rw [hp'] at hq
      cases hq
  | packet now pkt => cases hm
  | alarm =>
    simp only [procStep] at he
    split_ifs at he
    cases he
    exact hq
  | append data =>
    simp only [procStep] at he
    split_ifs at he
    obtain ⟨sock, ha, rfl⟩ := Option.map_eq_some_iff.1 he
    exact hq

/-! ## Putting the sides together -/

theorem FineConn.put_conn {snt : List Byte} (hs : p.stream = (s.proc x).stream ++ snt) :
    (s.put x p out rd).conn = s.conn.put x p.host out snt rd := by
  have hep : (fun y => (Function.update s.proc x p y).host) =
      Function.update (fun y => (s.proc y).host) x p.host := by
    funext y
    simp only [Function.update_apply]
    split_ifs <;> rfl
  have hsent : (fun y => (Function.update s.proc x p y).stream) =
      Function.update (fun y => (s.proc y).stream) x ((s.proc x).stream ++ snt) := by
    funext y
    simp only [Function.update_apply]
    split_ifs
    · exact hs
    · rfl
  simp only [FineConn.conn, FineConn.put, Conn.put, hep, hsent]

theorem FineFlow.back (hf : FineFlow s) (x : Side) :
    Flow (s.proc x.peer).view (s.proc x).host.sock (s.proc x.peer).stream (s.read x) (s.net x)
      (s.net x.peer ++ (s.proc x.peer).handler.pending) := by
  have h := hf x.peer
  rwa [Side.peer_peer] at h

theorem FineFlow.put (h1 : Flow p.view (s.proc x.peer).host.sock p.stream (s.read x.peer)
      (s.net x.peer ++ out) (s.net x ++ p.handler.pending))
    (h2 : Flow (s.proc x.peer).view p.host.sock (s.proc x.peer).stream (s.read x ++ rd) (s.net x)
      ((s.net x.peer ++ out) ++ (s.proc x.peer).handler.pending)) :
    FineFlow (s.put x p out rd) := by
  intro y
  rcases Side.eq_or_peer x y with rfl | rfl
  · simpa [FineConn.put] using h1
  · simpa [FineConn.put] using h2

theorem FineConn.mem_consume {q : Buf} (hq : q ∈ (s.consume x pkt keep).net y) : q ∈ s.net y := by
  unfold FineConn.consume at hq
  split_ifs at hq
  · exact hq
  · by_cases hy : y = x
    · subst hy
      simp only [Function.update_self] at hq
      exact List.mem_of_mem_erase hq
    · simpa only [Function.update_of_ne hy] using hq

theorem FineConn.consume_proc : (s.consume x pkt keep).proc = s.proc := by
  unfold FineConn.consume
  split_ifs <;> rfl

theorem FineConn.consume_read : (s.consume x pkt keep).read = s.read := by
  unfold FineConn.consume
  split_ifs <;> rfl

theorem FineInv.consume (hi : FineInv s) (x : Side) (pkt : Buf) (keep : Bool) :
    FineInv (s.consume x pkt keep) where
  seg y := by
    rw [FineConn.consume_proc]
    exact hi.seg y
  ctl := by
    refine ⟨fun y => ?_, fun y q hq hf => hi.ctl.fins y q (FineConn.mem_consume hq) hf,
      fun y q hq => ?_⟩
    · have h := hi.ctl.opened y
      simp only [FineConn.conn, FineConn.consume_proc] at h ⊢
      exact h
    · simp only [FineConn.conn, FineConn.consume_proc] at hq
      exact hi.ctl.pending y q hq
  flow y := by
    rw [FineConn.consume_proc, FineConn.consume_read]
    refine (hi.flow y).packets (fun q hq => Or.inl (FineConn.mem_consume hq)) fun q hq => ?_
    rcases List.mem_append.1 hq with hq | hq
    · exact Or.inl (List.mem_append_left _ (FineConn.mem_consume hq))
    · exact Or.inl (List.mem_append_right _ hq)

/-- A step of the threads changes no state, and sends data only. -/
theorem CtlInv.sameRest {snt : List Byte} (hi : CtlInv c) (hr : SameRest (c.ep x).sock h.sock)
    (hout : ∀ q ∈ out, getFlags q = noFlag) : CtlInv (c.put x h out snt rd) where
  opened y := by
    rcases Side.eq_or_peer x y with rfl | rfl
    · rw [Conn.put_ep_self, hr.state]
      exact hi.opened _
    · rw [Conn.put_ep_peer]
      exact hi.opened _
  fins y q hq hf := by
    rcases Side.eq_or_peer x y with rfl | rfl
    · rw [Conn.put_net_self] at hq
      exact hi.fins _ q hq hf
    · rw [Conn.put_net_peer] at hq
      exact (List.mem_append.1 hq).elim (fun h => hi.fins _ q h hf) fun h =>
        absurd hf (not_isFin_data (hout q h))
  pending y q hq := by
    rcases Side.eq_or_peer x y with rfl | rfl
    · rw [Conn.put_ep_self, hr.packetFIN] at hq
      exact hi.pending _ q hq
    · rw [Conn.put_ep_peer] at hq
      exact hi.pending _ q hq

/-- The number that an ACK has brought is not behind `expect_seq`. -/
theorem FineFlow.acked (hf : FineFlow s) (hi : ProcInv p) (hi' : ProcInv p')
    (hS : Short p'.stream) (hp : s.proc x = p) (hmove : p'.ackPos = p.ackPos ∨ CountsAck p p')
    (hS₀ : Short p.stream) :
    1 + p'.ackPos ≤ (s.proc x.peer).host.sock.wndRecv.expectSeq.toNat := by
  subst hp
  rcases hmove with h | ⟨ack, hpc, -, hack⟩
  · rw [h, ← view_base hi hS₀]
    exact (hf x).base_le
  · have hle := (hf x).acks (bareAck ack) (List.mem_append_right _ (by
      rw [hpc]
      exact List.mem_singleton.2 rfl)) (by rw [bareAck, getFlags_wire])
    rw [bareAck, getAck_wire] at hle
    have hn := view_base hi' hS
    rw [← hn]
    show (BitVec.ofNat 32 (1 + p'.ackPos)).toNat ≤ _
    rw [← hack]
    exact hle

/-- **A statement of a thread.** -/
theorem FineInv.thread (hi : FineInv s) (hg : ReadsTogether (s.proc x) e)
    (hm : mayMove (s.proc x) e = true) (he : procStep (s.proc x) e = some p')
    (hS : Short p'.stream) : FineInv (s.put x p' (procOut (s.proc x) e) []) := by
  have hgen : Genuine (s.proc x) e := by
    cases e with
    | packet => cases hm
    | _ => trivial
  have hseg := segInv_step (hi.seg x) ⟨hg, hgen⟩ hS he
  obtain ⟨D, hD⟩ := procStep_stream he
  have hS₀ : Short (s.proc x).stream := by
    rw [hD] at hS
    simp only [Short, List.length_append] at hS ⊢
    omega
  have hproc := (hi.seg x).pass.proc
  obtain ⟨hsent, hack, hmove⟩ := procStep_pos hproc hseg.pass.proc he
  have hrest := procStep_rest he hm
  have hout := procOut_inFlight (hi.seg x) hseg hS₀ he hm
  refine ⟨fun y => ?_, ?_, FineFlow.put ?_ ?_⟩
  · rcases Side.eq_or_peer x y with rfl | rfl
    · simpa [FineConn.put] using hseg
    · simpa [FineConn.put] using hi.seg _
  · rw [FineConn.put_conn hD]
    exact hi.ctl.sameRest hrest fun q hq => (hout q hq).1
  · -- the direction to the peer
    have hf := (hi.flow x).moved hproc hseg.pass.proc hS hD hsent hack
      (hi.flow.acked hproc hseg.pass.proc hS rfl hmove hS₀)
    refine (hf.emit fun q hq _ => ?_).packets (fun q hq => Or.inl hq) fun q hq => ?_
    · have h := (hout q hq).2
      rw [transmitted_view hseg.pass.proc hS, view_base hseg.pass.proc hS, hD, List.take_append]
      exact h.mono le_rfl
    · rcases List.mem_append.1 hq with hq | hq
      · exact Or.inl (List.mem_append_left _ hq)
      · exact Or.inl (List.mem_append_right _ (procStep_pending he hm q hq))
  · rw [List.append_nil]
    refine ((hi.flow.back x).receiver hrest.wndRecv hrest.receivedBuf).packets
      (fun q hq => Or.inl hq) fun q hq => ?_
    rcases List.mem_append.1 hq with hq | hq
    · rcases List.mem_append.1 hq with hq | hq
      · exact Or.inl (List.mem_append_left _ hq)
      · refine Or.inr (Or.inl ?_)
        rw [(hout q hq).1]
        decide
    · exact Or.inl (List.mem_append_right _ hq)

/-- What moves no cursor keeps the invariant of the process. -/
theorem SegInv.putHost (hi : SegInv p) (hs : SameCursors p.host.sock h.sock) :
    SegInv { p with host := h } := by
  have ht : ThreadInv { p with host := h } :=
    ⟨hi.pass.proc.threads.mutex, hi.pass.proc.threads.published.congr rfl hs.nextseq⟩
  have hlen : p.sentLen ≤ Proc.sentLen { p with host := h } := by
    unfold Proc.sentLen
    rw [hs.haveSendLen]
  have hproc : ProcInv { p with host := h } := hi.pass.proc.same ht hs rfl rfl rfl
    (hi.pass.proc.handle.congr rfl rfl hs.ackCnt hs.base hlen)
  refine ⟨⟨hproc, ⟨hi.pass.count.seen, hi.pass.count.turns⟩, ?_, hi.pass.resent⟩,
    hi.haveRead.congr rfl hs.haveSendLen, ?_, ?_⟩
  · exact hi.pass.pass.congr rfl rfl (by rw [hs.sendingBuf]) fun a hr =>
      hr.congr hs.ackCnt hs.base rfl rfl rfl rfl
  · rw [hs.base]
    exact hi.base_pos
  · unfold Proc.ackPos
    rw [hs.base, hs.ackCnt]
    exact hi.base_le

theorem view_same (hs : SameCursors p.host.sock h.sock) :
    SameCursors p.view (Proc.view { p with host := h }) where
  sendingBuf := hs.sendingBuf
  haveSendLen := by
    show ((Proc.sentLen { p with host := h } : ℕ) : ℤ) = (p.sentLen : ℤ)
    unfold Proc.sentLen
    rw [hs.haveSendLen]
  ackCnt := hs.ackCnt
  base := by
    show BitVec.ofNat 32 (1 + (p.dropped + h.sock.wndSend.ackCnt.toNat)) = _
    rw [hs.ackCnt]
    rfl
  nextseq := sentSeq_congr rfl hs.nextseq

/-- The sides of `s.putHost x h out rd`, for a step that moves no cursor of `x`. -/
theorem FineInv.put (hi : FineInv s) (hs : SameCursors (s.proc x).host.sock h.sock)
    (hctl : CtlInv (s.conn.put x h out [] rd))
    (h1 : Flow (s.proc x).view (s.proc x.peer).host.sock (s.proc x).stream (s.read x.peer)
      (s.net x.peer ++ out) (s.net x ++ (s.proc x).handler.pending))
    (h2 : Flow (s.proc x.peer).view h.sock (s.proc x.peer).stream (s.read x ++ rd) (s.net x)
      ((s.net x.peer ++ out) ++ (s.proc x.peer).handler.pending)) :
    FineInv (s.putHost x h out rd) := by
  refine ⟨fun y => ?_, ?_, FineFlow.put (h1.sender (view_same hs)) h2⟩
  · rcases Side.eq_or_peer x y with rfl | rfl
    · simpa [FineConn.putHost, FineConn.put] using (hi.seg y).putHost hs
    · simpa [FineConn.putHost, FineConn.put] using hi.seg _
  · have hconn : (s.putHost x h out rd).conn = s.conn.put x h out [] rd :=
      FineConn.put_conn (List.append_nil _).symm
    rw [hconn]
    exact hctl

/-- A step that moves no cursor and sends control packets only. -/
theorem FineInv.control (hi : FineInv s) (hs : SameCursors (s.proc x).host.sock h.sock)
    (hw : h.sock.wndRecv = (s.proc x).host.sock.wndRecv)
    (hb : h.sock.receivedBuf = (s.proc x).host.sock.receivedBuf)
    (hout : ∀ q ∈ out, getFlags q ≠ noFlag ∧ (getFlags q ≠ ackFlagMask ∨ getAck q = 1))
    (hctl : CtlInv (s.conn.put x h out [] [])) : FineInv (s.putHost x h out []) := by
  refine hi.put hs hctl ?_ ?_
  · refine (hi.flow x).packets (fun q hq => ?_) fun q hq => Or.inl hq
    exact (List.mem_append.1 hq).imp_right fun h => (hout q h).1
  · rw [List.append_nil]
    have hf := (hi.flow.back x).receiver hw hb
    refine hf.packets (fun q hq => Or.inl hq) fun q hq => ?_
    rcases List.mem_append.1 hq with hq | hq
    · rcases List.mem_append.1 hq with hq | hq
      · exact Or.inl (List.mem_append_left _ hq)
      · refine Or.inr ((hout q hq).2.imp_right fun hack => ?_)
        rw [hack]
        exact hf.one_le
    · exact Or.inl (List.mem_append_right _ hq)

/-- A data packet comes in. -/
theorem FineInv.data (hi : FineInv s) (hS : FineShort s) (hmem : pkt ∈ s.net x)
    (hfl : getFlags pkt = noFlag) {sock : TjuTcp}
    (hd : handleData (s.proc x).host.sock pkt = some (sock, out))
    (hctl : CtlInv (s.conn.put x { (s.proc x).host with sock := sock } out [] [])) :
    FineInv (s.putHost x { (s.proc x).host with sock := sock } out []) := by
  obtain ⟨sock', hd', hf'⟩ := (hi.flow.back x).dataCall (hS x.peer) hmem hfl
  rw [hd] at hd'
  cases hd'
  have hs : SameCursors (s.proc x).host.sock sock := by
    rw [(handleData_frame hd).1]
    exact ⟨rfl, rfl, rfl, rfl, rfl⟩
  refine hi.put hs hctl ?_ ?_
  · refine (hi.flow x).packets (fun q hq => ?_) fun q hq => Or.inl hq
    refine (List.mem_append.1 hq).imp_right fun hq => ?_
    rw [List.mem_singleton.1 hq, ackPacket_flags]
    decide
  · rw [List.append_nil]
    refine hf'.packets (fun q hq => Or.inl hq) fun q hq => Or.inl ?_
    simp only [List.mem_append] at hq ⊢
    tauto

/-- **An ACK comes in.** -/
theorem FineInv.ack (hi : FineInv s) (hS : FineShort s) (hmem : pkt ∈ s.net x)
    (hfl : getFlags pkt = ackFlagMask) (hst : (s.proc x).host.sock.state = .established)
    (he : procStep (s.proc x) (.packet now pkt) = some p') : FineInv (s.put x p' [] []) := by
  have hproc := (hi.seg x).pass.proc
  obtain ⟨hidle, hp', hs, -, -, hpc⟩ := packet_cases he
  have hstep : p'.host = (ackArrives now (s.proc x).host pkt).1 := by
    simp only [procStep, hidle, if_pos (And.intro hst hfl)] at he
    rw [← Option.some.inj he]
  have hrest : SameRest (s.proc x).host.sock p'.host.sock := by
    rw [hstep]
    exact ackArrives_rest ..
  have hbase : (s.proc x).host.sock.wndSend.base.toNat = 1 + (s.proc x).ackPos :=
    hproc.base_toNat (hS x) fun ack h => by rw [hidle] at h; cases h
  -- the number lies behind what was received, so behind what was sent
  have hle := (hi.flow x).acks pkt (List.mem_append_left _ hmem) hfl
  obtain ⟨-, -, -, -, hnext, -⟩ := (hi.flow x).stream (hS x)
  have hseq : (s.proc x).view.wndSend.nextseq = (s.proc x).sentSeq := rfl
  rw [hseq] at hnext
  have hgen : Genuine (s.proc x) (.packet now pkt) := by
    intro _ _
    have hpos := hproc.sentSeq_toNat (hS x)
    have hmono := hproc.ackPos_le
    by_cases hlt : getAck pkt < (s.proc x).host.sock.wndSend.base
    · exact Or.inl hlt
    · right
      bv_omega
  have hS' : Short p'.stream := by
    rw [hp']
    exact hS x
  have hreads : ReadsTogether (s.proc x) (.packet now pkt) := trivial
  have hseg := segInv_step (hi.seg x) ⟨hreads, hgen⟩ hS' he
  obtain ⟨hsent, hack, hmove⟩ := procStep_pos hproc hseg.pass.proc he
  have hD : p'.stream = (s.proc x).stream ++ [] := by
    rw [hp', List.append_nil]
  refine ⟨fun y => ?_, ?_, FineFlow.put ?_ ?_⟩
  · rcases Side.eq_or_peer x y with rfl | rfl
    · simpa [FineConn.put] using hseg
    · simpa [FineConn.put] using hi.seg _
  · rw [FineConn.put_conn hD]
    exact hi.ctl.sameRest hrest fun q hq => by cases hq
  · rw [List.append_nil]
    have hf := (hi.flow x).moved hproc hseg.pass.proc hS' hD hsent hack
      (hi.flow.acked hproc hseg.pass.proc hS' rfl hmove (hS x))
    refine hf.packets (fun q hq => Or.inl hq) fun q hq => ?_
    rcases List.mem_append.1 hq with hq | hq
    · exact Or.inl (List.mem_append_left _ hq)
    · right
      right
      rcases hpc with hpc | ⟨-, -, -, hpc⟩
      · rw [HandleAt.pending_plain hpc] at hq
        cases hq
      · rw [hpc] at hq
        rw [List.mem_singleton.1 hq, bareAck, getAck_wire]
        exact hle
  · rw [List.append_nil, List.append_nil]
    exact (hi.flow.back x).receiver hrest.wndRecv hrest.receivedBuf

/-- A packet that the handler deals with at once. -/
theorem procStep_packet (hest : ¬ (p.host.sock.state = .established ∧ getFlags pkt = ackFlagMask))
    (he : procStep p (.packet now pkt) = some p') :
    ∃ h out, tjuHandlePacket now p.host pkt = some (h, out) ∧ p' = { p with host := h } := by
  simp only [procStep] at he
  split at he
  · rw [if_neg hest] at he
    obtain ⟨⟨h, out⟩, ht, rfl⟩ := Option.map_eq_some_iff.1 he
    exact ⟨h, out, ht, rfl⟩
  · cases he

/-- **A packet comes in.** -/
theorem FineInv.deliver (hi : FineInv s) (hS : FineShort s) (hmem : pkt ∈ s.net x)
    (hawake : asleep (s.proc x).host.sock.state = false)
    (he : procStep (s.proc x) (.packet now pkt) = some p') :
    FineInv (s.put x p' (procOut (s.proc x) (.packet now pkt)) []) := by
  by_cases hest : (s.proc x).host.sock.state = .established ∧ getFlags pkt = ackFlagMask
  · simp only [procOut, if_pos hest]
    exact hi.ack hS hmem hest.2 hest.1 he
  · obtain ⟨h, out, ht, rfl⟩ := procStep_packet hest he
    simp only [procOut, if_neg hest, ht, Option.map_some, Option.getD_some]
    -- the same packet on the connection of the two sockets
    have hctl : CtlInv (s.conn.put x h out [] []) := by
      have hstep : connStep s.conn (.deliver x pkt true now) =
          some ((s.conn.put x h out [] []).seeFin x
            (takesFin (s.proc x).host.sock.state (getFlags pkt))) := by
        have hnet : pkt ∈ s.conn.net x ∧ asleep (s.conn.ep x).sock.state = false := ⟨hmem, hawake⟩
        have ht' : tjuHandlePacket now (s.conn.ep x) pkt = some (h, out) := ht
        simp only [connStep, if_pos hnet, ht', Option.map_some, Conn.consume, if_true]
        rfl
      have hc := ctlInv_step hi.ctl hstep
      exact ⟨hc.opened, hc.fins, hc.pending⟩
    show FineInv (s.putHost x h out [])
    cases tjuHandlePacket_cases ht with
    | fin hst hf =>
      refine hi.control ⟨rfl, rfl, rfl, rfl, rfl⟩ rfl rfl (fun q hq => ?_) hctl
      rw [List.mem_singleton.1 hq]
      exact replyAck_control hi.ctl hmem (Or.inr hf) _
    | data hst hf hd => exact hi.data hS hmem hf hd hctl
    | ack hst hf => exact absurd ⟨hst, hf⟩ hest
    | ignored =>
      exact hi.control (SameCursors.refl _) rfl rfl (fun q hq => by cases hq) hctl
    | closing st out hst =>
      obtain ⟨st', -, hstep⟩ := handle_closeStep hst (hi.ctl.notSynSent x) ht
      refine hi.control ⟨rfl, rfl, rfl, rfl, rfl⟩ rfl rfl (fun q hq => ?_) hctl
      obtain ⟨seq, rfl, hfin⟩ := hstep.acks q hq
      exact replyAck_control hi.ctl hmem hfin seq

/-! ## Runs -/

/-- **One step** of the connection. -/
theorem fineInv_step {e : FineEv} (hi : FineInv s) (hg : Together s e) (hS : FineShort s')
    (hS₀ : FineShort s) (he : fineStep s e = some s') : FineInv s' := by
  have hnil : ∀ q ∈ ([] : List Buf), getFlags q ≠ noFlag ∧
      (getFlags q ≠ ackFlagMask ∨ getAck q = 1) := fun q hq => by cases hq
  have hone : ∀ {q : Buf}, IsFin q → ∀ r ∈ [q], getFlags r ≠ noFlag ∧
      (getFlags r ≠ ackFlagMask ∨ getAck r = 1) := fun hq r hr => by
    rw [List.mem_singleton.1 hr]
    exact isFin_control hq
  cases e with
  | thread x e =>
    simp only [fineStep] at he
    split_ifs at he with hm
    obtain ⟨p', hp, rfl⟩ := Option.map_eq_some_iff.1 he
    refine hi.thread hg hm hp ?_
    have h := hS x
    simpa [FineConn.put] using h
  | deliver x pkt keep now =>
    simp only [fineStep] at he
    split_ifs at he with hnet
    obtain ⟨t, ht, rfl⟩ := Option.map_eq_some_iff.1 he
    obtain ⟨p', hp, rfl⟩ := Option.map_eq_some_iff.1 ht
    exact (hi.deliver hS₀ (List.contains_iff_mem.1 hnet.1) hnet.2 hp).consume ..
  | lose x pkt =>
    cases he
    exact hi.consume ..
  | recv x len =>
    simp only [fineStep] at he
    split_ifs at he with hlen
    obtain ⟨⟨sock, bytes⟩, hr, rfl⟩ := Option.map_eq_some_iff.1 he
    obtain ⟨-, hsock, -⟩ := tjuRecv_eq_some hr
    have hs : SameCursors (s.proc x).host.sock sock := by
      rw [hsock]
      exact ⟨rfl, rfl, rfl, rfl, rfl⟩
    have hr' : tjuRecv (s.conn.ep x).sock len = some (sock, bytes) := hr
    refine hi.put hs (ctlInv_step (e := .recv x len) hi.ctl ?_) ?_ ?_
    · simp only [connStep, if_pos hlen, hr', Option.map_some]
      rfl
    · rw [List.append_nil]
      exact hi.flow x
    · rw [List.append_nil]
      exact (hi.flow.back x).recvCall hr
  | close x =>
    obtain ⟨⟨h, out⟩, hr, rfl⟩ := Option.map_eq_some_iff.1 he
    have hctl : CtlInv (s.conn.put x h out [] []) :=
      ctlInv_step (e := .close x) hi.ctl (congrArg (Option.map _) hr)
    rcases tjuClose_cases hr with ⟨-, hr'⟩ | ⟨-, hr'⟩
    · cases hr'
      exact hi.control ⟨rfl, rfl, rfl, rfl, rfl⟩ rfl rfl
        (hone (finPacket_isFin _ _ _ (Or.inr rfl)).1) hctl
    · cases hr'
      exact hi.control (SameCursors.refl _) rfl rfl hnil hctl
  | closeRetrans x =>
    cases he
    have hctl : CtlInv (s.conn.put x (s.proc x).host (closeRetrans (s.proc x).host.sock) [] []) :=
      ctlInv_step (e := .closeRetrans x) hi.ctl rfl
    refine hi.control (SameCursors.refl _) rfl rfl (fun q hq => ?_) hctl
    rcases closeRetrans_cases (s.proc x).host.sock with hc | ⟨p, hp, hc⟩
    · rw [hc] at hq
      cases hq
    · rw [hc] at hq
      exact hone (hi.ctl.pending x p hp).1 q hq
  | wake x =>
    obtain ⟨⟨h, out⟩, hr, rfl⟩ := Option.map_eq_some_iff.1 he
    have hctl : CtlInv (s.conn.put x h out [] []) :=
      ctlInv_step (e := .wake x) hi.ctl (congrArg (Option.map _) hr)
    rcases wake_cases hr with ⟨-, hr'⟩ | ⟨-, hr'⟩
    · cases hr'
      exact hi.control ⟨rfl, rfl, rfl, rfl, rfl⟩ rfl rfl
        (hone (finPacket_isFin _ _ _ (Or.inl rfl)).1) hctl
    · cases hr'
      exact hi.control ⟨rfl, rfl, rfl, rfl, rfl⟩ rfl rfl hnil hctl

theorem FineConn.put_stream {D : List Byte} (hD : p.stream = (s.proc x).stream ++ D) (y : Side) :
    (s.proc y).stream.length ≤ ((s.put x p out rd).proc y).stream.length := by
  simp only [FineConn.put, Function.update_apply]
  split_ifs with hy
  · rw [hD, hy, List.length_append]
    omega
  · exact le_rfl

/-- Streams only grow. -/
theorem fine_sent_mono {e : FineEv} (he : fineStep s e = some s') (y : Side) :
    (s.proc y).stream.length ≤ (s'.proc y).stream.length := by
  have hmoved : ∀ {x e t}, s.moved x e = some t →
      (s.proc y).stream.length ≤ (t.proc y).stream.length := fun {x e t} ht => by
    obtain ⟨p', hp, rfl⟩ := Option.map_eq_some_iff.1 ht
    obtain ⟨D, hD⟩ := procStep_stream hp
    exact FineConn.put_stream hD y
  have hput : ∀ x h out rd,
      (s.proc y).stream.length ≤ ((s.putHost x h out rd).proc y).stream.length :=
    fun x h out rd => FineConn.put_stream (p := { s.proc x with host := h })
      (List.append_nil _).symm y
  cases e with
  | thread x e =>
    simp only [fineStep] at he
    split_ifs at he
    exact hmoved he
  | deliver x pkt keep now =>
    simp only [fineStep] at he
    split_ifs at he
    obtain ⟨t, ht, rfl⟩ := Option.map_eq_some_iff.1 he
    rw [FineConn.consume_proc]
    exact hmoved ht
  | lose x pkt =>
    cases he
    rw [FineConn.consume_proc]
  | recv x len =>
    simp only [fineStep] at he
    split_ifs at he
    obtain ⟨r, -, rfl⟩ := Option.map_eq_some_iff.1 he
    exact hput ..
  | close x =>
    obtain ⟨r, -, rfl⟩ := Option.map_eq_some_iff.1 he
    exact hput ..
  | closeRetrans x =>
    cases he
    exact hput ..
  | wake x =>
    obtain ⟨r, -, rfl⟩ := Option.map_eq_some_iff.1 he
    exact hput ..

theorem FineShort.back {e : FineEv} (hS : FineShort s') (he : fineStep s e = some s') :
    FineShort s := fun y => Nat.lt_of_le_of_lt (fine_sent_mono he y) (hS y)

theorem fineInv_start (client server : TjuSockAddr) :
    FineInv (.start client server (handshake client server)) where
  seg x := by
    have hseg : ∀ a b, SegInv (.start a b) := fun a b =>
      ⟨passInv_start a b, trivial, le_rfl, le_rfl⟩
    cases x
    · exact hseg ..
    · exact hseg ..
  ctl := by
    have hi : CtlInv (.start client server (handshake client server)) :=
      ctlInv_start (handshake_not_isFin client server)
    refine ⟨fun x => ?_, hi.fins, fun x p hp => ?_⟩
    · cases x <;> rfl
    · cases x <;> cases hp
  flow x := by
    have hf : FlowAll (.start client server (handshake client server)) :=
      flowAll_start (handshake_quiet client server)
    cases x
    · exact ((hf .client).sender ⟨rfl, rfl, rfl, rfl, rfl⟩).packets (fun q hq => Or.inl hq)
        fun q hq => Or.inl ((List.mem_append.1 hq).elim id fun h => by cases h)
    · exact ((hf .server).sender ⟨rfl, rfl, rfl, rfl, rfl⟩).packets (fun q hq => Or.inl hq)
        fun q hq => Or.inl ((List.mem_append.1 hq).elim id fun h => by cases h)

/-- **Any number of steps.** -/
theorem fineInv_run (hr : ReachBy fineStep Together s s') (hi : FineShort s → FineInv s) :
    FineShort s' → FineInv s' :=
  hr.inv (I := fun s => FineShort s → FineInv s) hi
    fun _ _ _ hi hg he hS => fineInv_step (hi (hS.back he)) hg hS (hS.back he) he

/-- What the peer of `x` was given, and what is in flight to it. -/
structure FineDelivered (s : FineConn) (x : Side) : Prop where
  front : s.read x.peer ++ (s.proc x.peer).host.sock.receivedBuf =
    (s.proc x).stream.take ((s.proc x.peer).host.sock.wndRecv.expectSeq.toNat - 1)
  length : (s.read x.peer ++ (s.proc x.peer).host.sock.receivedBuf).length =
    (s.proc x.peer).host.sock.wndRecv.expectSeq.toNat - 1
  base_le : (s.proc x).host.sock.wndSend.base.toNat ≤
    (s.proc x.peer).host.sock.wndRecv.expectSeq.toNat
  expect_le : (s.proc x.peer).host.sock.wndRecv.expectSeq.toNat ≤ (s.proc x).sentSeq.toNat
  carried : ∀ q ∈ s.net x.peer, getFlags q = noFlag →
    InFlight q ((s.proc x).stream.take ((s.proc x).sentSeq.toNat - 1))
      (s.proc x.peer).host.sock.wndRecv.expectSeq.toNat

theorem FineInv.delivered (hi : FineInv s) (hS : FineShort s) (x : Side) : FineDelivered s x := by
  obtain ⟨h1, h2, -, h4, h5, -⟩ := (hi.flow x).stream (hS x)
  have hproc := (hi.seg x).pass.proc
  have hbase := (hi.seg x).base_le
  rw [view_base hproc (hS x)] at h4
  refine ⟨h1, h2, hbase.trans h4, h5, fun q hq hf => ?_⟩
  have h := (hi.flow x).data q hq hf
  rw [view_base hproc (hS x)] at h
  have hmono := h.mono (U := []) h4
  rw [List.append_nil] at hmono
  exact hmono

/-- **The byte stream, statement by statement.**  Let the threads of both sides, their handlers and
    their alarms alternate after every statement, and let the network lose, repeat and reorder.  If
    no pass of `retrans_thread` reads `ack_cnt` and `base` of two different ACKs, then each
    application was given the front of what the other one appended, and every data packet in flight
    is a piece of it or a probe. -/
theorem fine_stream (client server : TjuSockAddr)
    (hr : ReachBy fineStep Together (.start client server (handshake client server)) s)
    (hS : FineShort s) (x : Side) : FineDelivered s x := by
  have hi : FineInv s := fineInv_run hr (fun _ => fineInv_start client server) hS
  exact hi.delivered hS x

/-- A connection between the client and the server, statement by statement. -/
def freshFine : FineConn :=
  .start ⟨clientIp, 5678⟩ ⟨serverIp, 1234⟩ (handshake ⟨clientIp, 5678⟩ ⟨serverIp, 1234⟩)

/-- One thread of the client makes `n` steps. -/
def clientMoves (n : ℕ) (e : ProcEv) : List FineEv := List.replicate n (.thread .client e)

/-- One byte is sent, and sent again after a timeout; the server takes the first copy. -/
def byteTwice : List FineEv :=
  clientMoves 1 (.append [1]) ++ clientMoves 8 (.send 0) ++ clientMoves 1 .alarm ++
    clientMoves 14 .retrans ++ [.deliver .server (dataPacket clientHost.sock 1 [1]) true 0]

/-- The connection after `byteTwice`. -/
def afterTwice : FineConn := (exec fineStep freshFine byteTwice).getD freshFine

theorem fine_stream_twice : FineDelivered afterTwice .client := by
  have hrun : exec fineStep freshFine byteTwice = some afterTwice :=
    exec_getD (by decide +kernel) freshFine
  have htogether : Along fineStep Together freshFine byteTwice := by decide +kernel
  have hshort : FineShort afterTwice := by
    intro x
    cases x <;> decide +kernel
  exact fine_stream _ _ (.of_along byteTwice htogether hrun) hshort .client

/-- A second byte follows.  A pass has read `ack_cnt` when the ACK of the first byte is handled, and
    reads `base` after that: it sends both bytes with the number of the second one. -/
def bytesShifted : List FineEv :=
  byteTwice ++ clientMoves 1 (.append [2]) ++ clientMoves 6 (.send 0) ++ clientMoves 1 .alarm ++
    clientMoves 13 .retrans ++ [.deliver .client (bareAck 2) false 0] ++ clientMoves 2 .handle ++
    clientMoves 3 .retrans ++
    [.deliver .server (dataPacket clientHost.sock 2 [1, 2]) false 0, .recv .server 5]

/-- The connection after `bytesShifted`. -/
def afterShift : FineConn := (exec fineStep freshFine bytesShifted).getD freshFine

/-- **The race reaches the application**: it is given the first byte twice. -/
theorem fine_stream_broken : ∃ s, Reach fineStep freshFine s ∧
    (s.proc .client).stream = [1, 2] ∧ s.read .server = [1, 1, 2] := by
  have hrun : exec fineStep freshFine bytesShifted = some afterShift :=
    exec_getD (by decide +kernel) freshFine
  exact ⟨afterShift, .of_exec bytesShifted hrun, by decide +kernel, by decide +kernel⟩

end Tju
