/-
  What a close leaves of the stream.

  `tju_close` waits for nothing: its FIN has no number in the stream, and may
  be handled before the data in front of it.  From then on both sides are
  frozen (`Frozen`): the closing side accepts no bytes and handles no ACK, and
  its peer handles no data.

  `close_stream`: what the peer was given when it leaves ESTABLISHED on the FIN
  is a front of what was accepted before the close, holds at least what was
  acknowledged by then, and never grows afterwards.
-/
import TjuTcp.Stream

namespace Tju

open Lib

/-- The side has sent a FIN. -/
def sentFin : State → Bool
  | .finWait1 | .finWait2 | .closing | .timeWait | .closed => true
  | _ => false

/-- The parts of a side that nothing moves once it has left ESTABLISHED. -/
structure Frozen (s s' : Conn) (y : Side) : Prop where
  base : (s'.ep y).sock.wndSend.base = (s.ep y).sock.wndSend.base
  wndRecv : (s'.ep y).sock.wndRecv = (s.ep y).sock.wndRecv
  given : s'.read y ++ (s'.ep y).sock.receivedBuf = s.read y ++ (s.ep y).sock.receivedBuf
  sent : canSend (s.ep y).sock.state = false → s'.sent y = s.sent y

/-- A side in ESTABLISHED has sent no FIN; one that closes passively has taken one. -/
structure OpenInv (s : Conn) : Prop where
  ctl : CtlInv s
  noFin : ∀ x, (s.ep x).sock.state = .established →
    (∀ p ∈ s.net x.peer, ¬ IsFin p) ∧ (s.ep x).sock.packetFIN = none ∧ s.finSeen x.peer = false
  taken : ∀ x, (s.ep x).sock.state = .closeWait ∨ (s.ep x).sock.state = .lastAck →
    s.finSeen x = true

variable {s s' : Conn} {x y : Side} {e : ConnEv} {st : State} {fin : Option Buf} {out : List Buf}
  {b : Bool} {h : Host} {snt rd : List Byte}

/-! ## The sides that have left ESTABLISHED -/

theorem Frozen.other : Frozen s (s.put x h out snt rd) x.peer := by
  constructor
  · rw [Conn.put_ep_peer]
  · rw [Conn.put_ep_peer]
  · rw [Conn.put_ep_peer, Conn.put_read_peer]
  · intro _; rw [Conn.put_sent_peer]

theorem Frozen.self (hb : h.sock.wndSend.base = (s.ep x).sock.wndSend.base)
    (hw : h.sock.wndRecv = (s.ep x).sock.wndRecv)
    (hr : rd ++ h.sock.receivedBuf = (s.ep x).sock.receivedBuf)
    (hs : canSend (s.ep x).sock.state = false → snt = []) :
    Frozen s (s.put x h out snt rd) x := by
  constructor
  · rw [Conn.put_ep_self, hb]
  · rw [Conn.put_ep_self, hw]
  · rw [Conn.put_ep_self, Conn.put_read_self, List.append_assoc, hr]
  · intro hc; rw [Conn.put_sent_self, hs hc, List.append_nil]

/-- A step of `x` that freezes `x` itself freezes every side. -/
theorem Frozen.put (hx : y = x → Frozen s (s.put x h out snt rd) x) :
    Frozen s (s.put x h out snt rd) y := by
  rcases Side.eq_or_peer x y with rfl | rfl
  · exact hx rfl
  · exact .other

theorem Frozen.deliver {pkt : Buf} {keep : Bool} (hf : Frozen s s' y) :
    Frozen s ((s'.consume x pkt keep).seeFin x b) y := by
  constructor
  · rw [Conn.seeFin_ep, Conn.consume_ep]; exact hf.base
  · rw [Conn.seeFin_ep, Conn.consume_ep]; exact hf.wndRecv
  · rw [Conn.seeFin_ep, Conn.consume_ep, Conn.seeFin_read, Conn.consume_read]; exact hf.given
  · rw [Conn.seeFin_sent, Conn.consume_sent]; exact hf.sent

/-- A step of the sending half alone that does not move `base`. -/
theorem Frozen.rest (hr : SameRest (s.ep x).sock h.sock)
    (hb : h.sock.wndSend.base = (s.ep x).sock.wndSend.base) :
    Frozen s (s.put x h out [] []) y :=
  .put fun _ => .self hb hr.wndRecv hr.receivedBuf fun _ => rfl

/-- **A side that has left ESTABLISHED is frozen**, whatever happens. -/
theorem frozen_step (hi : CtlInv s) (hs : (s.ep y).sock.state ≠ .established)
    (he : connStep s e = some s') : Frozen s s' y := by
  cases connStep_move he with
  | append hcan ha =>
    obtain ⟨-, rfl⟩ := appendData_eq_some ha
    exact .put fun _ => .self rfl rfl rfl fun hno => absurd (hcan.symm.trans hno) (by decide)
  | sendPass => exact .rest (sendingThread_rest _ _) (sendingThread_base _ _)
  | retransPass ht => exact .rest (retransThread_rest ht) (retransThread_base ht)
  | alarm => exact .rest ⟨rfl, rfl, rfl, rfl, rfl, rfl⟩ rfl
  | deliver _ _ ht =>
    refine Frozen.deliver (.put ?_)
    rintro rfl
    obtain ⟨st, rfl, -⟩ := handle_closeStep hs (hi.notSynSent y) ht
    exact .self rfl rfl rfl fun _ => rfl
  | lose =>
    constructor
    · rw [Conn.consume_ep]
    · rw [Conn.consume_ep]
    · rw [Conn.consume_ep, Conn.consume_read]
    · intro _; rw [Conn.consume_sent]
  | recv _ hr =>
    obtain ⟨-, rfl, rfl⟩ := tjuRecv_eq_some hr
    exact .put fun _ => .self rfl rfl (List.take_append_drop _ _) fun _ => rfl
  | _ => exact .put fun _ => .self rfl rfl rfl fun _ => rfl

/-- ESTABLISHED is not entered again. -/
theorem CtlStep.not_back (hst : CtlStep s x e st fin out b) (h : st = .established) :
    (s.ep x).sock.state = .established := by
  cases hst with
  | quiet => exact h
  | dataAck hs => exact hs
  | finIn => cases h
  | closeStep hne _ hc =>
    generalize (s.ep x).sock.state = old at hc
    cases hc with
    | ignore => exact h
    | finWait2 => cases h
    | closing => cases h
    | timeWait => cases h
    | closed => cases h
    | closingDone => cases h
  | close => cases h
  | resend => exact h
  | finOut => cases h
  | done => cases h

/-- An active close is not taken back. -/
theorem CtlStep.sentFin_keep (hst : CtlStep s x e st fin out b)
    (h : sentFin (s.ep x).sock.state = true) : sentFin st = true := by
  cases hst with
  | quiet => exact h
  | dataAck hs => rw [hs] at h; cases h
  | finIn hs => rw [hs] at h; cases h
  | closeStep _ _ hc =>
    generalize (s.ep x).sock.state = old at hc h
    cases hc with
    | ignore => exact h
    | finWait2 => rfl
    | closing => rfl
    | timeWait => rfl
    | closed => rfl
    | closingDone => rfl
  | close => rfl
  | resend => exact h
  | finOut hs => rw [hs] at h; cases h
  | done => rfl

theorem left_step (hi : CtlInv s) (hs : (s.ep y).sock.state ≠ .established)
    (he : connStep s e = some s') : (s'.ep y).sock.state ≠ .established := by
  obtain ⟨x, st, fin, out, b, hst, hv⟩ := connStep_ctl hi.notSynSent he
  rcases Side.eq_or_peer x y with rfl | rfl
  · rw [hv.state]
    exact fun h => hs (hst.not_back h)
  · rw [hv.peer]
    exact hs

theorem sentFin_step (hi : CtlInv s) (hs : sentFin (s.ep y).sock.state = true)
    (he : connStep s e = some s') : sentFin (s'.ep y).sock.state = true := by
  obtain ⟨x, st, fin, out, b, hst, hv⟩ := connStep_ctl hi.notSynSent he
  rcases Side.eq_or_peer x y with rfl | rfl
  · rw [hv.state]
    exact hst.sentFin_keep hs
  · rw [hv.peer]
    exact hs

/-- **The peer of a close is frozen for good.** -/
theorem frozen_receiver (hr : Reach connStep s s') (hi : CtlInv s)
    (hs : (s.ep y).sock.state ≠ .established) :
    (s'.ep y).sock.wndRecv = (s.ep y).sock.wndRecv ∧
      s'.read y ++ (s'.ep y).sock.receivedBuf = s.read y ++ (s.ep y).sock.receivedBuf := by
  have hend := hr.inv (I := fun t => CtlInv t ∧ (t.ep y).sock.state ≠ .established ∧
      (t.ep y).sock.wndRecv = (s.ep y).sock.wndRecv ∧
      t.read y ++ (t.ep y).sock.receivedBuf = s.read y ++ (s.ep y).sock.receivedBuf)
    ⟨hi, hs, rfl, rfl⟩ fun t e t' ht _ he => by
      obtain ⟨hi, hs, hw, hg⟩ := ht
      have hf := frozen_step hi hs he
      exact ⟨ctlInv_step hi he, left_step hi hs he, hf.wndRecv.trans hw, hf.given.trans hg⟩
  exact ⟨hend.2.2.1, hend.2.2.2⟩

/-- **The closing side is frozen for good.** -/
theorem frozen_sender (hr : Reach connStep s s') (hi : CtlInv s)
    (hs : sentFin (s.ep x).sock.state = true) :
    (s'.ep x).sock.wndSend.base = (s.ep x).sock.wndSend.base ∧ s'.sent x = s.sent x := by
  have hcan : ∀ st, sentFin st = true → st ≠ .established ∧ canSend st = false := by
    intro st h; cases st <;> simp_all [sentFin, canSend]
  have hend := hr.inv (I := fun t => CtlInv t ∧ sentFin (t.ep x).sock.state = true ∧
      (t.ep x).sock.wndSend.base = (s.ep x).sock.wndSend.base ∧ t.sent x = s.sent x)
    ⟨hi, hs, rfl, rfl⟩ fun t e t' ht _ he => by
      obtain ⟨hi, hs, hb, hsent⟩ := ht
      have hf := frozen_step hi (hcan _ hs).1 he
      exact ⟨ctlInv_step hi he, sentFin_step hi hs he, hf.base.trans hb,
        (hf.sent (hcan _ hs).2).trans hsent⟩
  exact ⟨hend.2.2.1, hend.2.2.2⟩

/-! ## Who has closed -/

theorem takesFin_isFin {pkt : Buf} (h : takesFin st (getFlags pkt) = true) : IsFin pkt := by
  cases st <;> simp only [takesFin, Bool.or_eq_true, beq_iff_eq, Bool.false_eq_true] at h
  · exact Or.inr h
  · exact h.symm
  · exact Or.inl h

/-- A handler takes only a FIN that is in flight. -/
theorem CtlStep.takes (hst : CtlStep s x e st fin out true) : ∃ pkt ∈ s.net x, IsFin pkt := by
  generalize hb : true = b at hst
  cases hst with
  | finIn _ hp hf => exact ⟨_, hp, Or.inr hf⟩
  | closeStep _ hp _ => exact ⟨_, hp, takesFin_isFin hb.symm⟩
  | _ => cases hb

/-- A step that stays in ESTABLISHED sends no FIN. -/
theorem CtlStep.silent (hst : CtlStep s x e st fin out b) (hs : st = .established)
    (hn : (s.ep x).sock.packetFIN = none) : (∀ p ∈ out, ¬ IsFin p) ∧ fin = none := by
  have hnil : ∀ p ∈ ([] : List Buf), ¬ IsFin p := by
    intro p hp; cases hp
  cases hst with
  | quiet => exact ⟨hnil, hn⟩
  | dataAck =>
    refine ⟨fun p hp => ?_, hn⟩
    rw [List.mem_singleton.1 hp]
    exact not_isFin_ack (ackPacket_flags _)
  | finIn => cases hs
  | closeStep hne _ hc =>
    generalize (s.ep x).sock.state = old at hc hne
    cases hc with
    | ignore => exact absurd hs hne
    | _ => cases hs
  | close => cases hs
  | resend hp => rw [hn] at hp; cases hp
  | finOut => cases hs
  | done => cases hs

/-- A passive close begins with a FIN. -/
theorem CtlStep.passive (hst : CtlStep s x e st fin out b) (h : st = .closeWait ∨ st = .lastAck) :
    ((s.ep x).sock.state = .closeWait ∨ (s.ep x).sock.state = .lastAck) ∨ b = true := by
  cases hst with
  | quiet => exact Or.inl h
  | dataAck => rcases h with h | h <;> cases h
  | finIn => exact Or.inr rfl
  | closeStep _ _ hc =>
    generalize (s.ep x).sock.state = old at hc
    cases hc with
    | ignore => exact Or.inl h
    | _ => rcases h with h | h <;> cases h
  | close => rcases h with h | h <;> cases h
  | resend => exact Or.inl h
  | finOut hs => exact Or.inl (Or.inl hs)
  | done => rcases h with h | h <;> cases h

theorem openInv_step (hi : OpenInv s) (he : connStep s e = some s') : OpenInv s' := by
  obtain ⟨x, st, fin, out, b, hst, hv⟩ := connStep_ctl hi.ctl.notSynSent he
  refine ⟨ctlInv_step hi.ctl he, fun y hy => ?_, fun y hy => ?_⟩
  · rcases Side.eq_or_peer x y with rfl | rfl
    · rw [hv.state] at hy
      obtain ⟨hnet, hpend, hseen⟩ := hi.noFin y (hst.not_back hy)
      obtain ⟨hout, hfin⟩ := hst.silent hy hpend
      refine ⟨fun p hp => ?_, hv.packetFIN.trans hfin, hv.finSeenPeer.trans hseen⟩
      rcases hv.netPeer p hp with h | h | h
      · exact hnet p h
      · exact hout p h
      · exact not_isFin_data h.2
    · rw [hv.peer] at hy
      obtain ⟨hnet, hpend, hseen⟩ := hi.noFin _ hy
      rw [Side.peer_peer] at hnet hseen ⊢
      refine ⟨fun p hp => hnet p (hv.net p hp), by rw [hv.peer]; exact hpend, ?_⟩
      rw [hv.finSeen, hseen, Bool.false_or]
      cases b with
      | false => rfl
      | true =>
        obtain ⟨pkt, hp, hf⟩ := hst.takes
        exact absurd hf (hnet pkt hp)
  · rcases Side.eq_or_peer x y with rfl | rfl
    · rw [hv.state] at hy
      rw [hv.finSeen]
      rcases hst.passive hy with h | h
      · rw [hi.taken y h]; rfl
      · rw [h, Bool.or_true]
    · rw [hv.peer] at hy
      rw [hv.finSeenPeer]
      exact hi.taken _ hy

theorem openInv_reached {client server : TjuSockAddr}
    (hr : Reach connStep (.start client server (handshake client server)) s) : OpenInv s := by
  have hnet := handshake_not_isFin client server
  refine hr.inv ⟨ctlInv_start hnet, fun x _ => ⟨hnet x.peer, ?_, rfl⟩, fun x h => ?_⟩
    fun _ _ _ hi _ he => openInv_step hi he
  · cases x <;> rfl
  · cases x <;> rcases h with h | h <;> cases h

/-! ## The stream of the closing side -/

/-- What the peer of `x` has in `s'` of the stream that was accepted when `x` closed in `s`, if it
    has left ESTABLISHED with the number `n` expected next. -/
structure LeftWith (s s' : Conn) (x : Side) (n : ℕ) : Prop where
  expect : (s'.ep x.peer).sock.wndRecv.expectSeq.toNat = n
  front : s'.read x.peer ++ (s'.ep x.peer).sock.receivedBuf = (s.sent x).take (n - 1)
  length : n - 1 ≤ (s.sent x).length
  acked : (s.ep x).sock.wndSend.base.toNat ≤ n
  all : (s.ep x).sock.wndSend.base.toNat - 1 = (s.sent x).length → n - 1 = (s.sent x).length

/-- `tju_close` sends the FIN, unless the peer has closed before. -/
theorem close_cases (hc : connStep s (.close x) = some s') :
    (s.ep x).sock.state = .lastAck ∨ sentFin (s'.ep x).sock.state = true ∧ s'.sent x = s.sent x ∧
      (s'.ep x).sock.wndSend.base = (s.ep x).sock.wndSend.base := by
  cases connStep_move hc with
  | close =>
    refine Or.inr ⟨?_, ?_, ?_⟩
    · rw [Conn.put_ep_self]; rfl
    · rw [Conn.put_sent_self, List.append_nil]
    · rw [Conn.put_ep_self]; rfl
  | closeAgain hs => exact Or.inl hs

/-- **The stream at a close.**  If `x` closes, and its peer leaves ESTABLISHED because it handles
    the FIN, then the peer was given a front of the bytes accepted before the close, with at least
    those acknowledged by then, and from then on it is given no other ones. -/
theorem close_stream (client server : TjuSockAddr) {s1 s2 s3 s4 s5 : Conn} {pkt : Buf} {keep : Bool}
    {now : ℕ} (h1 : Reach connStep (.start client server (handshake client server)) s1)
    (hc : connStep s1 (.close x) = some s2) (h3 : Reach connStep s2 s3) (hS : ShortAll s3)
    (hs : (s3.ep x.peer).sock.state = .established) (hf : getFlags pkt = finFlagMask)
    (hd : connStep s3 (.deliver x.peer pkt keep now) = some s4) (h5 : Reach connStep s4 s5) :
    LeftWith s1 s5 x (s3.ep x.peer).sock.wndRecv.expectSeq.toNat := by
  have hreach3 := (h1.tail trivial hc).trans h3
  -- `x` has closed first, as its peer has not left ESTABLISHED
  obtain ⟨hclosed, hsent2, hbase2⟩ : sentFin (s2.ep x).sock.state = true ∧ s2.sent x = s1.sent x ∧
      (s2.ep x).sock.wndSend.base = (s1.ep x).sock.wndSend.base := by
    rcases close_cases hc with hlast | h
    · have hopen := openInv_reached h1
      have htaken := hopen.taken x (Or.inr hlast)
      have hleft : (s1.ep x.peer).sock.state ≠ .established := fun h => by
        have := (hopen.noFin _ h).2.2
        rw [Side.peer_peer, htaken] at this
        cases this
      have hstay := ((ReachBy.one trivial hc).trans h3).inv
        (I := fun t => CtlInv t ∧ (t.ep x.peer).sock.state ≠ .established) ⟨hopen.ctl, hleft⟩
        fun t e t' hi _ he => ⟨ctlInv_step hi.1 he, left_step hi.1 hi.2 he⟩
      exact absurd hs hstay.2
    · exact h
  -- from the close on, `x` accepts nothing and handles no ACK
  have hi2 := (openInv_reached (h1.tail trivial hc)).ctl
  obtain ⟨hbase3, hsent3⟩ := frozen_sender h3 hi2 hclosed
  have hi3 := (flowAll_reached hreach3).1
  have hdel := ((flowAll_reached hreach3).2 hS).delivered hS x
  -- the FIN itself gives no bytes to the peer
  obtain ⟨hw4, hg4, hs4⟩ : (s4.ep x.peer).sock.wndRecv = (s3.ep x.peer).sock.wndRecv ∧
      s4.read x.peer ++ (s4.ep x.peer).sock.receivedBuf =
        s3.read x.peer ++ (s3.ep x.peer).sock.receivedBuf ∧
      (s4.ep x.peer).sock.state ≠ .established := by
    simp only [connStep] at hd
    split_ifs at hd
    rw [handle_fin hs hf] at hd
    cases hd
    refine ⟨?_, ?_, ?_⟩
    · rw [Conn.seeFin_ep, Conn.consume_ep, Conn.put_ep_self]; rfl
    · rw [Conn.seeFin_ep, Conn.consume_ep, Conn.put_ep_self, Conn.seeFin_read, Conn.consume_read,
        Conn.put_read_self, List.append_nil]
      rfl
    · rw [Conn.seeFin_ep, Conn.consume_ep, Conn.put_ep_self]
      exact fun h => by cases h
  obtain ⟨hw5, hg5⟩ := frozen_receiver h5 (ctlInv_step hi3 hd) hs4
  have hlen := hdel.length
  rw [hdel.front, List.length_take, hsent3, hsent2] at hlen
  have hbase := hdel.base_le
  rw [hbase3, hbase2] at hbase
  constructor
  · rw [hw5, hw4]
  · rw [hg5, hg4, hdel.front, hsent3, hsent2]
  · omega
  · exact hbase
  · intro hall; omega

/-- The client sends one byte, which is received, and closes. -/
theorem close_stream_oneByte :
    let s1 := (exec connStep freshConn oneByte).getD freshConn
    let s2 := (connStep s1 (.close .client)).getD s1
    ∃ s4, connStep s2 (.deliver .server (finPacket clientHost.sock 0 finFlagMask) false 0) = some s4 ∧
      LeftWith s1 s4 .client (s2.ep .server).sock.wndRecv.expectSeq.toNat := by
  intro s1 s2
  have h1 : Reach connStep freshConn s1 := .of_exec oneByte rfl
  have hc : connStep s1 (.close .client) = some s2 := rfl
  have hS : ShortAll s2 := by intro x; cases x <;> decide
  have hf : getFlags (finPacket clientHost.sock 0 finFlagMask) = finFlagMask := by decide
  obtain ⟨s4, hd⟩ := Option.isSome_iff_exists.1 (show (connStep s2
    (.deliver .server (finPacket clientHost.sock 0 finFlagMask) false 0)).isSome = true by decide)
  exact ⟨s4, hd, close_stream ⟨clientIp, 5678⟩ ⟨serverIp, 1234⟩ h1 hc .refl hS rfl hf hd .refl⟩

/-- The client accepts one byte and closes, and the FIN arrives: the byte is never received. -/
theorem close_truncates : ¬ ∀ (x : Side) (s1 s2 s3 s4 : Conn) (pkt : Buf) (keep : Bool) (now : ℕ),
    Reach connStep freshConn s1 → connStep s1 (.close x) = some s2 → Reach connStep s2 s3 →
    (s3.ep x.peer).sock.state = .established → getFlags pkt = finFlagMask →
    connStep s3 (.deliver x.peer pkt keep now) = some s4 →
    (s4.ep x.peer).sock.wndRecv.expectSeq.toNat - 1 = (s1.sent x).length := by
  intro h
  have hrun := h .client _ _ _ _ (finPacket clientHost.sock 0 finFlagMask) true 0
    (.of_exec [.append .client [7]] rfl) rfl .refl rfl (by decide) rfl
  exact absurd hrun (by decide)

end Tju
