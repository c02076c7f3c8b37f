/-
  How a teardown ends.

  From a completable state both sides can still reach CLOSED.  The network may
  keep a copy of what it delivers, so that nothing in flight is lost on the way
  (`Leads`).  Each lemma `closes_..` gives the next steps from one pair of
  states, and the last ones are reached from the first ones; the end of all are
  two sides behind the FIN of the other one (`At.closes_ending`).

  `teardown`: with `Procs.Closes.completable`, in every reachable state the close
  can still be completed if and only if no side waits in vain and no process has
  ended too early.
-/
import TjuTcp.Teardown
import TjuTcp.Lib.Simulation

namespace Tju

open Lib

variable {s s' t : Procs} {x : Side} {a b : State} {h : Host} {out : List Buf} {pkt : Buf}

/-- The states of the two sides, of which only a CLOSED one may have ended. -/
structure At (s : Procs) (x : Side) (a b : State) : Prop where
  inv : CloseInv s.conn
  running : ∀ y, s.exited y = true → (s.conn.ep y).sock.state = .closed
  self : (s.conn.ep x).sock.state = a
  peer : (s.conn.ep x.peer).sock.state = b

theorem At.swap (h : At s x a b) : At s x.peer b a :=
  ⟨h.inv, h.running, h.peer, by rw [Side.peer_peer]; exact h.self⟩

/-- Some run leads from `s` to `t`, and loses no packet on the way. -/
structure Leads (s t : Procs) : Prop where
  run : Reach procsStep s t
  net : ∀ y, ∀ p ∈ s.conn.net y, p ∈ t.conn.net y

theorem Leads.refl (s : Procs) : Leads s s := ⟨ReachBy.refl, fun _ _ hp => hp⟩

theorem Leads.trans (h : Leads s s') (h' : Leads s' t) : Leads s t :=
  ⟨h.run.trans h'.run, fun y p hp => h'.net y p (h.net y p hp)⟩

theorem Leads.ackComing (h : Leads s t) (hc : AckComing s.conn x) : AckComing t.conn x := by
  obtain ⟨p, hp, hf⟩ := hc
  exact ⟨p, h.net x p hp, hf⟩

theorem Leads.closes (h : Leads s t) (hc : t.Closes) : s.Closes := by
  obtain ⟨u, hr, hu⟩ := hc
  exact ⟨u, h.run.trans hr, hu⟩

/-! ## The steps that lead on -/

/-- A step of `x` that only adds packets. -/
theorem At.put {e : ConnEv} {c : Conn} (hat : At s x a b) (ha : a ≠ .closed)
    (hd : e.doer = some x) (he : connStep s.conn e = some c)
    (hep : c.ep = (s.conn.put x h out [] []).ep) (hnet : c.net = (s.conn.put x h out [] []).net) :
    Leads s { s with conn := c } ∧ At { s with conn := c } x h.sock.state b := by
  have hrun : s.exited x = false := Bool.eq_false_iff.2 fun hx =>
    ha (hat.self.symm.trans (hat.running x hx))
  have hdoer : ∀ y, e.doer = some y → s.exited y = false := fun y hy => by
    rw [hd] at hy
    cases hy
    exact hrun
  refine ⟨⟨.one trivial (procsStep_conn hdoer he), fun y p hp => ?_⟩, closeInv_step hat.inv he,
    fun y hy => ?_, ?_, ?_⟩
  · show p ∈ c.net y
    rw [hnet]
    rcases Side.eq_or_peer x y with rfl | rfl
    · simpa using hp
    · rw [Conn.put_net_peer]; exact List.mem_append_left _ hp
  · rcases Side.eq_or_peer x y with rfl | rfl
    · rw [hrun] at hy; cases hy
    · show (c.ep x.peer).sock.state = .closed
      rw [hep, Conn.put_ep_peer]; exact hat.running _ hy
  · show (c.ep x).sock.state = _
    rw [hep, Conn.put_ep_self]
  · show (c.ep x.peer).sock.state = _
    rw [hep, Conn.put_ep_peer]; exact hat.peer

/-- The handler of `x` takes a packet in flight, of which a copy stays in the network. -/
theorem At.deliver (hat : At s x a b) (ha : a ≠ .closed) (hw : asleep a = false)
    (hp : pkt ∈ s.conn.net x) (he : tjuHandlePacket 0 (s.conn.ep x) pkt = some (h, out)) :
    ∃ t, Leads s t ∧ At t x h.sock.state b ∧ ∀ p ∈ out, p ∈ t.conn.net x.peer := by
  have hstep : connStep s.conn (.deliver x pkt true 0) = some ((s.conn.put x h out [] []).seeFin x
      (takesFin (s.conn.ep x).sock.state (getFlags pkt))) := by
    simp only [connStep]
    rw [if_pos ⟨hp, by rw [hat.self]; exact hw⟩, he]
    rfl
  obtain ⟨hl, hat'⟩ := hat.put (e := .deliver x pkt true 0) ha rfl hstep (by rw [Conn.seeFin_ep])
    (by rw [Conn.seeFin_net])
  refine ⟨_, hl, hat', fun p hp => ?_⟩
  show p ∈ ((s.conn.put x h out [] []).seeFin x _).net x.peer
  rw [Conn.seeFin_net, Conn.put_net_peer]
  exact List.mem_append_right _ hp

/-- The handler of `x` takes a FIN in flight, and acknowledges it. -/
theorem At.finIn {seq : BitVec 32} (hat : At s x a b) (ha : a ≠ .closed) (hw : asleep a = false)
    (hp : pkt ∈ s.conn.net x) (hf : IsFin pkt)
    (he : tjuHandlePacket 0 (s.conn.ep x) pkt = some (h, [replyAck pkt seq])) :
    ∃ t, Leads s t ∧ At t x h.sock.state b ∧ AckComing t.conn x.peer := by
  obtain ⟨t, hl, hat', hmem⟩ := hat.deliver ha hw hp he
  refine ⟨t, hl, hat', _, hmem _ (List.mem_singleton_self _), replyAck_flags _ _, ?_⟩
  rw [replyAck_eq, getAck_wire, hat.inv.ctl.fins x pkt hp hf]

/-- The state of a waiting side behind the acknowledgement of its FIN. -/
def afterAck : State → State
  | .finWait1 => .finWait2
  | .closing => .timeWait
  | _ => .closed

/-- The acknowledgement of the FIN of `x` arrives. -/
theorem At.ackIn (hat : At s x a b) (hw : awaits a = true) (hc : AckComing s.conn x) :
    ∃ t, Leads s t ∧ At t x (afterAck a) b := by
  obtain ⟨p, hp, hf, hn⟩ := hc
  have hs := hat.self
  have he : tjuHandlePacket 0 (s.conn.ep x) p = some ((s.conn.ep x).setState (afterAck a), []) := by
    cases a <;> first
      | exact absurd hw (by decide)
      | simp only [tjuHandlePacket, hs, hf, hn, and_self, if_true, afterAck]
  have hawake : asleep a = false := by cases a <;> first | exact absurd hw (by decide) | rfl
  have hne : a ≠ .closed := fun h => by rw [h] at hw; cases hw
  obtain ⟨t, hl, ha, -⟩ := hat.deliver hne hawake hp he
  exact ⟨t, hl, ha⟩

/-- The peer sends its FIN again. -/
theorem At.resend {fl : Byte} (hat : At s x a b) (hk : keptFlags b = some fl) :
    ∃ t p, Leads s t ∧ At t x a b ∧ p ∈ t.conn.net x ∧ IsFin p ∧ getFlags p = fl := by
  have hne : b ≠ .closed := fun h => by rw [h] at hk; cases hk
  have hkeeps := hat.inv.keeps x.peer (by rw [hat.peer]; exact hne)
  rw [hat.peer, hk] at hkeeps
  obtain ⟨p, hp, hf⟩ := Option.map_eq_some_iff.1 hkeeps
  have hout : closeRetrans (s.conn.ep x.peer).sock = [p] := by
    unfold closeRetrans
    rw [if_pos (by rw [hat.peer]; exact hne), hp]
    rfl
  obtain ⟨hl, hat'⟩ := hat.swap.put (e := .closeRetrans x.peer) hne rfl rfl rfl rfl
  rw [hout] at hl hat'
  rw [hat.peer] at hat'
  have hback := hat'.swap
  rw [Side.peer_peer] at hback
  refine ⟨_, p, hl, hback, ?_, (hat.inv.ctl.pending x.peer p hp).1, hf⟩
  show p ∈ (s.conn.put x.peer _ [p] [] []).net x
  rw [Conn.put_peer_net]
  exact List.mem_append_right _ (List.mem_singleton_self p)

/-- The handler of `x` wakes up in CLOSE_WAIT. -/
theorem At.wakeClose (hat : At s x .closeWait b) : ∃ t, Leads s t ∧ At t x .lastAck b := by
  obtain ⟨r, hr, hst⟩ : ∃ r, wake (s.conn.ep x) = some r ∧ r.1.sock.state = .lastAck := by
    unfold wake; rw [hat.self]; exact ⟨_, rfl, rfl⟩
  obtain ⟨hl, ha⟩ := hat.put (e := .wake x) (by decide) rfl (congrArg (Option.map _) hr) rfl rfl
  exact ⟨_, hl, hst ▸ ha⟩

/-- The handler of `x` wakes up in TIME_WAIT. -/
theorem At.wakeDone (hat : At s x .timeWait b) : ∃ t, Leads s t ∧ At t x .closed b := by
  obtain ⟨r, hr, hst⟩ : ∃ r, wake (s.conn.ep x) = some r ∧ r.1.sock.state = .closed := by
    unfold wake; rw [hat.self]; exact ⟨_, rfl, rfl⟩
  obtain ⟨hl, ha⟩ := hat.put (e := .wake x) (by decide) rfl (congrArg (Option.map _) hr) rfl rfl
  exact ⟨_, hl, hst ▸ ha⟩

/-- The application of `x` calls `tju_close`. -/
theorem At.close (hat : At s x .established b) : ∃ t, Leads s t ∧ At t x .finWait1 b := by
  obtain ⟨r, hr, hst⟩ : ∃ r, tjuClose (s.conn.ep x) = some r ∧ r.1.sock.state = .finWait1 := by
    unfold tjuClose; rw [hat.self]; exact ⟨_, rfl, rfl⟩
  obtain ⟨hl, ha⟩ := hat.put (e := .close x) (by decide) rfl (congrArg (Option.map _) hr) rfl rfl
  exact ⟨_, hl, hst ▸ ha⟩

/-! ## Both sides are behind the FIN of the other one -/

/-- The states behind the FIN of the peer, once the own one is out. -/
def ending : State → Bool
  | .closing | .lastAck | .timeWait | .closed => true
  | _ => false

theorem ending_took (ha : ending a = true) : tookFin a = true := by
  cases a <;> first | rfl | cases ha

/-- Only a side in CLOSED has stopped to keep its FIN. -/
theorem ending_unkept : ending a = true → keptFlags a = none → a = .closed := by
  cases a <;> decide

/-- A side that waits for an ACK at most, which is in flight, gets to CLOSED. -/
theorem At.finish (hat : At s x a b) (ha : ending a = true)
    (hc : awaits a = true → AckComing s.conn x) : ∃ t, Leads s t ∧ At t x .closed b := by
  cases a with
  | closing =>
    obtain ⟨t, hl, ht⟩ := hat.ackIn rfl (hc rfl)
    obtain ⟨u, hl', hu⟩ := ht.wakeDone
    exact ⟨u, hl.trans hl', hu⟩
  | lastAck => exact hat.ackIn rfl (hc rfl)
  | timeWait => exact hat.wakeDone
  | closed => exact ⟨s, .refl s, hat⟩
  | _ => cases ha

theorem At.closes_ending (hat : At s x a b) (ha : ending a = true) (hb : ending b = true)
    (hc : awaits a = true → AckComing s.conn x)
    (hc' : awaits b = true → AckComing s.conn x.peer) : s.Closes := by
  obtain ⟨t, hl, ht⟩ := hat.finish ha hc
  obtain ⟨u, hl', hu⟩ := ht.swap.finish hb fun h => hl.ackComing (hc' h)
  refine hl.closes (hl'.closes ⟨u, ReachBy.refl, fun y => ?_⟩)
  rcases Side.eq_or_peer x.peer y with rfl | rfl
  · exact hu.self
  · exact hu.peer

/-! ## One side has still to get the FIN of the other one -/

/-- In FIN_WAIT_1, a FIN of the peer is taken. -/
theorem At.finIn_finWait1 (hat : At s x .finWait1 b) (hc : FinComing s.conn x) :
    ∃ t, Leads s t ∧ At t x .closing b ∧ AckComing t.conn x.peer := by
  obtain ⟨p, hp, hf⟩ := hc
  have hne : ¬ (getFlags p = ackFlagMask ∧ getAck p = finSeq + 1) := fun h => not_isFin_ack h.1 hf
  have he : tjuHandlePacket 0 (s.conn.ep x) p =
      some ((s.conn.ep x).setState .closing, [replyAck p (finSeq + 1)]) := by
    have hfin : getFlags p = finFlagMask ||| ackFlagMask ∨ getFlags p = finFlagMask := hf
    simp only [tjuHandlePacket, hat.self, if_neg hne, if_pos hfin, sendToLayer3_header]
  exact hat.finIn (by decide) rfl hp hf he

/-- In FIN_WAIT_2, a FIN|ACK of the peer is taken. -/
theorem At.closes_finWait2_finAck (hat : At s x .finWait2 b) (hc : FinAckComing s.conn x) :
    s.Closes := by
  have hb := hat.inv.finAckComing hc
  rw [hat.peer] at hb
  obtain ⟨p, hp, hf⟩ := hc
  have he : tjuHandlePacket 0 (s.conn.ep x) p =
      some ((s.conn.ep x).setState .timeWait, [replyAck p (getAck p)]) := by
    simp only [tjuHandlePacket, hat.self, hf, if_true, sendToLayer3_header]
  obtain ⟨t, hl, ht, hack⟩ := hat.finIn (by decide) rfl hp (Or.inl hf) he
  have hend : ending b = true := by rcases hb with rfl | rfl <;> rfl
  exact hl.closes (ht.closes_ending rfl hend (fun h => by cases h) fun _ => hack)

theorem At.closes_finWait2_lastAck (hat : At s x .finWait2 .lastAck) : s.Closes := by
  obtain ⟨t, p, hl, ht, hp, -, hf⟩ := hat.resend rfl
  exact hl.closes (ht.closes_finWait2_finAck ⟨p, hp, hf⟩)

theorem At.closes_finWait2_closeWait (hat : At s x .finWait2 .closeWait) : s.Closes := by
  obtain ⟨t, hl, ht⟩ := hat.swap.wakeClose
  have hback := ht.swap
  rw [Side.peer_peer] at hback
  exact hl.closes hback.closes_finWait2_lastAck

/-- A FIN arrives in ESTABLISHED. -/
theorem At.finIn_established (hat : At s x .established b) (hb : keptFlags b = some finFlagMask) :
    ∃ t, Leads s t ∧ At t x .closeWait b ∧ AckComing t.conn x.peer := by
  obtain ⟨t, p, hl, ht, hp, hfin, hf⟩ := hat.resend hb
  obtain ⟨u, hl', hu, hc⟩ := ht.finIn (by decide) rfl hp hfin (handle_fin ht.self hf)
  exact ⟨u, hl.trans hl', hu, hc⟩

theorem At.closes_finWait2_established (hat : At s x .finWait2 .established) : s.Closes := by
  obtain ⟨t, hl, ht, -⟩ := hat.swap.finIn_established rfl
  have hback := ht.swap
  rw [Side.peer_peer] at hback
  exact hl.closes hback.closes_finWait2_closeWait

/-- In FIN_WAIT_1, with the ACK in flight and a peer that is through. -/
theorem At.closes_finWait1_ending (hat : At s x .finWait1 b) (hb : ending b = true)
    (hc : AckComing s.conn x) (hf : b = .closed → FinComing s.conn x) : s.Closes := by
  obtain ⟨t, hl, ht, hfin⟩ : ∃ t, Leads s t ∧ At t x .finWait1 b ∧ FinComing t.conn x := by
    cases hk : keptFlags b with
    | some fl =>
      obtain ⟨t, p, hl, ht, hp, hfin, -⟩ := hat.resend hk
      exact ⟨t, hl, ht, p, hp, hfin⟩
    | none => exact ⟨s, .refl s, hat, hf (ending_unkept hb hk)⟩
  obtain ⟨u, hl', hu, hack⟩ := ht.finIn_finWait1 hfin
  exact hl.closes (hl'.closes (hu.closes_ending rfl hb (fun _ => hl'.ackComing (hl.ackComing hc))
    fun _ => hack))

theorem At.closes_finWait1_closeWait (hat : At s x .finWait1 .closeWait)
    (hc : AckComing s.conn x) : s.Closes := by
  obtain ⟨t, hl, ht⟩ := hat.swap.wakeClose
  have hback := ht.swap
  rw [Side.peer_peer] at hback
  exact hl.closes (hback.closes_finWait1_ending rfl (hl.ackComing hc) fun h => by cases h)

theorem At.closes_finWait1_established (hat : At s x .finWait1 .established) : s.Closes := by
  obtain ⟨t, hl, ht, hc⟩ := hat.swap.finIn_established rfl
  have hback := ht.swap
  rw [Side.peer_peer] at hback hc
  exact hl.closes (hback.closes_finWait1_closeWait hc)

/-- Both sides have closed, and neither has got the FIN of the other. -/
theorem At.closes_finWait1_finWait1 (hat : At s x .finWait1 .finWait1) : s.Closes := by
  obtain ⟨t, p, hl, ht, hp, hfin, -⟩ := hat.resend rfl
  obtain ⟨u, hl', hu, hc⟩ := ht.finIn_finWait1 ⟨p, hp, hfin⟩
  exact hl.closes (hl'.closes (hu.swap.closes_finWait1_ending rfl hc fun h => by cases h))

theorem At.closes_established (hat : At s x .established .established) : s.Closes := by
  obtain ⟨t, hl, ht⟩ := hat.close
  exact hl.closes ht.closes_finWait1_established

/-! ## Every reachable state -/

/-- A side in FIN_WAIT_2 that does not wait in vain. -/
theorem At.closes_finWait2 (hat : At s x .finWait2 b) (hs : Served s.conn x) : s.Closes := by
  unfold Served at hs
  rw [hat.self, hat.peer] at hs
  rcases hs with rfl | rfl | rfl | hc
  · exact hat.closes_finWait2_established
  · exact hat.closes_finWait2_closeWait
  · exact hat.closes_finWait2_lastAck
  · exact hat.closes_finWait2_finAck hc

/-- A side in FIN_WAIT_1 that does not wait in vain, with a peer that does not either. -/
theorem At.closes_finWait1 (hat : At s x .finWait1 b) (hs : Served s.conn x)
    (hs' : Served s.conn x.peer) : s.Closes := by
  have hopen := hat.inv.ctl.opened x.peer
  unfold Served at hs
  rw [hat.self, hat.peer] at hs
  rw [hat.peer] at hopen
  rcases hs with rfl | rfl | ⟨hc, hf⟩
  · exact hat.closes_finWait1_established
  · exact hat.closes_finWait1_finWait1
  · cases b with
    | established => exact hat.closes_finWait1_established
    | finWait1 => exact hat.closes_finWait1_finWait1
    | finWait2 => exact hat.swap.closes_finWait2 hs'
    | closeWait => exact hat.closes_finWait1_closeWait hc
    | listen => cases hopen
    | synSent => cases hopen
    | synRecv => cases hopen
    | _ => exact hat.closes_finWait1_ending rfl hc hf

/-- A waiting side gets its ACK from the network, if its peer is behind its FIN too. -/
theorem At.ackComing (hat : At s x a b) (ha : ending a = true) (hb : ending b = true)
    (hs : Served s.conn x) (hw : awaits a = true) : AckComing s.conn x := by
  unfold Served at hs
  rw [hat.self, hat.peer] at hs
  cases a with
  | closing => exact hs.resolve_left fun h => by rw [h] at hb; cases hb
  | lastAck =>
    rcases hs with h | h | h
    · rw [h] at hb; cases hb
    · rw [h] at hb; cases hb
    · exact h
  | finWait1 => cases ha
  | _ => cases hw

/-- The peer of a side that has sent no FIN has got none. -/
theorem At.not_heard (hat : At s x a b) (ha : a = .established ∨ a = .closeWait) :
    tookFin b = false := by
  rw [← hat.peer]
  exact hat.inv.not_heard (by rw [hat.self]; exact ha)

/-- A side that is behind the FIN of its peer. -/
theorem At.closes_behind (hat : At s x a b) (ha : ending a = true) (hs : Served s.conn x)
    (hs' : Served s.conn x.peer) : s.Closes := by
  have hopen := hat.inv.ctl.opened x.peer
  rw [hat.peer] at hopen
  have hsent : ¬ (b = .established ∨ b = .closeWait) := fun hb => by
    have htook := ending_took ha
    rw [hat.swap.not_heard hb] at htook
    cases htook
  have hback : Served s.conn x.peer.peer := by rw [Side.peer_peer]; exact hs
  cases b with
  | listen => cases hopen
  | synSent => cases hopen
  | synRecv => cases hopen
  | established => exact absurd (Or.inl rfl) hsent
  | closeWait => exact absurd (Or.inr rfl) hsent
  | finWait1 => exact hat.swap.closes_finWait1 hs' hback
  | finWait2 => exact hat.swap.closes_finWait2 hs'
  | _ => exact hat.closes_ending ha rfl (hat.ackComing ha rfl hs) (hat.swap.ackComing rfl ha hs')

/-- **A completable state closes**, by the state of one side. -/
theorem CloseInv.closes (hi : CloseInv s.conn) (hc : s.Completable) : s.Closes := by
  have hat : At s .client (s.conn.ep .client).sock.state (s.conn.ep Side.client.peer).sock.state :=
    ⟨hi, fun y => (hc y).2, rfl, rfl⟩
  have hs := (hc .client).1
  have hs' := (hc Side.client.peer).1
  have hopen := hi.ctl.opened .client
  have hopen' := hi.ctl.opened Side.client.peer
  generalize (s.conn.ep .client).sock.state = a at hat hopen
  generalize (s.conn.ep Side.client.peer).sock.state = b at hat hopen'
  cases a with
  | listen => cases hopen
  | synSent => cases hopen
  | synRecv => cases hopen
  | finWait1 => exact hat.closes_finWait1 hs hs'
  | finWait2 => exact hat.closes_finWait2 hs
  | established =>
    have hno := hat.not_heard (Or.inl rfl)
    cases b with
    | established => exact hat.closes_established
    | finWait1 => exact hat.swap.closes_finWait1 hs' hs
    | finWait2 => exact hat.swap.closes_finWait2 hs'
    | listen => cases hopen'
    | synSent => cases hopen'
    | synRecv => cases hopen'
    | _ => cases hno
  | closeWait =>
    have hno := hat.not_heard (Or.inr rfl)
    cases b with
    | established => cases hat.swap.not_heard (Or.inl rfl)
    | finWait1 => exact hat.swap.closes_finWait1 hs' hs
    | finWait2 => exact hat.swap.closes_finWait2 hs'
    | listen => cases hopen'
    | synSent => cases hopen'
    | synRecv => cases hopen'
    | _ => cases hno
  | _ => exact hat.closes_behind rfl hs hs'

/-- **The teardown.**  In every state that two connected processes reach, over a network that
    loses, repeats and reorders packets, both sides can still reach CLOSED if and only if no side
    waits in vain and no process has ended before its socket was CLOSED. -/
theorem teardown (client server : TjuSockAddr)
    (hr : Reach procsStep (.start client server) s) : s.Closes ↔ s.Completable := by
  have hi := closeInv_reached client server hr
  exact ⟨Procs.Closes.completable hi, hi.closes⟩

/-- A client and a server that have just connected. -/
def freshProcs : Procs := .start ⟨clientIp, 5678⟩ ⟨serverIp, 1234⟩

/-- A byte is sent and acknowledged; then the client closes, and the server takes its FIN. -/
def byteClosed : List ConnEv :=
  [.append .client [7], .sendPass .client 0,
    .deliver .server (dataPacket clientHost.sock 1 [7]) false 0,
    .deliver .client (bareAck 2) false 0, .close .client,
    .deliver .server (finPacket clientHost.sock 0 finFlagMask) false 0]

theorem teardown_byteClosed : ((exec procsStep freshProcs byteClosed).getD freshProcs).Closes :=
  (teardown ⟨clientIp, 5678⟩ ⟨serverIp, 1234⟩
    (.of_exec byteClosed (exec_getD (by decide +kernel) freshProcs))).2 (by decide +kernel)

/-- Both sides close, and the client takes an ACK for data that came early, numbered 1, for the one
    of its FIN: it takes no FIN of the server any more. -/
example : ¬ ((exec procsStep freshProcs [.append .client [7], .sendPass .client 0,
    .append .client [8], .alarm .client, .retransPass .client, .sendPass .client 0,
    .deliver .server (dataPacket clientHost.sock 2 [8]) false 0, .close .client, .close .server,
    .deliver .client (bareAck 1) false 0]).getD freshProcs).Completable := by
  decide +kernel

/-- The client closes, and the acknowledgement of its FIN is lost. -/
def lostAck : List ConnEv :=
  [.close .client,
    .deliver .server (finPacket clientHost.sock 0 finFlagMask) false 0,
    .lose .client (replyAck (finPacket clientHost.sock 0 finFlagMask) 0)]

/-- The client then waits in FIN_WAIT_1 for an acknowledgement that the server, in CLOSE_WAIT,
    never sends again. -/
theorem teardown_stuck : ¬ ∀ s, Reach procsStep freshProcs s →
    (∃ x, (s.conn.ep x).sock.state ≠ .established) → s.Closes := by
  intro hall
  have hrun : Reach procsStep freshProcs ((exec procsStep freshProcs lostAck).getD freshProcs) :=
    .of_exec lostAck (exec_getD (by decide +kernel) freshProcs)
  have hi := closeInv_reached ⟨clientIp, 5678⟩ ⟨serverIp, 1234⟩ hrun
  have hc := Procs.Closes.completable hi (hall _ hrun ⟨.client, by decide +kernel⟩)
  exact absurd hc (by decide +kernel)

end Tju
