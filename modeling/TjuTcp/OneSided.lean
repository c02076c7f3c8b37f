/-
  No side closes alone.

  A connection is watched from a state in which both sides are ESTABLISHED and
  no FIN is in flight: `sentFin` notes the sides that have put a FIN on the
  network since.  `WatchInv` is what every step keeps: a side in ESTABLISHED
  has sent no FIN, a side that is closing or closed was sent one by its peer,
  and a side that has left CLOSE_WAIT has sent its own.

  `no_one_sided_close`: so the peer of a side that has taken a FIN is not in
  ESTABLISHED, and both sides have sent a FIN when one of them is through.
-/
import TjuTcp.CloseStream

namespace Tju

open Lib

/-- A connection, and the sides that have sent a FIN on it. -/
structure Watched where
  conn : Conn
  sentFin : Side → Bool

/-- A step of the connection, watching for FINs on the network. -/
def watchStep (s : Watched) (e : ConnEv) : Option Watched :=
  (connStep s.conn e).map fun c =>
    ⟨c, fun x => s.sentFin x || (c.net x.peer).any fun p => decide (IsFin p)⟩

/-- Both sides are ESTABLISHED, and no FIN is in flight or kept for retransmission. -/
structure BothOpen (c : Conn) : Prop where
  state : ∀ x, (c.ep x).sock.state = .established
  packetFIN : ∀ x, (c.ep x).sock.packetFIN = none
  net : ∀ x, ∀ p ∈ c.net x, ¬ IsFin p

/-- The states behind the own FIN. -/
def ownFin : State → Bool
  | .established | .closeWait => false
  | _ => true

structure WatchInv (s : Watched) : Prop where
  ctl : CtlInv s.conn
  net : ∀ x, ∀ p ∈ s.conn.net x.peer, IsFin p → s.sentFin x = true
  opened : ∀ x, (s.conn.ep x).sock.state = .established →
    s.sentFin x = false ∧ (s.conn.ep x).sock.packetFIN = none
  took : ∀ x, tookFin (s.conn.ep x).sock.state = true → s.sentFin x.peer = true
  own : ∀ x, ownFin (s.conn.ep x).sock.state = true → s.sentFin x = true

variable {s s' : Watched} {c c' : Conn} {x : Side} {e : ConnEv} {st : State} {fin : Option Buf}
  {out : List Buf} {b : Bool}

/-! ## One step -/

/-- The states behind the own FIN are entered by sending it. -/
theorem CtlStep.own_back (hst : CtlStep c x e st fin out b) (he : connStep c e = some c')
    (h : ownFin st = true) :
    ownFin (c.ep x).sock.state = true ∨ ∃ p ∈ c'.net x.peer, IsFin p := by
  cases hst with
  | quiet => exact Or.inl h
  | dataAck => cases h
  | finIn => cases h
  | closeStep _ _ hc =>
    generalize (c.ep x).sock.state = old at hc
    cases hc with
    | ignore => exact Or.inl h
    | _ => exact Or.inl rfl
  | close hs =>
    cases connStep_move he with
    | close =>
      refine Or.inr ⟨_, ?_, (finPacket_isFin (c.ep x).sock 0 finFlagMask (Or.inr rfl)).1⟩
      rw [Conn.put_net_peer]
      exact List.mem_append_right _ (List.mem_singleton.2 rfl)
    | closeAgain hs' => rw [hs] at hs'; cases hs'
  | resend => exact Or.inl h
  | finOut hs =>
    cases connStep_move he with
    | finOut =>
      refine Or.inr ⟨_, ?_, (finPacket_isFin (c.ep x).sock (c.ep x).closeAck _ (Or.inl rfl)).1⟩
      rw [Conn.put_net_peer]
      exact List.mem_append_right _ (List.mem_singleton.2 rfl)
    | done hs' => rw [hs] at hs'; cases hs'
  | done hs => rw [hs]; exact Or.inl rfl

/-- Who is noted: the sides noted before, and those with a FIN on the network. -/
theorem watchStep_sentFin (he : watchStep s e = some s') (y : Side) :
    s'.sentFin y = true ↔ s.sentFin y = true ∨ ∃ p ∈ s'.conn.net y.peer, IsFin p := by
  obtain ⟨c', -, rfl⟩ := Option.map_eq_some_iff.1 he
  simp

theorem watchInv_step (hi : WatchInv s) (he : watchStep s e = some s') : WatchInv s' := by
  have hnoted := watchStep_sentFin he
  obtain ⟨c', hc, hs'⟩ := Option.map_eq_some_iff.1 he
  have hconn : s'.conn = c' := by rw [← hs']
  rw [← hconn] at hc
  obtain ⟨x, st, fin, out, b, hst, hv⟩ := connStep_ctl hi.ctl.notSynSent hc
  refine ⟨ctlInv_step hi.ctl hc, fun y p hp hf => (hnoted y).2 (Or.inr ⟨p, hp, hf⟩), fun y hy => ?_,
    fun y hy => ?_, fun y hy => ?_⟩ <;> rcases Side.eq_or_peer x y with rfl | rfl
  · -- a side that stays in ESTABLISHED sends no FIN
    rw [hv.state] at hy
    obtain ⟨hno, hpend⟩ := hi.opened y (hst.not_back hy)
    obtain ⟨hout, hfin⟩ := hst.silent hy hpend
    refine ⟨Bool.eq_false_iff.2 fun h => ?_, hv.packetFIN.trans hfin⟩
    rcases (hnoted y).1 h with h | ⟨p, hp, hf⟩
    · rw [hno] at h; cases h
    · rcases hv.netPeer p hp with h | h | h
      · rw [hi.net y p h hf] at hno; cases hno
      · exact hout p h hf
      · exact not_isFin_data h.2 hf
  · rw [hv.peer] at hy
    obtain ⟨hno, hpend⟩ := hi.opened _ hy
    refine ⟨Bool.eq_false_iff.2 fun h => ?_, by rw [hv.peer]; exact hpend⟩
    rcases (hnoted _).1 h with h | ⟨p, hp, hf⟩
    · rw [hno] at h; cases h
    · rw [Side.peer_peer] at hp
      have := hi.net x.peer p (by rw [Side.peer_peer]; exact hv.net p hp) hf
      rw [hno] at this; cases this
  · rw [hv.state] at hy
    refine (hnoted _).2 (Or.inl ?_)
    rcases hst.took_back hy with h | ⟨pkt, hp, hf⟩
    · exact hi.took y h
    · exact hi.net y.peer pkt (by rw [Side.peer_peer]; exact hp) hf
  · rw [hv.peer] at hy
    exact (hnoted _).2 (Or.inl (hi.took _ hy))
  · rw [hv.state] at hy
    rcases hst.own_back hc hy with h | h
    · exact (hnoted y).2 (Or.inl (hi.own y h))
    · exact (hnoted y).2 (Or.inr h)
  · rw [hv.peer] at hy
    exact (hnoted _).2 (Or.inl (hi.own _ hy))

/-! ## Runs -/

theorem watchInv_start (hc : BothOpen c) : WatchInv ⟨c, fun _ => false⟩ where
  ctl := ⟨fun x => by rw [hc.state x]; rfl, fun x p hp hf => absurd hf (hc.net x p hp),
    fun x p hp => by rw [hc.packetFIN x] at hp; cases hp⟩
  net x p hp hf := absurd hf (hc.net x.peer p hp)
  opened x _ := ⟨rfl, hc.packetFIN x⟩
  took x h := by rw [hc.state x] at h; cases h
  own x h := by rw [hc.state x] at h; cases h

/-- **No side closes alone.**  From both sides ESTABLISHED with no FIN in flight, in every state
    reached: the peer of a side in CLOSE_WAIT, CLOSING, LAST_ACK, TIME_WAIT or CLOSED is not
    ESTABLISHED, and if a side is in TIME_WAIT or CLOSED then both have sent a FIN. -/
theorem no_one_sided_close (hc : BothOpen c) (hr : Reach watchStep ⟨c, fun _ => false⟩ s) (x : Side) :
    (tookFin (s.conn.ep x).sock.state = true → (s.conn.ep x.peer).sock.state ≠ .established) ∧
      ((s.conn.ep x).sock.state = .timeWait ∨ (s.conn.ep x).sock.state = .closed →
        s.sentFin x = true ∧ s.sentFin x.peer = true) := by
  have hi := hr.inv (watchInv_start hc) fun _ _ _ hi _ he => watchInv_step hi he
  refine ⟨fun h hopen => ?_, fun h => ⟨hi.own x ?_, hi.took x ?_⟩⟩
  · have hno := (hi.opened _ hopen).1
    rw [hi.took x h] at hno
    cases hno
  · rcases h with h | h <;> rw [h] <;> rfl
  · rcases h with h | h <;> rw [h] <;> rfl

theorem freshConn_bothOpen : BothOpen freshConn where
  state x := by cases x <;> rfl
  packetFIN x := by cases x <;> rfl
  net := handshake_not_isFin _ _

/-- The client closes, and its FIN moves the server to CLOSE_WAIT. -/
theorem no_one_sided_close_finIn :
    let s := (exec watchStep ⟨freshConn, fun _ => false⟩
      [.close .client, .deliver .server (finPacket clientHost.sock 0 finFlagMask) false 0]).getD
        ⟨freshConn, fun _ => false⟩
    (s.conn.ep .server).sock.state = .closeWait ∧ (s.conn.ep .client).sock.state ≠ .established := by
  intro s
  have hr : Reach watchStep ⟨freshConn, fun _ => false⟩ s := .of_exec
    [.close .client, .deliver .server (finPacket clientHost.sock 0 finFlagMask) false 0] rfl
  exact ⟨rfl, (no_one_sided_close freshConn_bothOpen hr .server).1 rfl⟩

end Tju
