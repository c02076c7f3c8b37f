/-
  What `tju_connect` may rely on.

  In SYN_SENT the handler tests only the number of an ACK, and `FIN_SEQ` and
  both initial numbers are the same, so that a packet left over from an earlier
  attempt of the same client can establish the connection.  `FromAttempt` are
  the steps in which no such packet is handled in SYN_SENT.

  `connect_sound`: in a run of such steps a client enters ESTABLISHED only by
  the SYN|ACK with which the listening socket answers its SYN.
-/
import TjuTcp.Attempts

namespace Tju

open Lib

/-- A client in SYN_SENT handles a packet with the number `CLIENT_ISN + 1` only if that belongs to
    its attempt. -/
def FromAttempt (s : Net) : NetEv → Prop
  | .clientDeliver a pkt _ _ => ∀ c, s.clients (getDst pkt) = some c →
      c.host.sock.state = .synSent → clientFinds (getDst pkt) c.targetAddr pkt = true →
      getAck pkt = clientIsn + 1 → a = s.attempt (getDst pkt)
  | _ => True

/-- The step from `s` to `s'` takes the client at `p` from SYN_SENT to ESTABLISHED. -/
def Establishes (s s' : Net) (p : BitVec 16) : Prop :=
  (∃ c, s.clients p = some c ∧ c.host.sock.state = .synSent) ∧
    ∃ c', s'.clients p = some c' ∧ c'.host.sock.state = .established

/-- The client at `p` handles the SYN|ACK that the listening socket has sent for its attempt. -/
def SynAckArrives (s : Net) (e : NetEv) (p : BitVec 16) : Prop :=
  s.answered (s.attempt p) = true ∧
    ∃ dst keep now, e = .clientDeliver (s.attempt p) (synAckPacket (synPacket p dst)) keep now

/-- The step `e` hands the client at `p` a packet with the number `CLIENT_ISN + 1`. -/
def AckArrives (s : Net) (e : NetEv) (p : BitVec 16) (c : Client) : Prop :=
  ∃ a pkt keep now, e = .clientDeliver a pkt keep now ∧ getDst pkt = p ∧ (a, pkt) ∈ s.toClient ∧
    clientFinds p c.targetAddr pkt = true ∧ getAck pkt = clientIsn + 1

variable {s s' : Net} {p : BitVec 16} {c c' : Client} {out : List Buf} {e : NetEv} {a : Attempt}

/-! ## One step -/

/-- A connected client was connected before, or enters ESTABLISHED in the step. -/
structure ConnectedBefore (s s' : Net) (e : NetEv) (p : BitVec 16) : Prop where
  attempt : s'.attempt p = s.attempt p
  client : ∃ c, s.clients p = some c ∧
    (connected c.host.sock.state = true ∨ c.host.sock.state = .synSent ∧ AckArrives s e p c)

theorem ConnectedBefore.same (hs : s'.clients p = s.clients p) (ha : s'.attempts p = s.attempts p)
    (hc' : s'.clients p = some c') (hconn : connected c'.host.sock.state = true) :
    ConnectedBefore s s' e p :=
  ⟨congrArg (Attempt.mk p) ha, c', hs ▸ hc', Or.inl hconn⟩

/-- The client of the step goes on. -/
theorem ConnectedBefore.put {p' : BitVec 16}
    (hstep : p' = p → connected c'.host.sock.state = true → ∃ c, s.clients p = some c ∧
      (connected c.host.sock.state = true ∨ c.host.sock.state = .synSent ∧ AckArrives s e p c))
    (hs : s'.clients = Function.update s.clients p' (some c')) (ha : s'.attempts = s.attempts)
    {c'' : Client} (hc'' : s'.clients p = some c'') (hconn : connected c''.host.sock.state = true) :
    ConnectedBefore s s' e p := by
  refine ⟨congrArg (Attempt.mk p) (by rw [ha]), ?_⟩
  rw [hs] at hc''
  rcases update_eq_some hc'' with ⟨rfl, rfl⟩ | ⟨-, hc''⟩
  · exact hstep rfl hconn
  · exact ⟨c'', hc'', Or.inl hconn⟩

theorem connectedBefore (hi : NetInv s) (he : netStep s e = some s')
    (hc' : s'.clients p = some c') (hconn : connected c'.host.sock.state = true) :
    ConnectedBefore s s' e p := by
  cases netStep_move he with
  | connect =>
    rcases update_eq_some hc' with ⟨-, rfl⟩ | ⟨hne, hc'⟩
    · cases hconn
    · refine ⟨?_, c', hc', Or.inl hconn⟩
      simp only [Net.attempt, Net.putClient, Function.update_of_ne hne]
  | @synRetrans _ c hc => exact .put (fun h hconn => ⟨c, h ▸ hc, Or.inl hconn⟩) rfl rfl hc' hconn
  | @connectReturn _ c hc _ hs =>
    exact .put (fun h _ => ⟨c, h ▸ hc, Or.inl (by rw [hs]; rfl)⟩) rfl rfl hc' hconn
  | @clientHandles a pkt keep now c _ _ hm hc _ hfind hh =>
    refine .put (fun h hconn' => ⟨c, h ▸ hc, ?_⟩) (by rw [Net.dropToClient_clients]; rfl)
      (by rw [Net.dropToClient_attempts]; rfl) hc' hconn
    rcases (hi.client _ c hc).2 with ⟨hs, -⟩ | ⟨hconn, -⟩
    · rcases handle_synSent hs hh with ⟨-, hack⟩ | ⟨rfl, -⟩
      · exact Or.inr ⟨hs, a, pkt, keep, now, rfl, h, hm, h ▸ hfind, hack⟩
      · exact absurd hs (connected_ne hconn')
    · exact Or.inl hconn
  | clientDrops => exact .same (by simp) (by simp) hc' hconn
  | @clientHost _ _ c _ _ hc _ hh =>
    exact .put (fun h _ => ⟨c, h ▸ hc, Or.inl (hostStep_connected hh).1⟩) rfl rfl hc' hconn
  | clientDone =>
    have hne := (update_none_eq_some hc').1
    exact .same (by simp only [Function.update_of_ne hne]) rfl hc' hconn
  | serverHandles =>
    exact .same (by rw [Net.dropToServer_clients]; rfl) (by rw [Net.dropToServer_attempts]; rfl)
      hc' hconn
  | listens =>
    exact .same (by rw [Net.dropToServer_clients]; rfl) (by rw [Net.dropToServer_attempts]; rfl)
      hc' hconn
  | serverDrops => exact .same (by simp) (by simp) hc' hconn
  | accept => exact .same rfl rfl hc' hconn
  | serverHost => exact .same rfl rfl hc' hconn
  | serverDone => exact .same rfl rfl hc' hconn

/-- What the listening socket has answered stays answered. -/
theorem answered_mono (he : netStep s e = some s') (h : s.answered a = true) :
    s'.answered a = true := by
  cases netStep_move he with
  | clientHandles => rw [Net.dropToClient_answered]; exact h
  | clientDrops => simpa using h
  | serverHandles => rw [Net.dropToServer_answered]; exact h
  | listens => rw [Net.dropToServer_answered]; exact mark_of h
  | serverDrops => simpa using h
  | _ => exact h

/-- **A packet of the own attempt** that reaches a client in SYN_SENT is the SYN|ACK. -/
theorem NetInv.synAck (hi : NetInv s) (hc : s.clients p = some c)
    (hs : c.host.sock.state = .synSent) (hack : AckArrives s e p c) (hfrom : FromAttempt s e) :
    SynAckArrives s e p := by
  obtain ⟨a, pkt, keep, now, rfl, rfl, hm, hfind, hn⟩ := hack
  have ha := hfrom c hc hs hfind hn
  subst ha
  have hno : s.completed (s.attempt (getDst pkt)) = false := by
    rcases (hi.client _ c hc).2 with ⟨-, h⟩ | ⟨h, -⟩
    · exact h
    · exact absurd hs (connected_ne h)
  rcases hi.back _ hm with ⟨⟨dst, hp⟩, hans⟩ | h
  · refine ⟨hans, dst, keep, now, ?_⟩
    change pkt = synAckPacket (synPacket (getDst pkt) dst) at hp
    rw [← hp]
  · exact absurd (hno.symm.trans h) (by decide)

/-- The SYN|ACK belongs to the attempt. -/
theorem SynAckArrives.fromAttempt (h : SynAckArrives s e p) : FromAttempt s e := by
  obtain ⟨-, dst, keep, now, rfl⟩ := h
  intro c _ _ _ _
  rw [synAckPacket_eq, getDst_wire, synPacket_eq, getSrc_wire]

/-- **A step establishes a client by the SYN|ACK for its attempt** if and only if it meets
    `FromAttempt`. -/
theorem establishes_iff (hi : NetInv s) (he : netStep s e = some s') (hp : Establishes s s' p) :
    FromAttempt s e ↔ SynAckArrives s e p := by
  obtain ⟨⟨c, hc, hs⟩, c', hc', hest⟩ := hp
  refine ⟨fun hfrom => ?_, SynAckArrives.fromAttempt⟩
  have hconn : connected c'.host.sock.state = true := by rw [hest]; rfl
  obtain ⟨c₀, hc₀, h⟩ := (connectedBefore hi he hc' hconn).client
  rw [hc] at hc₀
  cases hc₀
  rcases h with h | ⟨-, hack⟩
  · exact absurd hs (connected_ne h)
  · exact hi.synAck hc hs hack hfrom

/-! ## Runs -/

/-- Every client that is connected was answered. -/
structure ConnectInv (s : Net) : Prop where
  net : NetInv s
  answered : ∀ p c, s.clients p = some c → connected c.host.sock.state = true →
    s.answered (s.attempt p) = true

theorem connectInv_step (hi : ConnectInv s) (hfrom : FromAttempt s e)
    (he : netStep s e = some s') : ConnectInv s' := by
  refine ⟨netInv_step hi.net he, fun p c' hc' hconn => answered_mono he ?_⟩
  obtain ⟨hatt, c, hc, h⟩ := connectedBefore hi.net he hc' hconn
  rw [hatt]
  rcases h with h | ⟨hs, hack⟩
  · exact hi.answered p c hc h
  · exact (hi.net.synAck hc hs hack hfrom).1

/-- **What `tju_connect` may rely on.**  In every state reached by a run of such steps, the
    listening socket has sent a SYN|ACK for the attempt of every client that has left SYN_SENT; and
    the next step that establishes a client does so by that SYN|ACK if and only if it is such a step
    too. -/
theorem connect_sound (bindAddr : TjuSockAddr)
    (hr : ReachBy netStep FromAttempt (.start bindAddr) s) :
    (∀ p c, s.clients p = some c → c.host.sock.state ≠ .synSent →
      s.answered (s.attempt p) = true) ∧
    ∀ p e s', netStep s e = some s' → Establishes s s' p →
      (FromAttempt s e ↔ SynAckArrives s e p) := by
  have hi : ConnectInv s := hr.inv ⟨netInv_start bindAddr, fun p c hc => by cases hc⟩
    fun _ _ _ hi hfrom he => connectInv_step hi hfrom he
  refine ⟨fun p c hc hne => ?_, fun p e s' he hp => establishes_iff hi.net he hp⟩
  rcases (hi.net.client p c hc).2 with ⟨hs, -⟩ | ⟨hconn, -⟩
  · exact absurd hs hne
  · exact hi.answered p c hc hconn

/-- The address at which the server listens. -/
def serverAddr : TjuSockAddr := ⟨serverIp, 1234⟩

/-- A client connects, and the server accepts it. -/
def handshakeRun (p : BitVec 16) : List NetEv :=
  let syn := synPacket p 1234
  let synAck := synAckPacket syn
  [.connect p serverAddr ⟨0, 0⟩,
    .serverDeliver ⟨p, 1⟩ syn false 0,
    .clientDeliver ⟨p, 1⟩ synAck false 0,
    .serverDeliver ⟨p, 1⟩ (replyAck synAck 1) false 0,
    .accept, .connectReturn p]

/-- The client closes, and a copy of the FIN|ACK of the server stays in flight. -/
def closeRun : List NetEv :=
  let fin := finPacket clientHost.sock 0 finFlagMask
  let serverSock := { tjuSocket with
    establishedLocalAddr := serverAddr
    establishedRemoteAddr := ⟨clientIp, 5678⟩ }
  let finAck := finPacket serverSock 1 (finFlagMask ||| ackFlagMask)
  [.clientHost 5678 .close,
    .serverDeliver ⟨5678, 1⟩ fin false 0,
    .serverHost 0 .wake,
    .clientDeliver ⟨5678, 1⟩ (replyAck fin 0) false 0,
    .clientDeliver ⟨5678, 1⟩ finAck true 0,
    .clientHost 5678 .wake,
    .clientDone 5678,
    .connect 5678 serverAddr ⟨0, 0⟩,
    .clientDeliver ⟨5678, 1⟩ finAck true 0]

theorem connect_sound_handshake :
    ∃ s, exec netStep (.start serverAddr) (handshakeRun 5678) = some s ∧
      (∀ p c, s.clients p = some c → c.host.sock.state ≠ .synSent →
        s.answered (s.attempt p) = true) ∧
      ∀ p e s', netStep s e = some s' → Establishes s s' p →
        (FromAttempt s e ↔ SynAckArrives s e p) := by
  obtain ⟨s, hs⟩ := Option.isSome_iff_exists.1
    (show (exec netStep (.start serverAddr) (handshakeRun 5678)).isSome = true by decide)
  have hfrom : Along netStep FromAttempt (.start serverAddr) (handshakeRun 5678) := by
    refine ⟨trivial, fun s1 h1 => ⟨trivial, fun s2 h2 => ⟨?_, fun s3 _ => ⟨trivial, fun s4 _ =>
      ⟨trivial, fun s5 _ => ⟨trivial, fun s6 _ => trivial⟩⟩⟩⟩⟩⟩
    cases h1
    cases h2
    exact fun c _ _ _ _ => rfl
  exact ⟨s, hs, connect_sound serverAddr (.of_along _ hfrom hs)⟩

/-- The client connects again, and the FIN|ACK of the first connection establishes the second one,
    whose SYN the server has not received. -/
theorem connect_stale : ¬ ∀ s, Reach netStep (.start serverAddr) s → ∀ p c,
    s.clients p = some c → c.host.sock.state ≠ .synSent → s.answered (s.attempt p) = true := by
  intro hall
  have hend : (exec netStep (.start serverAddr) (handshakeRun 5678 ++ closeRun)).map (fun s =>
      ((s.clients 5678).map fun c => c.host.sock.state, s.answered (s.attempt 5678))) =
      some (some .established, false) := by decide +kernel
  obtain ⟨s, hs, hst⟩ := Option.map_eq_some_iff.1 hend
  obtain ⟨hc, hans⟩ := Prod.mk.inj hst
  obtain ⟨c, hc, hest⟩ := Option.map_eq_some_iff.1 hc
  have hgood := hall s (.of_exec _ hs) 5678 c hc (by rw [hest]; decide)
  exact absurd (hans.symm.trans hgood) (by decide)

end Tju
