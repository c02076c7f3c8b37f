/-
  The teardown of a connection.

  `Procs` is a connection with the processes that have ended: `tju_close` exits
  outside of ESTABLISHED and LAST_ACK.  A side that is closing waits for a
  packet, which comes from the network or from a peer in one of the few states
  that still send it.  `Served` says that it can still come, and `Completable`
  that this is so for both sides.

  * `closeInv_step`: which FIN each side keeps, and that no other one of it is in
    flight, in every run of the connection;
  * `served_back`: no step serves a side that was not served before;
  * `Procs.Closes.completable`: so a side that waits in vain does so for ever.
-/
import TjuTcp.Control

namespace Tju

open Lib

/-- The side waits for the acknowledgement of its FIN. -/
def awaits : State → Bool
  | .finWait1 | .closing | .lastAck => true
  | _ => false

/-- An acknowledgement of the FIN of `x` is in flight. -/
def AckComing (s : Conn) (x : Side) : Prop :=
  ∃ p ∈ s.net x, getFlags p = ackFlagMask ∧ getAck p = finSeq + 1

/-- A FIN, with or without an ACK, is in flight to `x`. -/
def FinComing (s : Conn) (x : Side) : Prop := ∃ p ∈ s.net x, IsFin p

/-- A FIN|ACK is in flight to `x`. -/
def FinAckComing (s : Conn) (x : Side) : Prop :=
  ∃ p ∈ s.net x, getFlags p = finFlagMask ||| ackFlagMask

instance (s : Conn) (x : Side) : Decidable (AckComing s x) :=
  inferInstanceAs (Decidable (∃ p ∈ s.net x, _ ∧ _))

instance (s : Conn) (x : Side) : Decidable (FinComing s x) :=
  inferInstanceAs (Decidable (∃ p ∈ s.net x, _))

instance (s : Conn) (x : Side) : Decidable (FinAckComing s x) :=
  inferInstanceAs (Decidable (∃ p ∈ s.net x, _ = _))

/-- What a side in the first state waits for can still come from a peer in the second one, or is
    in flight: an ACK of its FIN, a FIN, a FIN|ACK. -/
def ServedBy (ack fin finAck : Prop) : State → State → Prop
  | .finWait1, b => b = .established ∨ b = .finWait1 ∨ ack ∧ (b = .closed → fin)
  | .finWait2, b => b = .established ∨ b = .closeWait ∨ b = .lastAck ∨ finAck
  | .closing, b => b = .finWait1 ∨ ack
  | .lastAck, b => b = .finWait1 ∨ b = .finWait2 ∨ ack
  | _, _ => True

instance (A F FA : Prop) [Decidable A] [Decidable F] [Decidable FA] (a b : State) :
    Decidable (ServedBy A F FA a b) :=
  match a with
  | .finWait1 => inferInstanceAs (Decidable (_ ∨ _ ∨ _ ∧ (_ → _)))
  | .finWait2 => inferInstanceAs (Decidable (_ ∨ _ ∨ _ ∨ _))
  | .closing => inferInstanceAs (Decidable (_ ∨ _))
  | .lastAck => inferInstanceAs (Decidable (_ ∨ _ ∨ _))
  | .closed | .listen | .synSent | .synRecv | .established | .closeWait | .timeWait =>
    inferInstanceAs (Decidable True)

/-- The side `x` does not wait in vain. -/
def Served (s : Conn) (x : Side) : Prop :=
  ServedBy (AckComing s x) (FinComing s x) (FinAckComing s x) (s.ep x).sock.state
    (s.ep x.peer).sock.state

instance (s : Conn) (x : Side) : Decidable (Served s x) :=
  inferInstanceAs (Decidable (ServedBy ..))

/-! ## Two processes that can end -/

/-- A connection, and the processes that have ended. -/
structure Procs where
  conn : Conn
  exited : Side → Bool

/-- The process that makes the step. -/
def ConnEv.doer : ConnEv → Option Side
  | .append x _ | .sendPass x _ | .retransPass x | .alarm x | .deliver x _ _ _ | .recv x _
  | .close x | .closeRetrans x | .wake x => some x
  | .lose .. => none

/-- A process that has ended makes no step, and `tju_close` ends it in a wrong state. -/
def procsStep (s : Procs) (e : ConnEv) : Option Procs :=
  if e.doer.any s.exited then none
  else match connStep s.conn e, e with
    | some c, _ => some { s with conn := c }
    | none, .close x => some { s with exited := Function.update s.exited x true }
    | none, _ => none

/-- Both processes run, with the packets of the handshake still in flight. -/
def Procs.start (client server : TjuSockAddr) : Procs where
  conn := .start client server (handshake client server)
  exited _ := false

/-- From here on both sides can reach CLOSED. -/
def Procs.Closes (s : Procs) : Prop :=
  ∃ t, Reach procsStep s t ∧ ∀ x, (t.conn.ep x).sock.state = .closed

/-- No side waits in vain, and no process has ended before its socket was CLOSED. -/
def Procs.Completable (s : Procs) : Prop :=
  ∀ x, Served s.conn x ∧ (s.exited x = true → (s.conn.ep x).sock.state = .closed)

instance (s : Procs) : Decidable s.Completable :=
  decidable_of_iff
    ((Served s.conn .client ∧
        (s.exited .client = true → (s.conn.ep .client).sock.state = .closed)) ∧
      Served s.conn .server ∧
        (s.exited .server = true → (s.conn.ep .server).sock.state = .closed))
    ⟨fun h x => by cases x; exacts [h.1, h.2], fun h => ⟨h .client, h .server⟩⟩

/-- What an event makes of the two processes. -/
inductive ProcsMove (s : Procs) : ConnEv → Procs → Prop
  | conn {e : ConnEv} {c : Conn} : (∀ x, e.doer = some x → s.exited x = false) →
      connStep s.conn e = some c → ProcsMove s e { s with conn := c }
  | exit {x : Side} : s.exited x = false → tjuClose (s.conn.ep x) = none →
      ProcsMove s (.close x) { s with exited := Function.update s.exited x true }

variable {s s' : Conn} {x y : Side} {a b st st' : State} {fin : Option Buf} {out : List Buf}
  {c : Bool} {pkt : Buf} {e : ConnEv} {A F FA A' F' FA' : Prop} {p p' : Procs}

/-- **What an event makes of the two processes.** -/
theorem procsStep_move (he : procsStep p e = some p') : ProcsMove p e p' := by
  unfold procsStep at he
  split_ifs at he with hex
  have hrun : ∀ x, e.doer = some x → p.exited x = false := fun x hx => by
    rw [hx] at hex
    exact Bool.eq_false_iff.2 hex
  cases hc : connStep p.conn e with
  | some c =>
    rw [hc] at he
    cases he
    exact .conn hrun hc
  | none =>
    rw [hc] at he
    cases e with
    | close x =>
      cases he
      exact .exit (hrun x rfl) (Option.map_eq_none_iff.1 hc)
    | _ => cases he

/-- A step of the connection by a process that has not ended. -/
theorem procsStep_conn {s' : Conn} (hrun : ∀ x, e.doer = some x → p.exited x = false)
    (he : connStep p.conn e = some s') : procsStep p e = some { p with conn := s' } := by
  have hex : ¬ (e.doer.any p.exited = true) := by
    cases hd : e.doer with
    | none => exact Bool.false_ne_true
    | some x => rw [Option.any_some, hrun x hd]; exact Bool.false_ne_true
  unfold procsStep
  rw [if_neg hex, he]

/-- A step of one process leaves the other one as it is. -/
theorem connStep_peer (he : connStep s e = some s') (hx : e.doer ≠ some x) : s'.ep x = s.ep x := by
  have hput : ∀ y (h : Host) (out : List Buf) (snt rd : List Byte), some y ≠ some x →
      (s.put y h out snt rd).ep x = s.ep x := fun y h out snt rd hy => by
    rcases Side.eq_or_peer y x with rfl | rfl
    · exact absurd rfl hy
    · exact Conn.put_ep_peer
  cases connStep_move he with
  | deliver => rw [Conn.seeFin_ep, Conn.consume_ep]; exact hput _ _ _ _ _ hx
  | lose => rw [Conn.consume_ep]
  | _ => exact hput _ _ _ _ _ hx

/-- A run of the processes is one of the connection. -/
theorem Procs.reach_conn (h : Reach procsStep p p') : Reach connStep p.conn p'.conn := by
  induction h with
  | refl => exact ReachBy.refl
  | tail _ hn ih =>
    obtain ⟨e, -, he⟩ := hn
    cases procsStep_move he with
    | conn _ hc => exact ih.tail trivial hc
    | exit => exact ih

/-! ## The FIN that a side keeps -/

/-- The FIN that a side keeps for retransmission, in every state but CLOSED. -/
def keptFlags : State → Option Byte
  | .finWait1 | .finWait2 | .closing | .timeWait => some finFlagMask
  | .lastAck => some (finFlagMask ||| ackFlagMask)
  | _ => none

/-- Each side has at most one FIN, keeps it, and has got one if it is behind that of its peer. -/
structure CloseInv (s : Conn) : Prop where
  ctl : CtlInv s
  sent : ∀ x, ∀ p ∈ s.net x.peer, IsFin p → (s.ep x).sock.packetFIN = some p
  keeps : ∀ x, (s.ep x).sock.state ≠ .closed →
    (s.ep x).sock.packetFIN.map getFlags = keptFlags (s.ep x).sock.state
  heard : ∀ x, tookFin (s.ep x).sock.state = true → (s.ep x.peer).sock.packetFIN ≠ none

/-- A FIN in flight to `x` is the one that its peer keeps. -/
theorem CloseInv.fromPeer (hi : CloseInv s) (hp : pkt ∈ s.net x) (hf : IsFin pkt) :
    (s.ep x.peer).sock.packetFIN = some pkt :=
  hi.sent x.peer pkt (by rw [Side.peer_peer]; exact hp) hf

theorem CloseInv.unsent (hi : CloseInv s)
    (hs : (s.ep x).sock.state = .established ∨ (s.ep x).sock.state = .closeWait) :
    (s.ep x).sock.packetFIN = none := by
  rcases hs with hs | hs
  all_goals
    have hk := hi.keeps x (by rw [hs]; decide)
    rw [hs] at hk
    exact Option.map_eq_none_iff.1 hk

/-- The peer of a side that has sent no FIN has got none. -/
theorem CloseInv.not_heard (hi : CloseInv s)
    (hs : (s.ep x).sock.state = .established ∨ (s.ep x).sock.state = .closeWait) :
    tookFin (s.ep x.peer).sock.state = false := by
  rw [Bool.eq_false_iff]
  intro ht
  have hne := hi.heard x.peer ht
  rw [Side.peer_peer] at hne
  exact hne (hi.unsent hs)

/-- A side that keeps a FIN|ACK is in LAST_ACK, or CLOSED. -/
theorem CloseInv.keepsFinAck (hi : CloseInv s) (hk : (s.ep x).sock.packetFIN = some pkt)
    (hf : getFlags pkt = finFlagMask ||| ackFlagMask) :
    (s.ep x).sock.state = .lastAck ∨ (s.ep x).sock.state = .closed := by
  by_cases hc : (s.ep x).sock.state = .closed
  · exact Or.inr hc
  · have hkeep := hi.keeps x hc
    rw [hk, Option.map_some, hf] at hkeep
    refine Or.inl ?_
    cases hs : (s.ep x).sock.state <;> rw [hs] at hkeep <;> revert hkeep <;> decide

/-- A FIN|ACK in flight to `x` comes from a peer in LAST_ACK, or CLOSED. -/
theorem CloseInv.finAckComing (hi : CloseInv s) (h : FinAckComing s x) :
    (s.ep x.peer).sock.state = .lastAck ∨ (s.ep x.peer).sock.state = .closed := by
  obtain ⟨q, hq, hf⟩ := h
  exact hi.keepsFinAck (hi.fromPeer hq (Or.inl hf)) hf

/-- What one step makes of the FIN of its side: it stays, or is the first one; no other one is
    sent; and it has the flags of the new state. -/
structure FinStep (s : Conn) (x : Side) (st : State) (fin : Option Buf) (out : List Buf) :
    Prop where
  stays : (s.ep x).sock.packetFIN = none ∨ fin = (s.ep x).sock.packetFIN
  sent : ∀ p ∈ out, IsFin p → fin = some p
  keeps : st ≠ .closed → fin.map getFlags = keptFlags st

/-- A step to a state that keeps the same FIN, and sends none. -/
theorem FinStep.same (hi : CloseInv s) (hout : ∀ p ∈ out, ¬ IsFin p) (hk : st ≠ .closed →
      (s.ep x).sock.state ≠ .closed ∧ keptFlags (s.ep x).sock.state = keptFlags st) :
    FinStep s x st (s.ep x).sock.packetFIN out where
  stays := Or.inr rfl
  sent p hp hf := absurd hf (hout p hp)
  keeps h := by
    obtain ⟨hne, heq⟩ := hk h
    rw [hi.keeps x hne, heq]

/-- **One step of one side.** -/
theorem CtlStep.finStep (hi : CloseInv s) (hst : CtlStep s x e st fin out c) :
    FinStep s x st fin out := by
  cases hst with
  | quiet => exact .same hi (fun p hp => by cases hp) fun h => ⟨h, rfl⟩
  | dataAck hs =>
    refine .same hi (fun p hp => ?_) fun _ => by rw [hs]; exact ⟨by decide, rfl⟩
    rw [List.mem_singleton.1 hp]
    exact not_isFin_ack (ackPacket_flags _)
  | finIn hs =>
    refine .same hi (fun p hp => ?_) fun _ => by rw [hs]; exact ⟨by decide, rfl⟩
    rw [List.mem_singleton.1 hp]
    exact not_isFin_ack (replyAck_flags _ _)
  | closeStep _ _ hc =>
    refine .same hi (fun p hp => ?_) ?_
    · obtain ⟨seq, rfl, -⟩ := hc.acks p hp
      exact not_isFin_ack (replyAck_flags _ _)
    · generalize (s.ep x).sock.state = old at hc
      cases hc with
      | ignore => exact fun h => ⟨h, rfl⟩
      | closed => exact fun h => absurd rfl h
      | _ => exact fun _ => ⟨by decide, rfl⟩
  | @close p hs hp =>
    refine ⟨Or.inl (hi.unsent (Or.inl hs)), fun q hq _ => ?_, fun _ => ?_⟩
    · rw [List.mem_singleton.1 hq]
    · rw [hp, finPacket_eq, Option.map_some, getFlags_wire]; rfl
  | @resend p hp hne =>
    refine ⟨Or.inr hp.symm, fun q hq _ => ?_, fun _ => ?_⟩
    · rw [List.mem_singleton.1 hq]
    · rw [← hp]; exact hi.keeps x hne
  | @finOut p hs hp =>
    refine ⟨Or.inl (hi.unsent (Or.inr hs)), fun q hq _ => ?_, fun _ => ?_⟩
    · rw [List.mem_singleton.1 hq]
    · rw [hp, finPacket_eq, Option.map_some, getFlags_wire]; rfl
  | done => exact .same hi (fun p hp => by cases hp) fun h => absurd rfl h

/-- A packet other than data that is in flight to the peer was so before, or is sent. -/
theorem CtlView.control {q : Buf} (hv : CtlView s s' x st fin out c (SendsData e))
    (hq : q ∈ s'.net x.peer) (hf : getFlags q ≠ noFlag) : q ∈ s.net x.peer ∨ q ∈ out := by
  rcases hv.netPeer q hq with h | h | ⟨-, h⟩
  · exact Or.inl h
  · exact Or.inr h
  · exact absurd h hf

/-- **One step keeps the invariant.** -/
theorem closeInv_step (hi : CloseInv s) (he : connStep s e = some s') : CloseInv s' := by
  obtain ⟨x, st, fin, out, c, hst, hv⟩ := connStep_ctl hi.ctl.notSynSent he
  have hf := hst.finStep hi
  -- the FIN of the side is not lost
  have hstays : ∀ p, (s.ep x).sock.packetFIN = some p → fin = some p := fun p hp => by
    rcases hf.stays with h | h
    · rw [hp] at h; cases h
    · rw [h, hp]
  refine ⟨ctlInv_step hi.ctl he, fun y p hp hfin => ?_, fun y hy => ?_, fun y hy => ?_⟩ <;>
    rcases Side.eq_or_peer x y with rfl | rfl
  · rw [hv.packetFIN]
    rcases hv.control hp fun h => not_isFin_data h hfin with h | h
    · exact hstays p (hi.sent y p h hfin)
    · exact hf.sent p h hfin
  · rw [Side.peer_peer] at hp
    rw [hv.peer]
    exact hi.fromPeer (hv.net p hp) hfin
  · rw [hv.state] at hy ⊢
    rw [hv.packetFIN]
    exact hf.keeps hy
  · rw [hv.peer] at hy ⊢
    exact hi.keeps _ hy
  · rw [hv.state] at hy
    rw [hv.peer]
    rcases hst.took_back hy with h | ⟨q, hq, hfin⟩
    · exact hi.heard y h
    · rw [hi.fromPeer hq hfin]; exact Option.some_ne_none q
  · rw [hv.peer] at hy
    have hne := hi.heard _ hy
    rw [Side.peer_peer] at hne ⊢
    rw [hv.packetFIN]
    obtain ⟨q, hq⟩ := Option.ne_none_iff_exists'.1 hne
    rw [hstays q hq]
    exact Option.some_ne_none q

theorem closeInv_start (client server : TjuSockAddr) :
    CloseInv (.start client server (handshake client server)) where
  ctl := ctlInv_start (handshake_not_isFin client server)
  sent x p hp hf := absurd hf (handshake_not_isFin client server _ p hp)
  keeps x _ := by cases x <;> rfl
  heard x h := by cases x <;> cases h

theorem closeInv_reached (client server : TjuSockAddr)
    (hr : Reach procsStep (.start client server) p) : CloseInv p.conn :=
  (Procs.reach_conn hr).inv (closeInv_start client server) fun _ _ _ hi _ he => closeInv_step hi he

/-! ## A side that waits in vain -/

/-- What is not served after a step of the same side was not served before. -/
theorem CtlStep.served_self (hst : CtlStep s x e st fin out c)
    (h : ServedBy (AckComing s x) (FinComing s x) (FinAckComing s x) st
      (s.ep x.peer).sock.state) : Served s x := by
  unfold Served
  cases hst with
  | quiet => exact h
  | dataAck hs => rw [hs]; trivial
  | finIn hs => rw [hs]; trivial
  | @closeStep pkt _ _ _ _ _ hp hc =>
    generalize (s.ep x).sock.state = old at hc
    cases hc with
    | ignore => exact h
    | finWait2 hf hn =>
      refine Or.inr (Or.inr ⟨⟨pkt, hp, hf, hn⟩, fun hb => ?_⟩)
      rw [hb] at h
      rcases h with h | h | h | ⟨q, hq, hfl⟩
      · cases h
      · cases h
      · cases h
      · exact ⟨q, hq, Or.inl hfl⟩
    | closing hf =>
      rcases h with h | h
      · exact Or.inr (Or.inl h)
      · exact Or.inr (Or.inr ⟨h, fun _ => ⟨pkt, hp, hf⟩⟩)
    | timeWait hf => exact Or.inr (Or.inr (Or.inr ⟨pkt, hp, hf⟩))
    | closed hf hn => exact Or.inr (Or.inr ⟨pkt, hp, hf, hn⟩)
    | closingDone hf hn => exact Or.inr ⟨pkt, hp, hf, hn⟩
  | close hs => rw [hs]; trivial
  | resend => exact h
  | finOut hs => rw [hs]; trivial
  | done hs => rw [hs]; trivial

/-- A side that has got no FIN is served by a peer in ESTABLISHED. -/
theorem servedBy_established (ha : tookFin a = false) : ServedBy A F FA a .established := by
  cases a <;> first | trivial | exact Or.inl rfl

/-- Every side but one in FIN_WAIT_2 is served by a peer in FIN_WAIT_1. -/
theorem servedBy_finWait1 (h : a = .finWait2 → FA) : ServedBy A F FA a .finWait1 := by
  cases a with
  | finWait1 => exact Or.inr (Or.inl rfl)
  | finWait2 => exact Or.inr (Or.inr (Or.inr (h rfl)))
  | closing => exact Or.inl rfl
  | lastAck => exact Or.inl rfl
  | _ => trivial

theorem ServedBy.mono (hA : A' → A) (hF : F' → F) (hFA : FA' → FA) (h : ServedBy A' F' FA' a b) :
    ServedBy A F FA a b := by
  cases a with
  | finWait1 => exact h.imp_right (Or.imp_right (And.imp hA fun h hb => hF (h hb)))
  | finWait2 => exact h.imp_right (Or.imp_right (Or.imp_right hFA))
  | closing => exact h.imp_right hA
  | lastAck => exact h.imp_right (Or.imp_right hA)
  | _ => trivial

/-- A side in FIN_WAIT_2 gets from such a peer nothing but what is in flight. -/
theorem ServedBy.finAck (hb : b = .finWait2 ∨ b = .closing) (h : ServedBy A F FA .finWait2 b) :
    FA := by
  rcases hb with rfl | rfl
  all_goals
    rcases h with h | h | h | h
    · cases h
    · cases h
    · cases h
    · exact h

/-- The peer moves on, and sends neither an ACK nor a FIN that a side waits for. -/
theorem ServedBy.back (hb : b = .lastAck ∧ st = .closed ∨ b = .closing ∧ st = .timeWait ∨
      b = .timeWait ∧ st = .closed) (hA : A' → A) (hFA : FA' → FA)
    (h : ServedBy A' F' FA' a st) : ServedBy A F FA a b := by
  rcases hb with ⟨rfl, rfl⟩ | ⟨rfl, rfl⟩ | ⟨rfl, rfl⟩ <;> cases a <;> simp_all [ServedBy]

/-- What is not served after a step of the peer was not served before. -/
theorem CtlStep.served_other (hi : CloseInv s) (hst : CtlStep s x e st fin out c)
    (hA : A' → A ∨ ∃ p ∈ out, getFlags p = ackFlagMask) (hF : F' → F ∨ ∃ p ∈ out, IsFin p)
    (hFA : FA' → FA ∨ ∃ p ∈ out, getFlags p = finFlagMask ||| ackFlagMask)
    (h : ServedBy A' F' FA' (s.ep x.peer).sock.state st) :
    ServedBy A F FA (s.ep x.peer).sock.state (s.ep x).sock.state := by
  -- a packet that is not sent was in flight before
  have hA' (hno : ∀ p ∈ out, getFlags p ≠ ackFlagMask) : A' → A := fun ha =>
    (hA ha).resolve_right fun ⟨p, hp, hf⟩ => hno p hp hf
  have hFA' (hno : ∀ p ∈ out, ¬ IsFin p) : FA' → FA := fun hfa =>
    (hFA hfa).resolve_right fun ⟨p, hp, hf⟩ => hno p hp (Or.inl hf)
  have hF' (hno : ∀ p ∈ out, ¬ IsFin p) : F' → F := fun hf =>
    (hF hf).resolve_right fun ⟨p, hp, hf⟩ => hno p hp hf
  cases hst with
  | quiet =>
    exact h.mono (hA' fun p hp => by cases hp) (hF' fun p hp => by cases hp)
      (hFA' fun p hp => by cases hp)
  | dataAck hs => rw [hs]; exact servedBy_established (hi.not_heard (Or.inl hs))
  | finIn hs => rw [hs]; exact servedBy_established (hi.not_heard (Or.inl hs))
  | @closeStep pkt _ _ _ _ _ hp hc =>
    have hout : ∀ p ∈ out, ¬ IsFin p := fun p hp => by
      obtain ⟨seq, rfl, -⟩ := hc.acks p hp
      exact not_isFin_ack (replyAck_flags _ _)
    generalize (s.ep x).sock.state = old at hc
    cases hc with
    | ignore =>
      exact h.mono (hA' fun p hp => by cases hp) (hF' hout) (hFA' hout)
    | finWait2 =>
      refine servedBy_finWait1 fun ha => hFA' hout ?_
      rw [ha] at h
      exact h.finAck (Or.inl rfl)
    | closing =>
      refine servedBy_finWait1 fun ha => hFA' hout ?_
      rw [ha] at h
      exact h.finAck (Or.inr rfl)
    | timeWait hf =>
      -- the FIN|ACK comes from a side in LAST_ACK, which waits for the answer
      rcases hi.finAckComing ⟨pkt, hp, hf⟩ with ha | ha <;> rw [ha]
      · exact Or.inr (Or.inl rfl)
      · trivial
    | closed => exact h.back (Or.inl ⟨rfl, rfl⟩) (hA' fun p hp => by cases hp) (hFA' hout)
    | closingDone =>
      exact h.back (Or.inr (Or.inl ⟨rfl, rfl⟩)) (hA' fun p hp => by cases hp) (hFA' hout)
  | close hs => rw [hs]; exact servedBy_established (hi.not_heard (Or.inl hs))
  | @resend p hp hne =>
    have hno : A' → A := hA' fun q hq hf => by
      rw [List.mem_singleton.1 hq] at hf
      exact not_isFin_ack hf (hi.ctl.pending x p hp).1
    cases ha : (s.ep x.peer).sock.state <;> rw [ha] at h
    case finWait1 =>
      exact h.imp_right (Or.imp_right (And.imp hno fun _ hc => absurd hc hne))
    case finWait2 =>
      rcases h with h | h | h | h
      · exact Or.inl h
      · exact Or.inr (Or.inl h)
      · exact Or.inr (Or.inr (Or.inl h))
      · rcases hFA h with h | ⟨q, hq, hf⟩
        · exact Or.inr (Or.inr (Or.inr h))
        · rw [List.mem_singleton.1 hq] at hf
          exact Or.inr (Or.inr (Or.inl ((hi.keepsFinAck hp hf).resolve_right hne)))
    case closing => exact h.imp_right hno
    case lastAck => exact h.imp_right (Or.imp_right hno)
    all_goals trivial
  | @finOut p hs hp =>
    have hno : A' → A := hA' fun q hq hf => by
      rw [List.mem_singleton.1 hq, hp] at hf
      exact not_isFin_ack hf (finPacket_isFin _ _ _ (Or.inl rfl)).1
    have htook := hi.not_heard (Or.inr hs)
    rw [hs]
    cases ha : (s.ep x.peer).sock.state <;> rw [ha] at h htook
    case finWait1 =>
      refine Or.inr (Or.inr ⟨?_, fun hc => by cases hc⟩)
      rcases h with h | h | h
      · cases h
      · cases h
      · exact hno h.1
    case finWait2 => exact Or.inr (Or.inl rfl)
    all_goals trivial
  | done hs =>
    rw [hs]
    exact h.back (Or.inr (Or.inr ⟨rfl, rfl⟩)) (hA' fun p hp => by cases hp)
      (hFA' fun p hp => by cases hp)

/-- **No step serves a side that was not served before.** -/
theorem served_back (hi : CloseInv s) (he : connStep s e = some s') (h : Served s' y) :
    Served s y := by
  obtain ⟨x, st, fin, out, c, hst, hv⟩ := connStep_ctl hi.ctl.notSynSent he
  rcases Side.eq_or_peer x y with rfl | rfl
  · unfold Served at h
    rw [hv.state, hv.peer] at h
    refine hst.served_self (h.mono ?_ ?_ ?_)
    · exact fun ⟨p, hp, hf⟩ => ⟨p, hv.net p hp, hf⟩
    · exact fun ⟨p, hp, hf⟩ => ⟨p, hv.net p hp, hf⟩
    · exact fun ⟨p, hp, hf⟩ => ⟨p, hv.net p hp, hf⟩
  · unfold Served at h ⊢
    rw [Side.peer_peer, hv.state, hv.peer] at h
    rw [Side.peer_peer]
    refine hst.served_other hi ?_ ?_ ?_ h
    · rintro ⟨p, hp, hf, hn⟩
      exact (hv.control hp (by rw [hf]; decide)).imp (fun h => ⟨p, h, hf, hn⟩) fun h => ⟨p, h, hf⟩
    · rintro ⟨p, hp, hf⟩
      exact (hv.control hp fun h => not_isFin_data h hf).imp (fun h => ⟨p, h, hf⟩)
        fun h => ⟨p, h, hf⟩
    · rintro ⟨p, hp, hf⟩
      exact (hv.control hp (by rw [hf]; decide)).imp (fun h => ⟨p, h, hf⟩) fun h => ⟨p, h, hf⟩

/-- **No step makes a state completable** that was not. -/
theorem completable_back (hi : CloseInv p.conn) (he : procsStep p e = some p')
    (h : p'.Completable) : p.Completable := by
  intro x
  obtain ⟨hs, hex⟩ := h x
  cases procsStep_move he with
  | conn hrun hc =>
    refine ⟨served_back hi hc hs, fun hx => ?_⟩
    have hother : e.doer ≠ some x := fun hd => by rw [hrun x hd] at hx; cases hx
    rw [← connStep_peer hc hother]
    exact hex hx
  | @exit y hrun =>
    refine ⟨hs, fun hx => hex ?_⟩
    rcases Side.eq_or_peer y x with rfl | rfl
    · rw [hrun] at hx; cases hx
    · show Function.update p.exited y true y.peer = true
      rw [Function.update_of_ne (Side.peer_ne y)]
      exact hx

/-- **A teardown that is completed could be completed all along.** -/
theorem Procs.Closes.completable (hi : CloseInv p.conn) (h : p.Closes) : p.Completable := by
  obtain ⟨t, hr, hclosed⟩ := h
  have hend : t.Completable := fun x => by
    refine ⟨?_, fun _ => hclosed x⟩
    unfold Served
    rw [hclosed x]
    trivial
  induction hr using Relation.ReflTransGen.head_induction_on with
  | refl => exact hend
  | head hn _ ih =>
    obtain ⟨e, -, he⟩ := hn
    refine completable_back hi he (ih ?_)
    cases procsStep_move he with
    | conn _ hc => exact closeInv_step hi hc
    | exit => exact hi

end Tju
