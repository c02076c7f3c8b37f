/-
  The control packets of a connection.

  `connStep_ctl` says once what a step of one side can do to its state and to
  the FIN it keeps for retransmission, and which packets other than data it
  sends.  `CtlInv` is what these steps preserve: every FIN carries the number
  `FIN_SEQ`, so that every acknowledgement of a FIN carries `FIN_SEQ + 1`.
-/
import TjuTcp.Conn

namespace Tju

open Lib

/-- A FIN, with or without an ACK. -/
def IsFin (p : Buf) : Prop :=
  getFlags p = finFlagMask ||| ackFlagMask ∨ getFlags p = finFlagMask

instance (p : Buf) : Decidable (IsFin p) := inferInstanceAs (Decidable (_ ∨ _))

/-- The states of a connection that has been established. -/
def connected : State → Bool
  | .listen | .synSent | .synRecv => false
  | _ => true

/-- What the event `e` makes `x` do: the new state, the FIN it keeps, the packets other than data
    that it sends, and whether its handler takes a FIN. -/
inductive CtlStep (s : Conn) (x : Side) :
    ConnEv → State → Option Buf → List Buf → Bool → Prop
  | quiet {e : ConnEv} : CtlStep s x e (s.ep x).sock.state (s.ep x).sock.packetFIN [] false
  | dataAck {pkt : Buf} {keep : Bool} {now : ℕ} {sock : TjuTcp} :
      (s.ep x).sock.state = .established → pkt ∈ s.net x → getFlags pkt = noFlag →
      handleData (s.ep x).sock pkt = some (sock, [ackPacket sock]) →
      CtlStep s x (.deliver x pkt keep now) .established (s.ep x).sock.packetFIN [ackPacket sock] false
  | finIn {pkt : Buf} {keep : Bool} {now : ℕ} :
      (s.ep x).sock.state = .established → pkt ∈ s.net x → getFlags pkt = finFlagMask →
      CtlStep s x (.deliver x pkt keep now) .closeWait (s.ep x).sock.packetFIN
        [replyAck pkt (getAck pkt)] true
  | closeStep {pkt : Buf} {keep : Bool} {now : ℕ} {st : State} {out : List Buf} :
      (s.ep x).sock.state ≠ .established → pkt ∈ s.net x →
      CloseStep pkt (s.ep x).sock.state st out →
      CtlStep s x (.deliver x pkt keep now) st (s.ep x).sock.packetFIN out
        (takesFin (s.ep x).sock.state (getFlags pkt))
  | close {p : Buf} : (s.ep x).sock.state = .established →
      p = finPacket (s.ep x).sock 0 finFlagMask →
      CtlStep s x (.close x) .finWait1 (some p) [p] false
  | resend {p : Buf} : (s.ep x).sock.packetFIN = some p → (s.ep x).sock.state ≠ .closed →
      CtlStep s x (.closeRetrans x) (s.ep x).sock.state (some p) [p] false
  | finOut {p : Buf} : (s.ep x).sock.state = .closeWait →
      p = finPacket (s.ep x).sock (s.ep x).closeAck (finFlagMask ||| ackFlagMask) →
      CtlStep s x (.wake x) .lastAck (some p) [p] false
  | done : (s.ep x).sock.state = .timeWait →
      CtlStep s x (.wake x) .closed (s.ep x).sock.packetFIN [] false

/-- The threads that send data. -/
def SendsData : ConnEv → Prop
  | .sendPass .. | .retransPass _ => True
  | _ => False

/-- The state `s'` is `s` after a step of `x` that does this, and sends data only if `D`. -/
structure CtlView (s s' : Conn) (x : Side) (st : State) (fin : Option Buf) (out : List Buf)
    (b : Bool) (D : Prop) : Prop where
  state : (s'.ep x).sock.state = st
  packetFIN : (s'.ep x).sock.packetFIN = fin
  peer : s'.ep x.peer = s.ep x.peer
  net : ∀ p ∈ s'.net x, p ∈ s.net x
  netPeer : ∀ p ∈ s'.net x.peer, p ∈ s.net x.peer ∨ p ∈ out ∨ D ∧ getFlags p = noFlag
  finSeen : s'.finSeen x = (s.finSeen x || b)
  finSeenPeer : s'.finSeen x.peer = s.finSeen x.peer

variable {s s' : Conn} {x : Side} {st : State} {fin : Option Buf} {out : List Buf} {b : Bool}
  {h : Host} {snt rd : List Byte} {D : Prop}

/-! ## One step -/

theorem CtlView.put (hst : h.sock.state = st) (hfin : h.sock.packetFIN = fin)
    {all : List Buf} (hall : ∀ p ∈ all, p ∈ out ∨ D ∧ getFlags p = noFlag) :
    CtlView s (s.put x h all snt rd) x st fin out false D where
  state := by simpa using hst
  packetFIN := by simpa using hfin
  peer := by simp
  net p hp := by simpa using hp
  netPeer p hp := by
    simp only [Conn.put_net_peer, List.mem_append] at hp
    exact hp.imp_right (hall p)
  finSeen := by simp
  finSeenPeer := by simp

theorem CtlView.deliver {pkt : Buf} {keep : Bool} {c : Bool}
    (hv : CtlView s s' x st fin out c D) :
    CtlView s ((s'.consume x pkt keep).seeFin x b) x st fin out (c || b) D where
  state := by simpa using hv.state
  packetFIN := by simpa using hv.packetFIN
  peer := by simpa using hv.peer
  net p hp := hv.net p (Conn.mem_consume hp)
  netPeer p hp := hv.netPeer p (Conn.mem_consume hp)
  finSeen := by simp [hv.finSeen, Bool.or_assoc]
  finSeenPeer := by simpa using hv.finSeenPeer

/-- A step that touches the sending half only, and sends data packets only. -/
theorem CtlView.quiet (hr : SameRest (s.ep x).sock h.sock) {all : List Buf}
    (hall : ∀ p ∈ all, D ∧ getFlags p = noFlag) :
    CtlView s (s.put x h all snt rd) x (s.ep x).sock.state (s.ep x).sock.packetFIN [] false D :=
  CtlView.put hr.state hr.packetFIN fun p hp => Or.inr (hall p hp)

/-- **The handler**, on a packet in flight. -/
theorem handle_ctl {pkt : Buf} {keep : Bool} {now : ℕ} {r : Host × List Buf}
    (hc : (s.ep x).sock.state ≠ .synSent) (hp : pkt ∈ s.net x)
    (he : tjuHandlePacket now (s.ep x) pkt = some r) :
    ∃ st fin out b, CtlStep s x (.deliver x pkt keep now) st fin out b ∧
      CtlView s (((s.put x r.1 r.2 [] []).consume x pkt keep).seeFin x
        (takesFin (s.ep x).sock.state (getFlags pkt))) x st fin out b D := by
  obtain ⟨h', out⟩ := r
  have hnil : ∀ p ∈ ([] : List Buf), D ∧ getFlags p = noFlag := fun p hp => by cases hp
  have htf : (s.ep x).sock.state = .established →
      takesFin (s.ep x).sock.state (getFlags pkt) = (getFlags pkt == finFlagMask) := fun hs => by
    rw [hs]; rfl
  have hquiet : (s.ep x).sock.state = .established → getFlags pkt ≠ finFlagMask →
      (false || takesFin (s.ep x).sock.state (getFlags pkt)) = false := fun hs hf => by
    rw [htf hs]
    simpa using hf
  cases tjuHandlePacket_cases he with
  | fin hs hf =>
    have hb : (false || takesFin (s.ep x).sock.state (getFlags pkt)) = true := by
      rw [htf hs, hf]; rfl
    exact ⟨_, _, _, _, .finIn hs hp hf, hb ▸ (CtlView.put rfl rfl fun p hp => Or.inl hp).deliver⟩
  | data hs hf hd =>
    obtain ⟨hfr, rfl⟩ := handleData_frame hd
    have hb := hquiet hs (by rw [hf]; decide)
    refine ⟨_, _, _, _, .dataAck hs hp hf hd, hb ▸ (CtlView.put ?_ ?_ fun p hp => Or.inl hp).deliver⟩
    · rw [← hs, hfr]
    · rw [hfr]
  | ack hs hf ha =>
    have hb := hquiet hs (by rw [hf]; decide)
    exact ⟨_, _, _, _, .quiet, hb ▸ (CtlView.quiet (handleAck_rest ha) hnil).deliver⟩
  | ignored hs hf =>
    have hb := hquiet hs hf
    exact ⟨_, _, _, _, .quiet, hb ▸ (CtlView.quiet (SameRest.refl _) hnil).deliver⟩
  | closing _ _ hs =>
    obtain ⟨st, heq, hstep⟩ := handle_closeStep hs hc he
    rw [heq]
    exact ⟨_, _, _, _, .closeStep hs hp hstep,
      (CtlView.put rfl rfl fun p hp => Or.inl hp).deliver⟩

/-- **What a step does to the control part** of the connection. -/
theorem connStep_ctl {e : ConnEv} (hc : ∀ x, (s.ep x).sock.state ≠ .synSent)
    (he : connStep s e = some s') :
    ∃ x st fin out b, CtlStep s x e st fin out b ∧ CtlView s s' x st fin out b (SendsData e) := by
  have hnil : ∀ p ∈ ([] : List Buf), SendsData e ∧ getFlags p = noFlag := fun p hp => by cases hp
  cases connStep_move he with
  | @append x _ _ _ ha =>
    obtain ⟨-, rfl⟩ := appendData_eq_some ha
    exact ⟨x, _, _, _, _, .quiet, CtlView.put rfl rfl fun p hp => Or.inl hp⟩
  | @sendPass x now =>
    exact ⟨x, _, _, _, _, .quiet,
      CtlView.quiet (sendingThread_rest now _) fun p hp => ⟨trivial, sendingThread_flags now _ p hp⟩⟩
  | @retransPass x _ _ ht =>
    exact ⟨x, _, _, _, _, .quiet,
      CtlView.quiet (retransThread_rest ht) fun p hp => ⟨trivial, retransThread_flags ht p hp⟩⟩
  | @alarm x => exact ⟨x, _, _, _, _, .quiet, CtlView.put rfl rfl fun p hp => Or.inl hp⟩
  | @deliver x _ _ _ _ _ hp _ ht => exact ⟨x, handle_ctl (hc x) hp ht⟩
  | @lose x =>
    exact ⟨x, _, _, _, _, .quiet, by simp, by simp, by simp, fun p hp => Conn.mem_consume hp,
      fun p hp => Or.inl (Conn.mem_consume hp), by simp, by simp⟩
  | @recv x _ _ _ _ hr =>
    obtain ⟨-, rfl, -⟩ := tjuRecv_eq_some hr
    exact ⟨x, _, _, _, _, .quiet, CtlView.put rfl rfl fun p hp => Or.inl hp⟩
  | @close x hs => exact ⟨x, _, _, _, _, .close hs rfl, CtlView.put rfl rfl fun p hp => Or.inl hp⟩
  | @closeAgain x => exact ⟨x, _, _, _, _, .quiet, CtlView.quiet (SameRest.refl _) hnil⟩
  | @resend x p hp hne => exact ⟨x, _, _, _, _, .resend hp hne, CtlView.put rfl hp fun q hq => Or.inl hq⟩
  | @silent x => exact ⟨x, _, _, _, _, .quiet, CtlView.quiet (SameRest.refl _) hnil⟩
  | @finOut x hs => exact ⟨x, _, _, _, _, .finOut hs rfl, CtlView.put rfl rfl fun p hp => Or.inl hp⟩
  | @done x hs => exact ⟨x, _, _, _, _, .done hs, CtlView.put rfl rfl fun p hp => Or.inl hp⟩

/-- The states that are entered by taking a FIN, and those behind them. -/
def tookFin : State → Bool
  | .closeWait | .closing | .lastAck | .timeWait | .closed => true
  | _ => false

/-- The states behind a FIN of the peer are entered by taking one that is in flight. -/
theorem CtlStep.took_back {e : ConnEv} (hst : CtlStep s x e st fin out b) (h : tookFin st = true) :
    tookFin (s.ep x).sock.state = true ∨ ∃ pkt ∈ s.net x, IsFin pkt := by
  cases hst with
  | quiet => exact Or.inl h
  | dataAck => cases h
  | finIn _ hp hf => exact Or.inr ⟨_, hp, Or.inr hf⟩
  | @closeStep pkt _ _ _ _ _ hp hc =>
    generalize (s.ep x).sock.state = old at hc
    cases hc with
    | ignore => exact Or.inl h
    | finWait2 => cases h
    | closing hf => exact Or.inr ⟨pkt, hp, hf⟩
    | timeWait hf => exact Or.inr ⟨pkt, hp, Or.inl hf⟩
    | closed => exact Or.inl rfl
    | closingDone => exact Or.inl rfl
  | close => cases h
  | resend => exact Or.inl h
  | finOut hs => rw [hs]; exact Or.inl rfl
  | done hs => rw [hs]; exact Or.inl rfl

/-! ## The numbers of the control packets -/

/-- Every FIN has the number `FIN_SEQ`. -/
structure CtlInv (s : Conn) : Prop where
  opened : ∀ x, connected (s.ep x).sock.state = true
  fins : ∀ x, ∀ p ∈ s.net x, IsFin p → getSeq p = finSeq
  pending : ∀ x p, (s.ep x).sock.packetFIN = some p → IsFin p ∧ getSeq p = finSeq

theorem CtlInv.notSynSent (hi : CtlInv s) (x : Side) : (s.ep x).sock.state ≠ .synSent := fun h => by
  have := hi.opened x
  rw [h] at this; cases this

theorem CloseStep.connected {pkt : Buf} {st st' : State} (hc : CloseStep pkt st st' out)
    (h : connected st = true) : Tju.connected st' = true := by
  cases hc <;> exact h

/-- The packets sent are no FINs, or FINs with the right number. -/
theorem CloseStep.acks {pkt : Buf} {st st' : State} (hc : CloseStep pkt st st' out) :
    ∀ p ∈ out, ∃ seq, p = replyAck pkt seq ∧ IsFin pkt := by
  intro p hp
  cases hc with
  | ignore => cases hp
  | finWait2 => cases hp
  | closing hf => exact ⟨_, List.mem_singleton.1 hp, hf⟩
  | timeWait hf => exact ⟨_, List.mem_singleton.1 hp, Or.inl hf⟩
  | closed => cases hp
  | closingDone => cases hp

theorem not_isFin {p : Buf} {flags : Byte} (h : getFlags p = flags)
    (h1 : flags ≠ finFlagMask ||| ackFlagMask) (h2 : flags ≠ finFlagMask) : ¬ IsFin p := by
  unfold IsFin; rw [h]; exact not_or.2 ⟨h1, h2⟩

theorem not_isFin_ack {p : Buf} (h : getFlags p = ackFlagMask) : ¬ IsFin p :=
  not_isFin h (by decide) (by decide)

theorem not_isFin_data {p : Buf} (h : getFlags p = noFlag) : ¬ IsFin p :=
  not_isFin h (by decide) (by decide)

theorem replyAck_flags (pkt : Buf) (seq : BitVec 32) :
    getFlags (replyAck pkt seq) = ackFlagMask := by
  rw [replyAck_eq, getFlags_wire]

theorem ackPacket_flags (sock : TjuTcp) : getFlags (ackPacket sock) = ackFlagMask := by
  rw [ackPacket_eq, getFlags_wire]

theorem finPacket_isFin (sock : TjuTcp) (ack : BitVec 32) (flags : Byte)
    (h : flags = finFlagMask ||| ackFlagMask ∨ flags = finFlagMask) :
    IsFin (finPacket sock ack flags) ∧ getSeq (finPacket sock ack flags) = finSeq := by
  rw [finPacket_eq, IsFin, getFlags_wire, getSeq_wire]; exact ⟨h, rfl⟩

/-- A step leaves the states connected, sends FINs with the number `FIN_SEQ` only, and keeps such a
    one for retransmission. -/
theorem CtlStep.keeps {e : ConnEv} (hi : CtlInv s) (hst : CtlStep s x e st fin out b) :
    connected st = true ∧ (∀ p ∈ out, IsFin p → getSeq p = finSeq) ∧
      ∀ p, fin = some p → IsFin p ∧ getSeq p = finSeq := by
  have hpend := hi.pending x
  cases hst with
  | quiet => exact ⟨hi.opened x, fun p hp => (by cases hp), hpend⟩
  | dataAck =>
    refine ⟨rfl, fun p hp hf => absurd hf (not_isFin_ack ?_), hpend⟩
    rw [List.mem_singleton.1 hp, ackPacket_flags]
  | finIn =>
    refine ⟨rfl, fun p hp hf => absurd hf (not_isFin_ack ?_), hpend⟩
    rw [List.mem_singleton.1 hp, replyAck_flags]
  | closeStep _ _ hc =>
    refine ⟨hc.connected (hi.opened x), fun p hp hf => absurd hf (not_isFin_ack ?_), hpend⟩
    obtain ⟨seq, rfl, -⟩ := hc.acks p hp
    exact replyAck_flags _ _
  | @close p _ hp =>
    have hfin := finPacket_isFin (s.ep x).sock 0 finFlagMask (Or.inr rfl)
    rw [← hp] at hfin
    exact ⟨rfl, fun q hq _ => by rw [List.mem_singleton.1 hq]; exact hfin.2,
      fun q hq => by cases hq; exact hfin⟩
  | @resend p hp =>
    exact ⟨hi.opened x, fun q hq _ => by rw [List.mem_singleton.1 hq]; exact (hpend p hp).2,
      fun q hq => by cases hq; exact hpend p hp⟩
  | @finOut p _ hp =>
    have hfin := finPacket_isFin (s.ep x).sock (s.ep x).closeAck _ (Or.inl rfl)
    rw [← hp] at hfin
    exact ⟨rfl, fun q hq _ => by rw [List.mem_singleton.1 hq]; exact hfin.2,
      fun q hq => by cases hq; exact hfin⟩
  | done => exact ⟨rfl, fun p hp => (by cases hp), hpend⟩

/-- **One step keeps the numbers.** -/
theorem ctlInv_step {e : ConnEv} (hi : CtlInv s) (he : connStep s e = some s') : CtlInv s' := by
  obtain ⟨x, st, fin, out, b, hst, hv⟩ := connStep_ctl hi.notSynSent he
  obtain ⟨hopen, hout, hfin⟩ := hst.keeps hi
  refine ⟨fun y => ?_, fun y p hp hf => ?_, fun y p hp => ?_⟩ <;>
    rcases Side.eq_or_peer x y with rfl | rfl
  · rw [hv.state]; exact hopen
  · rw [hv.peer]; exact hi.opened _
  · exact hi.fins _ p (hv.net p hp) hf
  · rcases hv.netPeer p hp with h | h | h
    · exact hi.fins _ p h hf
    · exact hout p h hf
    · exact absurd hf (not_isFin_data h.2)
  · rw [hv.packetFIN] at hp; exact hfin p hp
  · rw [hv.peer] at hp; exact hi.pending _ p hp

theorem ctlInv_start {client server : TjuSockAddr} {net : Side → List Buf}
    (hnet : ∀ x, ∀ p ∈ net x, ¬ IsFin p) : CtlInv (.start client server net) where
  opened x := by cases x <;> rfl
  fins x p hp hf := absurd hf (hnet x p hp)
  pending x p hp := by cases x <;> cases hp

theorem handshake_not_isFin (client server : TjuSockAddr) (x : Side) :
    ∀ p ∈ handshake client server x, ¬ IsFin p := by
  intro p hp
  cases x <;> simp only [handshake, List.mem_cons, List.not_mem_nil, or_false] at hp
  · subst hp; exact not_isFin (synAckPacket_flags _) (by decide) (by decide)
  · rcases hp with rfl | rfl
    · exact not_isFin (synPacket_flags _ _) (by decide) (by decide)
    · exact not_isFin_ack (replyAck_flags _ _)

end Tju
