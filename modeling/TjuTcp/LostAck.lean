/-
  The ACK that ends the handshake.

  A client enters ESTABLISHED with the answer to its SYN, and sends its ACK then
  and never again: in ESTABLISHED it ignores a repeated SYN|ACK, and the server
  answers neither its data nor its FIN before `tju_accept` has returned.

  * `Waits`, `waits_reached`: what holds of every session until `tju_accept`
    returns, without any condition on the run;
  * `lost_stays`: once the ACK is lost, it stays lost;
  * `accept_possible_iff`: `tju_accept` can still return if and only if the ACK
    is not lost.
-/
import TjuTcp.SessionPipes
import TjuTcp.Acceptors
import TjuTcp.Lib.Leads

namespace Tju

open Lib

section
variable (port srv : BitVec 16)

/-- The address that the server listens at. -/
abbrev listenAddr : TjuSockAddr := ⟨serverIp, srv⟩

/-- The three packets of the handshake. -/
abbrev sessionSyn : Buf := synPacket port srv

abbrev sessionSynAck : Buf := synAckPacket (sessionSyn port srv)

abbrev sessionAck : Buf := replyAck (sessionSynAck port srv) (getAck (sessionSynAck port srv))

/-- The slot of the client, in both queues. -/
def clientSlot : ℤ := calHash serverIp srv clientIp port

/-- The queues hold nothing but the client: as a half-open socket if `b`, and as an established one
    if `a`. -/
structure OneSlot (q : Queues) (b a : Bool) : Prop where
  half : ∀ i, (q.synQueue i).sock =
    if b = true ∧ i = clientSlot port srv then some (halfOpenSock port (listenAddr srv)) else none
  synNum : q.synNum = if b then 1 else 0
  full : ∀ i, q.acceptQueue i =
    if a = true ∧ i = clientSlot port srv then some (acceptedSock port (listenAddr srv)) else none
  acceptNum : q.acceptNum = if a then 1 else 0

/-- The client before `tju_accept` returns: it connects, or it is open and has received nothing. -/
inductive ClientWaits : Client → Prop
  | connecting (junk : TjuSockAddr) :
      ClientWaits ⟨connectingHost port junk .synSent, listenAddr srv, true⟩
  | opened (cl : Client) :
      cl.host.sock.state = .established ∨ cl.host.sock.state = .finWait1 →
      (∀ q, cl.host.sock.packetFIN = some q → IsFin q) → cl.host.sock.receivedBuf = [] →
      ClientWaits cl

/-- The client has entered ESTABLISHED. -/
def ClientOpen (s : Session) : Prop := ∃ cl, s.client = some cl ∧ cl.host.sock.state ≠ .synSent

/-- A session in which `tju_accept` has not returned. -/
structure Waits (s : Session) (b a : Bool) : Prop where
  registered : ∀ i, s.server.establishedSocks i = none
  listening : ∀ i l, s.server.listenSocks i = some l → l = listener (listenAddr srv)
  listens : s.server.listenSocks (calHash serverIp srv 0 0) = some (listener (listenAddr srv))
  socks : s.server.socks 0 = none
  queues : OneSlot port srv s.server.queues b a
  toClient : ∀ p ∈ s.net .client, p = sessionSynAck port srv
  toServer : ∀ p ∈ s.net .server, p = sessionAck port srv ∨
    getFlags p ≠ ackFlagMask ∧ (getFlags p = synFlagMask → p = sessionSyn port srv)
  unopened : s.opened .server = false
  read : ∀ x, s.read x = []
  client : ∀ cl, s.client = some cl → ClientWaits port srv cl
  called : s.client = none ↔ s.opened .client = false
  early : ¬ ClientOpen s → a = false ∧ ∀ p ∈ s.net .server, getFlags p ≠ ackFlagMask
  queued : s.net .client ≠ [] ∨ ClientOpen s → b = true ∨ a = true

end

/-- The client is open, and its ACK is neither in flight nor queued. -/
structure AckLost (s : Session) : Prop where
  client : ClientOpen s
  flight : ∀ p ∈ s.net .server, getFlags p ≠ ackFlagMask
  queue : ∀ i, s.server.queues.acceptQueue i = none

variable {port srv : BitVec 16} {s s' t : Session} {e : SessionEv} {b a : Bool} {q : Queues}
  {h : Host} {pkt : Buf} {now : ℕ} {f : OwnEv} {r : Outcome} {x : Side} {keep : Bool}

/-! ## The three packets -/

theorem sessionSyn_flags : getFlags (sessionSyn port srv) = synFlagMask := synPacket_flags _ _

theorem sessionSynAck_flags : getFlags (sessionSynAck port srv) = synFlagMask ||| ackFlagMask :=
  synAckPacket_flags _

theorem sessionAck_flags : getFlags (sessionAck port srv) = ackFlagMask := replyAck_flags _ _

theorem sessionAck_ack : getAck (sessionAck port srv) = serverIsn + 1 := by
  simp only [sessionAck, sessionSynAck, replyAck_eq, getAck_wire, synAckPacket_eq, getSeq_wire]

theorem packetHash_ack : packetHash (sessionAck port srv) = clientSlot port srv := by
  simp only [packetHash, clientSlot, sessionAck, sessionSynAck, sessionSyn, replyAck_eq,
    synAckPacket_eq, synPacket_eq, getDst_wire, getSrc_wire]

theorem getDst_syn : getDst (sessionSyn port srv) = srv := by
  simp only [sessionSyn, synPacket_eq, getDst_wire]

theorem getDst_ack : getDst (sessionAck port srv) = srv := by
  simp only [sessionAck, sessionSynAck, sessionSyn, replyAck_eq, synAckPacket_eq, synPacket_eq,
    getDst_wire, getSrc_wire]

theorem clientSlot_inTable : InTable (clientSlot port srv) := by
  rw [← packetHash_ack]
  exact packetHash_inTable _

theorem sockHash_half : sockHash (halfOpenSock port (listenAddr srv)) = clientSlot port srv := by
  unfold sockHash clientSlot halfOpenSock newConn
  rw [synPacket_eq, getSrc_wire]
  rfl

/-- `onTCPPocket` on the client finds the socket that connects. -/
theorem synAck_found : clientFinds port (listenAddr srv) (sessionSynAck port srv) = true := by
  simp only [clientFinds, sessionSynAck, sessionSyn, synAckPacket_eq, synPacket_eq, getDst_wire,
    getSrc_wire, beq_self_eq_true]

/-! ## The queues -/

theorem OneSlot.init : OneSlot port srv initQueue false false where
  half i := by simp [initQueue]
  synNum := rfl
  full i := by simp [initQueue]
  acceptNum := rfl

theorem OneSlot.half_some (hq : OneSlot port srv q true a) :
    (q.synQueue (clientSlot port srv)).sock = some (halfOpenSock port (listenAddr srv)) := by
  rw [hq.half, if_pos ⟨rfl, rfl⟩]

theorem OneSlot.half_none (hq : OneSlot port srv q false a) (i : ℤ) :
    (q.synQueue i).sock = none := by
  rw [hq.half, if_neg fun h => Bool.false_ne_true h.1]

theorem OneSlot.full_some (hq : OneSlot port srv q b true) :
    q.acceptQueue (clientSlot port srv) = some (acceptedSock port (listenAddr srv)) := by
  rw [hq.full, if_pos ⟨rfl, rfl⟩]

theorem OneSlot.full_none (hq : OneSlot port srv q b false) (i : ℤ) : q.acceptQueue i = none := by
  rw [hq.full, if_neg fun h => Bool.false_ne_true h.1]

/-- **A SYN** makes the client half-open, or finds it half-open. -/
theorem OneSlot.syn (hq : OneSlot port srv q b a) (now : ℕ) : OneSlot port srv
    (handleListen now (listener (listenAddr srv)) q (sessionSyn port srv)).1 true a := by
  unfold handleListen
  rw [if_pos sessionSyn_flags]
  unfold enSynQueue
  have hslot : sockHash (newConn (listener (listenAddr srv)) (sessionSyn port srv)) =
    clientSlot port srv := sockHash_half
  dsimp only
  rw [hslot]
  cases b with
  | true =>
    rw [hq.half_some]
    exact hq
  | false =>
    rw [hq.half_none]
    refine ⟨fun i => ?_, ?_, hq.full, hq.acceptNum⟩
    · by_cases hi : i = clientSlot port srv
      · subst hi
        simp [halfOpenSock]
      · simp [hi, hq.half_none]
    · have hnum : q.synNum = 0 := hq.synNum
      simp [hnum]

theorem OneSlot.take (hq : OneSlot port srv q true a) : ∃ q',
    getFromSyn q (sessionAck port srv) = (q', some (halfOpenSock port (listenAddr srv))) ∧
      OneSlot port srv q' false a := by
  have hnum : q.synNum = 1 := hq.synNum
  unfold getFromSyn
  rw [if_neg (by rw [hnum]; decide), packetHash_ack]
  dsimp only
  rw [hq.half_some]
  refine ⟨_, rfl, fun i => ?_, ?_, hq.full, hq.acceptNum⟩
  · by_cases hi : i = clientSlot port srv
    · subst hi
      simp
    · simp [hi, hq.half]
  · simp [hnum]

theorem OneSlot.queue (hq : OneSlot port srv q b a) :
    OneSlot port srv (enAcceptQueue q (acceptedSock port (listenAddr srv))) b true := by
  have hslot : sockHash (acceptedSock port (listenAddr srv)) = clientSlot port srv := sockHash_half
  unfold enAcceptQueue
  dsimp only
  rw [hslot]
  cases a with
  | true =>
    rw [hq.full_some]
    exact hq
  | false =>
    rw [hq.full_none]
    refine ⟨hq.half, hq.synNum, fun i => ?_, ?_⟩
    · by_cases hi : i = clientSlot port srv
      · subst hi
        simp
      · simp [hi, hq.full_none]
    · have hnum : q.acceptNum = 0 := hq.acceptNum
      simp [hnum]

/-- **The ACK** makes the half-open client an established one. -/
theorem OneSlot.ack (hq : OneSlot port srv q b a) (now : ℕ) : OneSlot port srv
    (handleListen now (listener (listenAddr srv)) q (sessionAck port srv)).1 false (a || b) := by
  have hne : getFlags (sessionAck port srv) ≠ synFlagMask := by
    rw [sessionAck_flags]
    decide
  unfold handleListen
  rw [if_neg hne, if_pos ⟨sessionAck_flags, sessionAck_ack⟩]
  cases b with
  | false =>
    have hnum : q.synNum = 0 := hq.synNum
    unfold getFromSyn
    rw [if_pos hnum, Bool.or_false]
    exact hq
  | true =>
    obtain ⟨q', hget, hq'⟩ := hq.take
    rw [hget, Bool.or_true]
    exact hq'.queue

/-- Other packets change nothing. -/
theorem handleListen_ignores {l : TjuTcp} (h1 : getFlags pkt ≠ synFlagMask)
    (h2 : getFlags pkt ≠ ackFlagMask) : handleListen now l q pkt = (q, []) := by
  unfold handleListen
  rw [if_neg h1, if_neg fun h => h2 h.1]

/-- The client that is queued can be returned. -/
theorem OneSlot.accept {k : Kernel} (hq : OneSlot port srv k.queues b true) :
    (tjuAccept k 0).isSome := by
  rcases tjuAccept_cases k 0 with ⟨-, hnone⟩ | ⟨i, sock, k', -, -, -, hk, -⟩
  · have hslot := filled_eq_zero_iff.1 hnone (clientSlot port srv)
      (mem_slots.2 clientSlot_inTable)
    rw [hq.full_some] at hslot
    cases hslot
  · rw [hk]
    rfl

/-! ## The client -/

/-- **An open client** ignores the SYN|ACK. -/
theorem open_ignores (hst : h.sock.state = .established ∨ h.sock.state = .finWait1)
    (hf : getFlags pkt = synFlagMask ||| ackFlagMask) :
    tjuHandlePacket now h pkt = some (h, []) := by
  have hne : ∀ fl, fl ≠ synFlagMask ||| ackFlagMask → getFlags pkt ≠ fl := fun fl hfl h =>
    hfl (h.symm.trans hf)
  rcases hst with hst | hst
  · exact handle_other hst (hne _ (by decide)) (hne _ (by decide)) (hne _ (by decide))
  · simp only [tjuHandlePacket, hst]
    rw [if_neg fun h => hne _ (by decide) h.1,
      if_neg fun h => h.elim (hne _ (by decide)) (hne _ (by decide))]

/-- **A client in SYN_SENT** opens with the SYN|ACK, and answers it. -/
theorem connecting_answers (now : ℕ) (junk : TjuSockAddr) :
    tjuHandlePacket now (connectingHost port junk .synSent) (sessionSynAck port srv) =
      some (connectingHost port junk .established, [sessionAck port srv]) :=
  @connecting_handles port (listenAddr srv) now junk

/-- What an open client that has received nothing does on its own. -/
theorem open_own (hst : h.sock.state = .established ∨ h.sock.state = .finWait1)
    (hfin : ∀ q, h.sock.packetFIN = some q → IsFin q) (hbuf : h.sock.receivedBuf = [])
    (hr : ownStep h f = some r) :
    ((r.host.sock.state = .established ∨ r.host.sock.state = .finWait1) ∧
      (∀ q, r.host.sock.packetFIN = some q → IsFin q) ∧ r.host.sock.receivedBuf = []) ∧
      r.read = [] ∧ ∀ p ∈ r.out, getFlags p ≠ ackFlagMask ∧ getFlags p ≠ synFlagMask := by
  have hnil : ∀ p ∈ ([] : List Buf), getFlags p ≠ ackFlagMask ∧ getFlags p ≠ synFlagMask :=
    fun p hp => by cases hp
  have hdata : ∀ out : List Buf, (∀ p ∈ out, getFlags p = noFlag) → ∀ p ∈ out,
      getFlags p ≠ ackFlagMask ∧ getFlags p ≠ synFlagMask := fun out hout p hp => by
    rw [hout p hp]
    decide
  have hctl : ∀ p, IsFin p → getFlags p ≠ ackFlagMask ∧ getFlags p ≠ synFlagMask := fun p hp => by
    rcases hp with hp | hp <;> rw [hp] <;> decide
  -- what changes neither the state nor the FIN nor the bytes received
  have hrest : ∀ {sock : TjuTcp}, SameRest h.sock sock →
      (sock.state = .established ∨ sock.state = .finWait1) ∧
        (∀ q, sock.packetFIN = some q → IsFin q) ∧ sock.receivedBuf = [] := fun hs => by
    rw [hs.state, hs.packetFIN, hs.receivedBuf]
    exact ⟨hst, hfin, hbuf⟩
  cases f with
  | append data =>
    simp only [ownStep] at hr
    split_ifs at hr
    obtain ⟨sock, ha, rfl⟩ := Option.map_eq_some_iff.1 hr
    obtain ⟨-, rfl⟩ := appendData_eq_some ha
    exact ⟨⟨hst, hfin, hbuf⟩, rfl, hnil⟩
  | sendPass now =>
    cases hr
    exact ⟨hrest (sendingThread_rest now h), rfl, hdata _ (sendingThread_flags now h)⟩
  | retransPass =>
    obtain ⟨⟨h', out⟩, ht, rfl⟩ := Option.map_eq_some_iff.1 hr
    exact ⟨hrest (retransThread_rest ht), rfl, hdata _ (retransThread_flags ht)⟩
  | alarm =>
    cases hr
    exact ⟨⟨hst, hfin, hbuf⟩, rfl, hnil⟩
  | recv len =>
    simp only [ownStep] at hr
    split_ifs at hr
    obtain ⟨⟨sock, bytes⟩, ht, rfl⟩ := Option.map_eq_some_iff.1 hr
    obtain ⟨hpos, -⟩ := tjuRecv_eq_some ht
    rw [hbuf] at hpos
    cases hpos
  | close =>
    obtain ⟨⟨h', out⟩, ht, rfl⟩ := Option.map_eq_some_iff.1 hr
    rcases tjuClose_cases ht with ⟨-, hr'⟩ | ⟨hlast, -⟩
    · cases hr'
      have hnew := (finPacket_isFin h.sock 0 finFlagMask (Or.inr rfl)).1
      refine ⟨⟨Or.inr rfl, fun q hq => ?_, hbuf⟩, rfl, fun p hp => ?_⟩
      · cases hq
        exact hnew
      · rw [List.mem_singleton.1 hp]
        exact hctl _ hnew
    · rcases hst with hst | hst <;> rw [hst] at hlast <;> cases hlast
  | closeRetrans =>
    cases hr
    refine ⟨⟨hst, hfin, hbuf⟩, rfl, ?_⟩
    rcases closeRetrans_cases h.sock with hq | ⟨p, hp, hq⟩
    · rw [hq]
      exact hnil
    · rw [hq]
      intro p' hp'
      rw [List.mem_singleton.1 hp']
      exact hctl p (hfin p hp)
  | wake =>
    obtain ⟨⟨h', out⟩, ht, -⟩ := Option.map_eq_some_iff.1 hr
    rcases wake_cases ht with ⟨hw, -⟩ | ⟨hw, -⟩ <;>
      rcases hst with hst | hst <;> rw [hst] at hw <;> cases hw

theorem ClientWaits.isOpen {cl : Client} (hc : ClientWaits port srv cl)
    (hne : cl.host.sock.state ≠ .synSent) :
    (cl.host.sock.state = .established ∨ cl.host.sock.state = .finWait1) ∧
      (∀ q, cl.host.sock.packetFIN = some q → IsFin q) ∧ cl.host.sock.receivedBuf = [] := by
  cases hc with
  | connecting => exact absurd rfl hne
  | opened _ hst hfin hbuf => exact ⟨hst, hfin, hbuf⟩

/-! ## One step -/

theorem Waits.consume (hw : Waits port srv s b a) (x : Side) (pkt : Buf) (keep : Bool) :
    Waits port srv (s.consume x pkt keep) b a where
  registered := by rw [Session.consume_server]; exact hw.registered
  listening := by rw [Session.consume_server]; exact hw.listening
  listens := by rw [Session.consume_server]; exact hw.listens
  socks := by rw [Session.consume_server]; exact hw.socks
  queues := by rw [Session.consume_server]; exact hw.queues
  toClient p hp := hw.toClient p (Session.mem_consume hp)
  toServer p hp := hw.toServer p (Session.mem_consume hp)
  unopened := by rw [Session.consume_opened]; exact hw.unopened
  read := by rw [Session.consume_read]; exact hw.read
  client := by rw [Session.consume_client]; exact hw.client
  called := by rw [Session.consume_client, Session.consume_opened]; exact hw.called
  early hc := by
    unfold ClientOpen at hc
    rw [Session.consume_client] at hc
    exact ⟨(hw.early hc).1, fun p hp => (hw.early hc).2 p (Session.mem_consume hp)⟩
  queued hc := by
    unfold ClientOpen at hc
    rw [Session.consume_client] at hc
    refine hw.queued (hc.imp_left fun hne hnil => hne ?_)
    refine List.eq_nil_iff_forall_not_mem.2 fun p hp => ?_
    have := Session.mem_consume hp
    rw [hnil] at this
    cases this

theorem AckLost.consume (hl : AckLost s) (x : Side) (pkt : Buf) (keep : Bool) :
    AckLost (s.consume x pkt keep) where
  client := by
    unfold ClientOpen
    rw [Session.consume_client]
    exact hl.client
  flight p hp := hl.flight p (Session.mem_consume hp)
  queue := by rw [Session.consume_server]; exact hl.queue

/-- The client makes a step and sends `out`, which holds the ACK only if it is open now. -/
theorem Waits.clientMove {out : List Buf} (hw : Waits port srv s b a)
    (hserver : s'.server = s.server) (hnet : s'.net = (s.post .client out).net)
    (hread : ∀ x, s'.read x = []) (hopened : s'.opened .server = s.opened .server)
    (hcalled : s'.opened .client = true) {cl : Client}
    (hclient : s'.client = some cl) (hwait : ClientWaits port srv cl)
    (hout : ∀ p ∈ out, p = sessionAck port srv ∧ cl.host.sock.state ≠ .synSent ∨
      getFlags p ≠ ackFlagMask ∧ (getFlags p = synFlagMask → p = sessionSyn port srv))
    (hopen : cl.host.sock.state ≠ .synSent → ClientOpen s ∨ s.net .client ≠ [])
    (hkeep : ClientOpen s → cl.host.sock.state ≠ .synSent) : Waits port srv s' b a := by
  have hnow : ClientOpen s' ↔ cl.host.sock.state ≠ .synSent := by
    constructor
    · rintro ⟨cl', hs, hst⟩
      rw [hclient] at hs
      cases hs
      exact hst
    · exact fun h => ⟨cl, hclient, h⟩
  have hto : s'.net .client = s.net .client := by
    rw [hnet]
    rfl
  have hfrom : ∀ p ∈ s'.net .server, p ∈ s.net .server ∨ p ∈ out := fun p hp => by
    rw [hnet] at hp
    exact (Session.mem_post hp).imp_right And.right
  constructor
  · rw [hserver]; exact hw.registered
  · rw [hserver]; exact hw.listening
  · rw [hserver]; exact hw.listens
  · rw [hserver]; exact hw.socks
  · rw [hserver]; exact hw.queues
  · rw [hto]; exact hw.toClient
  · intro p hp
    rcases hfrom p hp with hp | hp
    · exact hw.toServer p hp
    · exact (hout p hp).imp_left And.left
  · exact hopened.trans hw.unopened
  · exact hread
  · intro cl' hs
    rw [hclient] at hs
    cases hs
    exact hwait
  · rw [hclient, hcalled]
    simp
  · intro hno
    rw [hnow] at hno
    have hold := hw.early fun h => hno (hkeep h)
    refine ⟨hold.1, fun p hp => ?_⟩
    rcases hfrom p hp with hp | hp
    · exact hold.2 p hp
    · exact (hout p hp).elim (fun h => absurd h.2 hno) And.left
  · rw [hto, hnow]
    rintro (h | h)
    · exact hw.queued (Or.inl h)
    · exact hw.queued (hopen h).symm

/-- A client that sends no ACK leaves the ACK lost. -/
theorem AckLost.clientMove {out : List Buf} (hl : AckLost s) (hserver : s'.server = s.server)
    (hnet : s'.net = (s.post .client out).net) {cl : Client} (hclient : s'.client = some cl)
    (hst : cl.host.sock.state ≠ .synSent) (hout : ∀ p ∈ out, getFlags p ≠ ackFlagMask) :
    AckLost s' where
  client := ⟨cl, hclient, hst⟩
  flight p hp := by
    rw [hnet] at hp
    exact (Session.mem_post hp).elim (hl.flight p) fun h => hout p h.2
  queue := by rw [hserver]; exact hl.queue

theorem Session.post_nil (s : Session) (x : Side) : (s.post x []).net = s.net := by
  simp [Session.post]

/-- The client has been called, if it is there. -/
theorem Waits.called_true (hw : Waits port srv s b a) {cl : Client} (hs : s.client = some cl) :
    s.opened .client = true := by
  by_contra h
  rw [hw.called.2 (Bool.eq_false_of_not_eq_true h)] at hs
  cases hs

/-- An open client makes a step that sends neither a SYN nor the ACK. -/
theorem Waits.openMove {out : List Buf} (hw : Waits port srv s b a) {cl cl' : Client}
    (hs : s.client = some cl) (hst : cl.host.sock.state ≠ .synSent)
    (hserver : s'.server = s.server) (hnet : s'.net = (s.post .client out).net)
    (hread : ∀ x, s'.read x = []) (hopened : s'.opened = s.opened)
    (hclient : s'.client = some cl')
    (hst' : cl'.host.sock.state = .established ∨ cl'.host.sock.state = .finWait1)
    (hfin : ∀ q, cl'.host.sock.packetFIN = some q → IsFin q) (hbuf : cl'.host.sock.receivedBuf = [])
    (hout : ∀ p ∈ out, getFlags p ≠ ackFlagMask ∧ getFlags p ≠ synFlagMask) :
    Waits port srv s' b a ∧ (AckLost s → AckLost s') := by
  have hne : cl'.host.sock.state ≠ .synSent := by
    rcases hst' with h | h <;> rw [h] <;> decide
  constructor
  · refine hw.clientMove hserver hnet hread (by rw [hopened]) ?_ hclient
      (.opened cl' hst' hfin hbuf) ?_ ?_ ?_
    · rw [hopened]
      exact hw.called_true hs
    · exact fun p hp => Or.inr ⟨(hout p hp).1, fun h => absurd h (hout p hp).2⟩
    · exact fun _ => Or.inl ⟨cl, hs, hst⟩
    · exact fun _ => hne
  · exact fun hl => hl.clientMove hserver hnet hclient hne fun p hp => (hout p hp).1

/-- The listening socket of a server that waits. -/
theorem Waits.listener_eq {l : TjuTcp} (hw : Waits port srv s b a)
    (ht : onTcpPocket s.server pkt = .listening l) : l = listener (listenAddr srv) := by
  unfold onTcpPocket at ht
  rw [hw.registered] at ht
  dsimp only at ht
  split at ht
  · next sock hs =>
    cases ht
    exact hw.listening _ _ hs
  · cases ht

/-- The server handles a packet with its listening socket. -/
theorem Waits.serverMove {q : Queues} {out : List Buf} {b' a' : Bool} (hw : Waits port srv s b a)
    (hq : OneSlot port srv q b' a') (hout : ∀ p ∈ out, p = sessionSynAck port srv)
    (hearly : ¬ ClientOpen s → a' = false)
    (hqueued : out ≠ [] ∨ s.net .client ≠ [] ∨ ClientOpen s → b' = true ∨ a' = true) :
    Waits port srv ({ s with server := { s.server with queues := q } }.post .server out) b' a' where
  registered := hw.registered
  listening := hw.listening
  listens := hw.listens
  socks := hw.socks
  queues := hq
  toClient p hp := (Session.mem_post hp).elim (hw.toClient p) fun h => hout p h.2
  toServer p hp := hw.toServer p ((Session.mem_post hp).elim id fun h => by cases h.1)
  unopened := hw.unopened
  read := hw.read
  client := hw.client
  called := hw.called
  early hc := ⟨hearly hc, fun p hp =>
    (hw.early hc).2 p ((Session.mem_post hp).elim id fun h => by cases h.1)⟩
  queued hc := by
    refine hqueued ?_
    rcases hc with hne | hc
    · by_cases hnil : out = []
      · right
        left
        rw [hnil, Session.post_nil] at hne
        exact hne
      · exact Or.inl hnil
    · exact Or.inr (Or.inr hc)

theorem AckLost.serverMove {out : List Buf} (hl : AckLost s)
    (hq : ∀ i, q.acceptQueue i = none) :
    AckLost ({ s with server := { s.server with queues := q } }.post .server out) where
  client := hl.client
  flight p hp := hl.flight p ((Session.mem_post hp).elim id fun h => by cases h.1)
  queue := hq

/-- What the listening socket makes of a packet. -/
theorem Waits.handles (hw : Waits port srv s b a) (hmem : pkt ∈ s.net .server) (now : ℕ) :
    ∃ b' a', Waits port srv ({ s with server := { s.server with
        queues := (handleListen now (listener (listenAddr srv)) s.server.queues pkt).1 } }.post
          .server (handleListen now (listener (listenAddr srv)) s.server.queues pkt).2) b' a' ∧
      (AckLost s → a' = false) := by
  have hlost : AckLost s → a = false := fun hl => by
    cases a with
    | false => rfl
    | true =>
      have hnone := hl.queue (clientSlot port srv)
      rw [hw.queues.full_some] at hnone
      cases hnone
  by_cases hack : getFlags pkt = ackFlagMask
  · obtain rfl := (hw.toServer pkt hmem).resolve_right fun h => h.1 hack
    refine ⟨false, a || b, hw.serverMove (hw.queues.ack now) ?_ ?_ ?_, ?_⟩
    · rw [handleListen_out, hack, if_neg (by decide)]
      intro p hp
      cases hp
    · exact fun hc => absurd hack ((hw.early hc).2 _ hmem)
    · rw [handleListen_out, hack, if_neg (by decide)]
      intro h
      have hset := hw.queued (h.resolve_left fun hne => hne rfl)
      rw [Bool.or_eq_true]
      exact Or.inr hset.symm
    · exact fun hl => absurd hack (hl.flight _ hmem)
  · have hsyn := ((hw.toServer pkt hmem).resolve_left fun h =>
      hack (by rw [h, sessionAck_flags])).2
    by_cases hf : getFlags pkt = synFlagMask
    · obtain rfl := hsyn hf
      refine ⟨true, a, hw.serverMove (hw.queues.syn now) ?_ ?_ ?_, hlost⟩
      · rw [handleListen_out, if_pos hf]
        exact fun p hp => List.mem_singleton.1 hp
      · exact fun hc => (hw.early hc).1
      · exact fun _ => Or.inl rfl
    · rw [handleListen_ignores hf hack]
      refine ⟨b, a, hw.serverMove hw.queues ?_ ?_ ?_, hlost⟩
      · exact fun p hp => by cases hp
      · exact fun hc => (hw.early hc).1
      · exact fun h => hw.queued (h.resolve_left fun hne => hne rfl)

/-- **One step** before `tju_accept` returns: it returns, and the client was queued, or nothing
    that is listed changes. -/
theorem waits_step (hw : Waits port srv s b a)
    (he : sessionStep port (listenAddr srv) s e = some s') :
    s'.opened .server = true ∧ a = true ∨
      ∃ b' a', Waits port srv s' b' a' ∧ (AckLost s → AckLost s') := by
  have hack : ∀ {p : Buf}, getFlags p = synFlagMask → getFlags p ≠ ackFlagMask := fun h => by
    rw [h]
    decide
  cases sessionStep_move he with
  | @connect junk hnew =>
    have hno : ¬ ClientOpen s := by
      rintro ⟨cl, hs, -⟩
      rw [hw.called.2 hnew] at hs
      cases hs
    refine Or.inr ⟨b, a, hw.clientMove rfl rfl hw.read rfl rfl rfl (.connecting junk) ?_ ?_ ?_, ?_⟩
    · intro p hp
      obtain rfl := List.mem_singleton.1 hp
      exact Or.inr ⟨hack sessionSyn_flags, fun _ => rfl⟩
    · exact fun h => absurd rfl h
    · exact fun h => absurd h hno
    · exact fun hl => absurd hl.client hno
  | @synRetrans cl hs =>
    refine Or.inr ⟨b, a, hw.clientMove rfl rfl hw.read rfl ?_ hs (hw.client cl hs) ?_ ?_ ?_, ?_⟩
    · exact hw.called_true hs
    · intro p hp
      obtain rfl := List.mem_singleton.1 hp
      exact Or.inr ⟨hack sessionSyn_flags, fun _ => rfl⟩
    · exact fun h => Or.inl ⟨cl, hs, h⟩
    · rintro ⟨cl', hs', hst⟩
      rw [hs] at hs'
      cases hs'
      exact hst
    · intro hl
      obtain ⟨cl', hs', hst⟩ := hl.client
      rw [hs] at hs'
      cases hs'
      refine hl.clientMove rfl rfl hs hst fun p hp => ?_
      obtain rfl := List.mem_singleton.1 hp
      exact hack sessionSyn_flags
  | @connectReturn cl hs _ hest =>
    have hne : cl.host.sock.state ≠ .synSent := by
      rw [hest]
      decide
    obtain ⟨hst, hfin, hbuf⟩ := (hw.client cl hs).isOpen hne
    exact Or.inr ⟨b, a, hw.openMove hs hne rfl (s.post_nil .client).symm hw.read rfl rfl hst hfin
      hbuf fun p hp => by cases hp⟩
  | accept _ hr =>
    left
    refine ⟨rfl, ?_⟩
    rcases tjuAccept_cases s.server 0 with ⟨hnone, -⟩ | ⟨i, sock, k', -, -, hfull, -, -⟩
    · rw [hnone] at hr
      cases hr
    · cases a with
      | true => rfl
      | false =>
        rw [hw.queues.full_none] at hfull
        cases hfull
  | @clientHandles _ _ _ cl g out hmem hs _ hr =>
    obtain rfl := hw.toClient _ hmem
    have hwait := hw.client cl hs
    cases hwait with
    | connecting junk =>
      rw [connecting_answers] at hr
      cases hr
      have hnow : ((s.putHost .client (connectingHost port junk .established)).post .client
          [sessionAck port srv]).client =
            some ⟨connectingHost port junk .established, listenAddr srv, true⟩ := by
        simp [Session.putHost, Session.post, hs]
      refine Or.inr ⟨b, a, Waits.consume ?_ .., fun hl => AckLost.consume ?_ ..⟩
      · refine hw.clientMove rfl rfl hw.read rfl (hw.called_true hs) hnow
          (.opened _ (Or.inl rfl) (fun q hq => by cases hq) rfl) ?_ ?_ ?_
        · exact fun p hp => Or.inl ⟨List.mem_singleton.1 hp, fun h => by cases h⟩
        · exact fun _ => Or.inr (List.ne_nil_of_mem hmem)
        · exact fun _ h => by cases h
      · obtain ⟨cl', hs', hst⟩ := hl.client
        rw [hs] at hs'
        cases hs'
        exact absurd rfl hst
    | opened _ hopen =>
      rw [open_ignores hopen sessionSynAck_flags] at hr
      cases hr
      have hh : s.host .client = some cl.host := by
        unfold Session.host
        rw [hs]
        rfl
      rw [← Session.run_put, Session.run_same hh]
      exact Or.inr ⟨b, a, hw.consume .., fun hl => hl.consume ..⟩
  | serverHandles _ _ ht =>
    unfold onTcpPocket at ht
    rw [hw.registered] at ht
    dsimp only at ht
    split at ht <;> cases ht
  | @listens _ keep now _ hmem ht =>
    obtain rfl := hw.listener_eq ht
    obtain ⟨b', a', hw', hlost⟩ := hw.handles hmem now
    refine Or.inr ⟨b', a', hw'.consume .., fun hl => AckLost.consume ?_ ..⟩
    obtain rfl := hlost hl
    exact hl.serverMove hw'.queues.full_none
  | drops => exact Or.inr ⟨b, a, hw.consume .., fun hl => hl.consume ..⟩
  | lose => exact Or.inr ⟨b, a, hw.consume .., fun hl => hl.consume ..⟩
  | @own x f h r hh hg hr =>
    cases x with
    | server =>
      rw [show s.host .server = none from hw.socks] at hh
      cases hh
    | client =>
      obtain ⟨cl, hs, rfl⟩ := Option.map_eq_some_iff.1 hh
      have hwait := hw.client cl hs
      cases hwait with
      | connecting junk =>
        have hf : f.waits = false := by simpa [Session.connecting, hs] using hg
        obtain rfl := connecting_own (Or.inl rfl) hf hr
        rw [Session.run_same hh]
        exact Or.inr ⟨b, a, hw, id⟩
      | opened _ hopen hfin hbuf =>
        obtain ⟨⟨hst, hfin', hbuf'⟩, hread, hout⟩ := open_own hopen hfin hbuf hr
        have hne : cl.host.sock.state ≠ .synSent := by
          rcases hopen with h | h <;> rw [h] <;> decide
        have hnow : (s.run .client r).client = some { cl with host := r.host } := by
          simp [Session.run, Session.putHost, Session.post, hs]
        refine Or.inr ⟨b, a, hw.openMove hs hne rfl rfl (fun y => ?_) rfl hnow hst hfin' hbuf' hout⟩
        simp only [Session.run, Function.update_apply, hread, List.append_nil, hw.read, ite_self]
  | @clientDone cl hs hconn hst =>
    cases hw.client cl hs with
    | connecting => cases hconn
    | opened _ hopen => rcases hopen with h | h <;> rw [h] at hst <;> cases hst
  | serverDone hh =>
    rw [hw.socks] at hh
    cases hh

/-! ## A run -/

/-- `tju_accept` has returned, or the session is as listed. -/
def Waiting (port srv : BitVec 16) (s : Session) : Prop :=
  s.opened .server = true ∨ ∃ b a, Waits port srv s b a

/-- `tju_accept` returns once. -/
theorem opened_stays (he : sessionStep port (listenAddr srv) s e = some s')
    (hs : s.opened x = true) : s'.opened x = true := by
  cases sessionStep_move he with
  | connect | accept =>
    simp only [Session.markOpened, Session.post, Function.update_apply]
    split_ifs
    · rfl
    · exact hs
  | clientHandles | serverHandles | listens | drops | lose =>
    rw [Session.consume_opened]
    exact hs
  | @own y => cases y <;> exact hs
  | _ => exact hs

theorem waiting_kept :
    KeptBy (sessionStep port (listenAddr srv)) (fun _ _ => True) (Waiting port srv) := by
  rintro s e s' (hs | ⟨b, a, hw⟩) - he
  · exact Or.inl (opened_stays he hs)
  · rcases waits_step hw he with ⟨hs', -⟩ | ⟨b', a', hw', -⟩
    · exact Or.inl hs'
    · exact Or.inr ⟨b', a', hw'⟩

theorem waits_start : Waits port srv (.start (listenAddr srv)) false false where
  registered _ := rfl
  listening i l hl := by
    simp only [Session.start, tjuListen, startSimulation, Function.update_apply] at hl
    split_ifs at hl
    exact (Option.some.inj hl).symm
  listens := Function.update_self ..
  socks := rfl
  queues := .init
  toClient p hp := by cases hp
  toServer p hp := by cases hp
  unopened := rfl
  read _ := rfl
  client cl hs := by cases hs
  called := iff_of_true rfl rfl
  early _ := ⟨rfl, fun p hp => by cases hp⟩
  queued h := by
    rcases h with h | ⟨cl, hs, -⟩
    · exact absurd rfl h
    · cases hs

/-- **Before `tju_accept` returns**, every session is as listed. -/
theorem waits_reached (hr : Reach (sessionStep port (listenAddr srv)) (.start (listenAddr srv)) s)
    (hs : s.opened .server = false) : ∃ b a, Waits port srv s b a := by
  have hw : Waiting port srv s := hr.inv (Or.inr ⟨_, _, waits_start⟩) waiting_kept
  refine hw.resolve_left fun h => ?_
  rw [hs] at h
  cases h

/-- **The ACK stays lost.** -/
theorem lost_stays (hw : Waits port srv s b a) (hl : AckLost s)
    (hr : Reach (sessionStep port (listenAddr srv)) s t) :
    AckLost t ∧ ∃ b' a', Waits port srv t b' a' := by
  refine hr.inv (I := fun t => AckLost t ∧ ∃ b' a', Waits port srv t b' a') ⟨hl, b, a, hw⟩ ?_
  rintro s e s' ⟨hl, b, a, hw⟩ - he
  rcases waits_step hw he with ⟨-, rfl⟩ | ⟨b', a', hw', hlost⟩
  · have hnone := hl.queue (clientSlot port srv)
    rw [hw.queues.full_some] at hnone
    cases hnone
  · exact ⟨hlost hl, b', a', hw'⟩

/-! ## How the handshake is brought to its end -/

section
variable (port srv)

/-- The client is in SYN_SENT. -/
def Calling (s : Session) : Prop :=
  s.opened .server = false ∧
    ∃ junk, s.client = some ⟨connectingHost port junk .synSent, listenAddr srv, true⟩

/-- What can happen to a session that is as listed. -/
abbrev BroughtTo : (Session → Prop) → (Session → Prop) → Prop :=
  LeadsTo (sessionStep port (listenAddr srv)) (fun _ _ => True) (Waiting port srv)

end

theorem Waiting.waits (hs : Waiting port srv s) (hun : s.opened .server = false) :
    ∃ b a, Waits port srv s b a := by
  refine hs.resolve_left fun h => ?_
  rw [hun] at h
  cases h

/-- What comes in at the server is handed to its listening socket. -/
theorem Waits.finds (hw : Waits port srv s b a) (hdst : getDst pkt = srv) :
    onTcpPocket s.server pkt = .listening (listener (listenAddr srv)) := by
  unfold onTcpPocket
  rw [hw.registered, hdst, hw.listens]

theorem Waits.deliver (hw : Waits port srv s b a) (hmem : pkt ∈ s.net .server)
    (hdst : getDst pkt = srv) :
    sessionStep port (listenAddr srv) s (.deliver .server pkt true 0) =
      some ({ s with server := { s.server with
        queues := (handleListen 0 (listener (listenAddr srv)) s.server.queues pkt).1 } }.post
          .server (handleListen 0 (listener (listenAddr srv)) s.server.queues pkt).2) := by
  simp only [sessionStep, List.contains_iff_mem.2 hmem, hw.socks, Option.all_none, and_self,
    if_true, hw.finds hdst, Session.consume]

theorem calling_connect : BroughtTo port srv
    (fun s => s.opened .server = false ∧ s.client = none) (Calling port srv) := by
  refine .one waiting_kept fun s hI ⟨hun, hnone⟩ => ?_
  obtain ⟨b, a, hw⟩ := hI.waits hun
  refine ⟨.connect ⟨0, 0⟩, _, trivial, if_pos (hw.called.1 hnone), hun, ⟨0, 0⟩, rfl⟩

theorem calling_syn : BroughtTo port srv (Calling port srv)
    fun s => Calling port srv s ∧ sessionSyn port srv ∈ s.net .server := by
  refine .one waiting_kept fun s hI ⟨hun, junk, hs⟩ => ?_
  refine ⟨.synRetrans, s.post .client [sessionSyn port srv], trivial, ?_, ⟨hun, junk, hs⟩, ?_⟩
  · simp only [sessionStep, hs, Option.bind_some]
    rfl
  · exact Session.posted (List.mem_singleton.2 rfl)

theorem calling_synAck : BroughtTo port srv
    (fun s => Calling port srv s ∧ sessionSyn port srv ∈ s.net .server)
    fun s => Calling port srv s ∧ sessionSynAck port srv ∈ s.net .client := by
  refine .one waiting_kept fun s hI ⟨⟨hun, junk, hs⟩, hmem⟩ => ?_
  obtain ⟨b, a, hw⟩ := hI.waits hun
  refine ⟨_, _, trivial, hw.deliver hmem getDst_syn, ⟨hun, junk, hs⟩, ?_⟩
  rw [handleListen_out, if_pos sessionSyn_flags]
  exact Session.posted (List.mem_singleton.2 rfl)

theorem calling_ack : BroughtTo port srv
    (fun s => Calling port srv s ∧ sessionSynAck port srv ∈ s.net .client)
    fun s => s.opened .server = false ∧ sessionAck port srv ∈ s.net .server := by
  refine .one waiting_kept fun s hI ⟨⟨hun, junk, hs⟩, hmem⟩ => ?_
  refine ⟨.deliver .client (sessionSynAck port srv) true 0,
    (s.putHost .client (connectingHost port junk .established)).post .client [sessionAck port srv],
    trivial, ?_, hun, Session.posted (List.mem_singleton.2 rfl)⟩
  have hawake : ¬ asleep (connectingHost port junk .synSent).sock.state = true :=
    fun h => by cases h
  simp only [sessionStep, List.contains_iff_mem.2 hmem, if_true, hs]
  rw [if_neg hawake, if_pos synAck_found, connecting_answers]
  rfl

theorem ack_queued : BroughtTo port srv
    (fun s => s.opened .server = false ∧ sessionAck port srv ∈ s.net .server)
    fun s => s.opened .server = false ∧ ∃ i, s.server.queues.acceptQueue i ≠ none := by
  refine .one waiting_kept fun s hI ⟨hun, hmem⟩ => ?_
  obtain ⟨b, a, hw⟩ := hI.waits hun
  refine ⟨_, _, trivial, hw.deliver hmem getDst_ack, hun, clientSlot port srv, ?_⟩
  -- the client was half-open, or established before
  have hset : (a || b) = true := by
    rw [Bool.or_eq_true]
    refine (hw.queued (Or.inr ?_)).symm
    by_contra hno
    exact (hw.early hno).2 _ hmem sessionAck_flags
  have hq := hw.queues.ack 0
  rw [hset] at hq
  show (handleListen ..).1.acceptQueue _ ≠ none
  rw [hq.full_some]
  exact Option.some_ne_none _

theorem queued_accept : BroughtTo port srv
    (fun s => s.opened .server = false ∧ ∃ i, s.server.queues.acceptQueue i ≠ none)
    fun s => s.opened .server = true := by
  refine .one waiting_kept fun s hI ⟨hun, i, hi⟩ => ?_
  obtain ⟨b, a, hw⟩ := hI.waits hun
  obtain rfl : a = true := by
    by_contra h
    rw [Bool.eq_false_of_not_eq_true h] at hw
    exact hi (hw.queues.full_none i)
  obtain ⟨r, hr⟩ := Option.isSome_iff_exists.1 (OneSlot.accept hw.queues)
  have hnum : s.server.queues.acceptNum = 1 := hw.queues.acceptNum
  refine ⟨.accept, { s with server := r.1 }.markOpened .server, trivial, ?_, rfl⟩
  simp only [sessionStep]
  rw [if_pos ⟨hun, by rw [hnum]; decide⟩, hr]
  rfl

/-- A session that is as listed and has not lost the ACK is at one of the stages. -/
theorem Waits.stage (hw : Waits port srv s b a) (hl : ¬ AckLost s) :
    s.client = none ∨ Calling port srv s ∨ sessionAck port srv ∈ s.net .server ∨
      ∃ i, s.server.queues.acceptQueue i ≠ none := by
  by_cases hopen : ClientOpen s
  · right
    right
    by_contra h
    obtain ⟨hflight, hqueue⟩ := not_or.1 h
    refine hl ⟨hopen, fun p hp hack => hflight ?_, fun i => not_not.1 fun hi => hqueue ⟨i, hi⟩⟩
    rw [← (hw.toServer p hp).resolve_right fun h => h.1 hack]
    exact hp
  · cases hs : s.client with
    | none => exact Or.inl rfl
    | some cl =>
      right
      left
      have hwait := hw.client cl hs
      cases hwait with
      | connecting junk => exact ⟨hw.unopened, junk, hs⟩
      | opened _ hst =>
        refine absurd ⟨cl, hs, ?_⟩ hopen
        rcases hst with h | h <;> rw [h] <;> decide

/-- **Unless the ACK is lost**, `tju_accept` can be brought to return. -/
theorem brought_accept : BroughtTo port srv (fun s => s.opened .server = false ∧ ¬ AckLost s)
    fun s => s.opened .server = true := by
  have hack := (@ack_queued port srv).trans queued_accept
  have hcall := calling_syn.trans (calling_synAck.trans (calling_ack.trans hack))
  have hnew := calling_connect.trans hcall
  refine (hnew.either (hcall.either (hack.either queued_accept))).mono ?_ fun _ _ h => h
  intro s hI ⟨hun, hl⟩
  obtain ⟨b, a, hw⟩ := hI.waits hun
  rcases hw.stage hl with h | h | h | h
  · exact Or.inl ⟨hun, h⟩
  · exact Or.inr (Or.inl h)
  · exact Or.inr (Or.inr (Or.inl ⟨hun, h⟩))
  · exact Or.inr (Or.inr (Or.inr ⟨hun, h⟩))

/-- **When `tju_accept` can still return.**  A session in which it has not returned can be brought
    to where it has if and only if the ACK is not lost; and if it is lost, it stays lost: whatever
    happens, `tju_accept` does not return, the client stays in ESTABLISHED or in FIN_WAIT_1, and
    `tju_recv` returns nothing on either side. -/
theorem accept_possible_iff (port srv : BitVec 16)
    (hr : Reach (sessionStep port (listenAddr srv)) (.start (listenAddr srv)) s)
    (hun : s.opened .server = false) :
    ((∃ t, Reach (sessionStep port (listenAddr srv)) s t ∧ t.opened .server = true) ↔ ¬ AckLost s) ∧
      (AckLost s → ∀ t, Reach (sessionStep port (listenAddr srv)) s t →
        t.opened .server = false ∧ (∀ x, t.read x = []) ∧
          ∃ cl, t.client = some cl ∧
            (cl.host.sock.state = .established ∨ cl.host.sock.state = .finWait1)) := by
  obtain ⟨b, a, hw⟩ := waits_reached hr hun
  have hstays : AckLost s → ∀ t, Reach (sessionStep port (listenAddr srv)) s t →
      AckLost t ∧ ∃ b' a', Waits port srv t b' a' := fun hl t ht => lost_stays hw hl ht
  refine ⟨⟨?_, fun hl => ?_⟩, fun hl t ht => ?_⟩
  · rintro ⟨t, ht, hopened⟩ hl
    obtain ⟨-, b', a', hw'⟩ := hstays hl t ht
    rw [hw'.unopened] at hopened
    cases hopened
  · obtain ⟨t, ht, -, hopened⟩ := brought_accept s (Or.inr ⟨b, a, hw⟩) ⟨hun, hl⟩
    exact ⟨t, ht, hopened⟩
  · obtain ⟨hl', b', a', hw'⟩ := hstays hl t ht
    obtain ⟨cl, hs, hne⟩ := hl'.client
    exact ⟨hw'.unopened, hw'.read, cl, hs, ((hw'.client cl hs).isOpen hne).1⟩

/-- The SYN and its answer come in, and the ACK is lost. -/
def ackLostRun : List SessionEv :=
  let syn := synPacket 5678 1234
  let synAck := synAckPacket syn
  [.connect ⟨0, 0⟩, .deliver .server syn false 0, .deliver .client synAck false 0, .connectReturn,
    .lose .server (replyAck synAck (getAck synAck))]

theorem accept_possible_lost :
    let s := (exec (sessionStep 5678 (listenAddr 1234)) (.start (listenAddr 1234)) ackLostRun).getD
      (.start (listenAddr 1234))
    ¬ ∃ t, Reach (sessionStep 5678 (listenAddr 1234)) s t ∧ t.opened .server = true := by
  intro s h
  have hlost : AckLost s := ⟨⟨_, rfl, by decide⟩, by decide, fun i => rfl⟩
  exact (accept_possible_iff 5678 1234 (.of_exec ackLostRun rfl) rfl).1.1 h hlost

end Tju
