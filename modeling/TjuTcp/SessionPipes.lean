/-
  What the applications see of a session.

  While the client is in SYN_SENT, nothing but copies of the SYN and of its
  answer is in flight, and the server cannot return from `tju_accept`
  (`Shaking`).  From then on the session follows a connection (`Linked`) in
  which both sides have been open from the start and no packet is ever lost:
  what comes in too early, or for a socket that is gone, is not delivered there.

  * `shaking_step`, `linked_step`: one step of either phase;
  * `session_is_pipes`: what the two applications see, from `tju_connect` and
    `tju_accept` on, is a run of two bounded pipes.
-/
import TjuTcp.Session

namespace Tju

open Lib

section
variable (port : BitVec 16) (addr : TjuSockAddr)

/-- The listening socket. -/
def listener : TjuTcp := { tjuBind tjuSocket addr with state := .listen }

/-- The half-open socket of the client, and the same when it is established. -/
def halfOpenSock : TjuTcp := newConn (listener addr) (synPacket port addr.port)

def acceptedSock : TjuTcp := { halfOpenSock port addr with state := .established }

/-- The connection that the session becomes. -/
def sessionConn : Conn where
  ep
    | .client => establishedHost ⟨clientIp, port⟩ addr
    | .server => sockHost (acceptedSock port addr)
  net := handshake ⟨clientIp, port⟩ addr
  sent _ := []
  read _ := []
  finSeen _ := false

/-- The server before `tju_accept` returns: its queues hold nothing but the socket of the client. -/
structure ServerWaits (k : Kernel) : Prop where
  registered : ∀ i, k.establishedSocks i = none
  listening : ∀ i l, k.listenSocks i = some l → l = listener addr
  socks : k.socks 0 = none
  half : ∀ i t, (k.queues.synQueue i).sock = some t → t = halfOpenSock port addr
  full : ∀ i t, k.queues.acceptQueue i = some t → t = acceptedSock port addr

/-- The client has not entered ESTABLISHED. -/
structure Shaking (s : Session) : Prop where
  server : ServerWaits port addr s.server
  unopened : s.opened .server = false
  noFull : ∀ i, s.server.queues.acceptQueue i = none
  client : s.client = none ∨ s.opened .client = true ∧
    ∃ junk, s.client = some ⟨connectingHost port junk .synSent, addr, true⟩
  toServer : ∀ p ∈ s.net .server, p = synPacket port addr.port
  toClient : ∀ p ∈ s.net .client, p = synAckPacket (synPacket port addr.port)
  sent : s.sent = fun _ => []
  read : s.read = fun _ => []

/-- The client once it has entered ESTABLISHED, and the client `h` of the connection. -/
inductive ClientLinked : Option Client → Host → Prop
  | connecting (junk : TjuSockAddr) :
      ClientLinked (some ⟨connectingHost port junk .established, addr, true⟩)
        (establishedHost ⟨clientIp, port⟩ addr)
  | running (h : Host) : ClientLinked (some ⟨h, addr, false⟩) h
  | gone (h : Host) : ClientLinked none h

/-- The server, and the server `h` of the connection. -/
inductive ServerLinked (k : Kernel) : Bool → Host → Prop
  | waiting : ServerWaits port addr k → ServerLinked k false (sockHost (acceptedSock port addr))
  | running (h : Host) : (∀ i n, k.establishedSocks i = some n → n = 0) → k.socks 0 = some h →
      ServerLinked k true h
  | gone (h : Host) : (∀ i n, k.establishedSocks i = some n → n = 0) → k.socks 0 = none →
      ServerLinked k true h

/-- The session and the connection that it has become. -/
structure Linked (s : Session) (c : Conn) : Prop where
  sent : s.sent = c.sent
  read : s.read = c.read
  net : ∀ x, ∀ p ∈ s.net x, p ∈ c.net x
  synAck : synAckPacket (synPacket port addr.port) ∈ c.net .client
  syn : ∀ p ∈ c.net .server, getFlags p = synFlagMask → p = synPacket port addr.port
  opened : s.opened .client = true
  client : ClientLinked port addr s.client (c.ep .client)
  server : ServerLinked port addr s.server (s.opened .server) (c.ep .server)

/-- `tju_connect` returns before the client is handed another packet. -/
def Prompt (s : Session) : SessionEv → Prop
  | .deliver .client _ _ _ =>
    ∀ c ∈ s.client, c.connecting = true → c.host.sock.state ≠ .established
  | _ => True

instance (s : Session) : DecidablePred (Prompt s)
  | .deliver .client _ _ _ =>
    inferInstanceAs (Decidable (∀ c ∈ s.client, c.connecting = true →
      c.host.sock.state ≠ .established))
  | .deliver .server _ _ _ | .connect _ | .synRetrans | .connectReturn | .accept | .lose ..
  | .own .. | .done _ => isTrue trivial

end

variable {port : BitVec 16} {addr : TjuSockAddr} {s s' : Session} {c c' : Conn} {x y : Side}
  {h : Host} {pkt p : Buf} {out : List Buf} {snt rd : List Byte} {keep : Bool} {k : Kernel}
  {now : ℕ} {l : TjuTcp} {e : SessionEv}

/-! ## The listening socket -/

theorem onTcpPocket_listening (hw : ServerWaits port addr k)
    (ht : onTcpPocket k pkt = .listening l) : l = listener addr := by
  unfold onTcpPocket at ht
  rw [hw.registered] at ht
  dsimp only at ht
  split at ht
  · next sock hs =>
    cases ht
    exact hw.listening _ _ hs
  · cases ht

/-- Apart from the answer to a SYN, the handler only moves half-open sockets. -/
theorem handleListen_half_syn {q : Queues} {i : ℤ} {sock : TjuTcp}
    (hs : ((handleListen now l q pkt).1.synQueue i).sock = some sock) :
    (q.synQueue i).sock = some sock ∨ getFlags pkt = synFlagMask ∧ sock = newConn l pkt := by
  by_cases hf : getFlags pkt = synFlagMask
  · exact (handleListen_half hs).imp_right fun h => ⟨hf, h⟩
  · left
    unfold handleListen at hs
    rw [if_neg hf] at hs
    split_ifs at hs
    · split at hs
      · next q' hq => exact getFromSyn_half (by rw [hq]; exact hs)
      · next q' t hq =>
        rw [enAcceptQueue_synQueue] at hs
        exact getFromSyn_half (by rw [hq]; exact hs)
    · exact hs

/-- **The listening socket** queues the client, once or again. -/
theorem ServerWaits.listens (hw : ServerWaits port addr k)
    (hsyn : getFlags pkt = synFlagMask → pkt = synPacket port addr.port) (now : ℕ) :
    ServerWaits port addr
      { k with queues := (handleListen now (listener addr) k.queues pkt).1 } := by
  refine ⟨hw.registered, hw.listening, hw.socks, fun i t ht => ?_, fun i t ht => ?_⟩
  · rcases handleListen_half_syn ht with ht | ⟨hf, rfl⟩
    · exact hw.half i t ht
    · rw [hsyn hf]
      rfl
  · rcases handleListen_slot now (listener addr) k.queues pkt i with hs | ⟨sock, htake, -, -, hs⟩
    · exact hw.full i t (hs ▸ ht)
    · obtain rfl : t = { sock with state := .established } := Option.some.inj (ht.symm.trans hs)
      have hhalf : sock = halfOpenSock port addr := by
        unfold listenTakes at htake
        split_ifs at htake
        exact hw.half _ sock ((getFromSyn_cases _ _).2 sock htake)
      rw [hhalf]
      rfl

/-- It answers a SYN, and nothing else. -/
theorem listens_out (hsyn : getFlags pkt = synFlagMask → pkt = synPacket port addr.port)
    (hp : p ∈ (handleListen now l k.queues pkt).2) :
    p = synAckPacket (synPacket port addr.port) := by
  rw [handleListen_out] at hp
  split_ifs at hp with hf
  · rw [List.mem_singleton.1 hp, hsyn hf]
  · cases hp

/-! ## The connection -/

theorem sessionConn_ctl (port : BitVec 16) (addr : TjuSockAddr) :
    CtlInv (sessionConn port addr) where
  opened x := by cases x <;> rfl
  fins x p hp hf := absurd hf (handshake_not_isFin _ _ x p hp)
  pending x p hp := by cases x <;> cases hp

theorem sessionConn_flow (port : BitVec 16) (addr : TjuSockAddr) :
    FlowAll (sessionConn port addr) := by
  have hf : FlowAll (.start ⟨clientIp, port⟩ addr (handshake ⟨clientIp, port⟩ addr)) :=
    flowAll_start (handshake_quiet _ _)
  intro x
  -- the address that the server was bound to is all that differs
  cases x
  · exact (hf .client).receiver rfl rfl
  · exact (hf .server).sender ⟨rfl, rfl, rfl, rfl, rfl⟩

/-- No step of a connection sends a SYN. -/
theorem connStep_syn {e : ConnEv} (hi : CtlInv c) (he : connStep c e = some c') (y : Side) :
    ∀ p ∈ c'.net y, getFlags p = synFlagMask → p ∈ c.net y := by
  intro p hp hf
  obtain ⟨x, st, fin, out, b, hctl, hv⟩ := connStep_ctl hi.notSynSent he
  rcases Side.eq_or_peer x y with rfl | rfl
  · exact hv.net p hp
  · rcases hv.netPeer p hp with h | h | ⟨-, h⟩
    · exact h
    · have hout : getFlags p ≠ synFlagMask := by
        cases hctl with
        | quiet => cases h
        | dataAck =>
          rw [List.mem_singleton.1 h, ackPacket_flags]
          decide
        | finIn =>
          rw [List.mem_singleton.1 h, replyAck_flags]
          decide
        | closeStep _ _ hc =>
          obtain ⟨seq, rfl, -⟩ := hc.acks p h
          rw [replyAck_flags]
          decide
        | close _ hq =>
          rw [List.mem_singleton.1 h, hq, finPacket_eq, getFlags_wire]
          dsimp only
          decide
        | resend hq =>
          rw [List.mem_singleton.1 h]
          have hfin := (hi.pending _ _ hq).1
          rintro hs
          rcases hfin with hfin | hfin <;> exact absurd (hfin.symm.trans hs) (by decide)
        | finOut _ hq =>
          rw [List.mem_singleton.1 h, hq, finPacket_eq, getFlags_wire]
          dsimp only
          decide
        | done => cases h
      exact absurd hf hout
    · exact absurd (h.symm.trans hf) (by decide)

/-! ## The session and its connection -/

theorem Linked.consume (hl : Linked port addr s c) (x : Side) (pkt : Buf) (keep : Bool) :
    Linked port addr (s.consume x pkt keep) c where
  sent := by rw [Session.consume_sent]; exact hl.sent
  read := by rw [Session.consume_read]; exact hl.read
  net y p hp := hl.net y p (Session.mem_consume hp)
  synAck := hl.synAck
  syn := hl.syn
  opened := by rw [Session.consume_opened]; exact hl.opened
  client := by rw [Session.consume_client]; exact hl.client
  server := by rw [Session.consume_server, Session.consume_opened]; exact hl.server

theorem Linked.seeFin (hl : Linked port addr s c) (x : Side) (b : Bool) :
    Linked port addr s (c.seeFin x b) :=
  ⟨hl.sent, hl.read, hl.net, hl.synAck, hl.syn, hl.opened, hl.client, hl.server⟩

/-- A step of a socket that leaves it as it is and sends nothing. -/
theorem Session.run_same (hh : s.host x = some h) : s.run x ⟨h, [], [], []⟩ = s := by
  cases x with
  | client =>
    obtain ⟨cl, hcl, rfl⟩ := Option.map_eq_some_iff.1 hh
    have hmap : s.client.map (fun c => { c with host := cl.host }) = s.client := by
      rw [hcl]
      rfl
    simp [Session.run, Session.putHost, Session.post, hmap]
  | server =>
    have hs : s.server.socks 0 = some h := hh
    simp [Session.run, Session.putHost, Session.post, ← hs]

/-- A step that writes and reads nothing. -/
theorem Session.run_put (s : Session) (x : Side) (h : Host) (out : List Buf) :
    s.run x ⟨h, out, [], []⟩ = (s.putHost x h).post x out := by
  cases x <;> simp [Session.run, Session.putHost, Session.post]

/-! ## While the client connects -/

theorem synAck_mem (port : BitVec 16) (addr : TjuSockAddr) :
    synAckPacket (synPacket port addr.port) ∈ (sessionConn port addr).net .client :=
  List.mem_singleton.2 rfl

theorem syn_mem (port : BitVec 16) (addr : TjuSockAddr) :
    synPacket port addr.port ∈ (sessionConn port addr).net .server :=
  List.mem_cons_self ..

theorem Shaking.consume (hi : Shaking port addr s) (x : Side) (pkt : Buf) (keep : Bool) :
    Shaking port addr (s.consume x pkt keep) where
  server := by rw [Session.consume_server]; exact hi.server
  unopened := by rw [Session.consume_opened]; exact hi.unopened
  noFull := by rw [Session.consume_server]; exact hi.noFull
  client := by rw [Session.consume_client, Session.consume_opened]; exact hi.client
  toServer p hp := hi.toServer p (Session.mem_consume hp)
  toClient p hp := hi.toClient p (Session.mem_consume hp)
  sent := by rw [Session.consume_sent]; exact hi.sent
  read := by rw [Session.consume_read]; exact hi.read

/-- The client sends the SYN, for the first time or again. -/
theorem Shaking.syn (hi : Shaking port addr s) (hserver : s'.server = s.server)
    (hopened : s'.opened .server = s.opened .server) (hcalled : s'.opened .client = true)
    (hclient : ∃ junk, s'.client = some ⟨connectingHost port junk .synSent, addr, true⟩)
    (hnet : s'.net = (s.post .client [synPacket port addr.port]).net) (hsent : s'.sent = s.sent)
    (hread : s'.read = s.read) : Shaking port addr s' where
  server := by rw [hserver]; exact hi.server
  unopened := by rw [hopened]; exact hi.unopened
  noFull := by rw [hserver]; exact hi.noFull
  client := Or.inr ⟨hcalled, hclient⟩
  toServer p hp := by
    rw [hnet] at hp
    rcases Session.mem_post hp with h | ⟨-, h⟩
    · exact hi.toServer p h
    · exact List.mem_singleton.1 h
  toClient p hp := by
    rw [hnet] at hp
    rcases Session.mem_post hp with h | ⟨h, -⟩
    · exact hi.toClient p h
    · cases h
  sent := by rw [hsent]; exact hi.sent
  read := by rw [hread]; exact hi.read

/-- The server handles a packet. -/
theorem Shaking.listens (hi : Shaking port addr s) (hp : pkt ∈ s.net .server) (now : ℕ) :
    Shaking port addr ({ s with server := { s.server with
      queues := (handleListen now (listener addr) s.server.queues pkt).1 } }.post .server
        (handleListen now (listener addr) s.server.queues pkt).2) where
  server := hi.server.listens (fun _ => hi.toServer pkt hp) now
  unopened := hi.unopened
  noFull i := by
    rcases handleListen_slot now (listener addr) s.server.queues pkt i with hs | ⟨sock, ht, -⟩
    · exact hs.trans (hi.noFull i)
    · have hsyn : getFlags pkt = synFlagMask := by
        rw [hi.toServer pkt hp, synPacket_flags]
      rw [listenTakes_syn hsyn] at ht
      cases ht
  client := hi.client
  toServer p hm := by
    rcases Session.mem_post hm with h | ⟨h, -⟩
    · exact hi.toServer p h
    · cases h
  toClient p hm := by
    rcases Session.mem_post hm with h | ⟨-, h⟩
    · exact hi.toClient p h
    · exact listens_out (fun _ => hi.toServer pkt hp) h
  sent := hi.sent
  read := hi.read

/-- The client enters ESTABLISHED, and answers. -/
theorem Shaking.established (hi : Shaking port addr s) (hopen : s.opened .client = true)
    (junk : TjuSockAddr) (hclient : s'.client =
      some ⟨connectingHost port junk .established, addr, true⟩)
    (hserver : s'.server = s.server) (hopened : s'.opened = s.opened)
    (hnet : s'.net = (s.post .client [replyAck (synAckPacket (synPacket port addr.port))
      (getAck (synAckPacket (synPacket port addr.port)))]).net)
    (hsent : s'.sent = s.sent) (hread : s'.read = s.read) :
    Linked port addr s' (sessionConn port addr) where
  sent := hsent.trans hi.sent
  read := hread.trans hi.read
  net x p hp := by
    rw [hnet] at hp
    rcases Session.mem_post hp with h | ⟨rfl, h⟩
    · cases x
      · rw [hi.toClient p h]
        exact synAck_mem port addr
      · rw [hi.toServer p h]
        exact syn_mem port addr
    · rw [List.mem_singleton.1 h]
      exact List.mem_cons_of_mem _ (List.mem_singleton.2 rfl)
  synAck := synAck_mem port addr
  syn p hp hf := by
    rcases List.mem_cons.1 hp with rfl | hp
    · rfl
    · rw [List.mem_singleton.1 hp, replyAck_flags] at hf
      cases hf
  opened := by rw [hopened]; exact hopen
  client := by rw [hclient]; exact .connecting junk
  server := by rw [hopened, hi.unopened, hserver]; exact .waiting hi.server

/-- Before `tju_connect` returns, nothing that the socket could do on its own has begun. -/
theorem connecting_own {junk : TjuSockAddr} {st : State} {f : OwnEv} {r : Outcome}
    (hst : st = .synSent ∨ st = .established) (hf : f.waits = false)
    (hr : ownStep (connectingHost port junk st) f = some r) :
    r = ⟨connectingHost port junk st, [], [], []⟩ := by
  cases f with
  | closeRetrans =>
    cases hr
    rcases hst with rfl | rfl <;> rfl
  | wake => rcases hst with rfl | rfl <;> cases hr
  | _ => cases hf

/-- The answer to the SYN establishes the client. -/
theorem connecting_handles (now : ℕ) (junk : TjuSockAddr) :
    tjuHandlePacket now (connectingHost port junk .synSent)
      (synAckPacket (synPacket port addr.port)) =
    some (connectingHost port junk .established, [replyAck (synAckPacket (synPacket port addr.port))
      (getAck (synAckPacket (synPacket port addr.port)))]) := by
  have hack : getAck (synAckPacket (synPacket port addr.port)) = clientIsn + 1 := by
    rw [synAckPacket_eq, getAck_wire, synPacket_eq, getSeq_wire]
  unfold tjuHandlePacket
  exact if_pos hack

/-- **One step** while the client connects. -/
theorem shaking_step (hi : Shaking port addr s) (he : sessionStep port addr s e = some s') :
    s.shows e = [] ∧ (Shaking port addr s' ∨ Linked port addr s' (sessionConn port addr)) := by
  -- the socket of the client, if there is one
  have hcl : ∀ cl, s.client = some cl → s.opened .client = true ∧
      ∃ junk, cl = ⟨connectingHost port junk .synSent, addr, true⟩ := by
    intro cl hs
    rcases hi.client with h | ⟨hopen, junk, h⟩
    · rw [h] at hs
      cases hs
    · exact ⟨hopen, junk, Option.some.inj (hs.symm.trans h)⟩
  cases sessionStep_move he with
  | @connect junk => exact ⟨rfl, Or.inl (hi.syn rfl rfl rfl ⟨junk, rfl⟩ rfl rfl rfl)⟩
  | synRetrans hs =>
    obtain ⟨hopen, junk, rfl⟩ := hcl _ hs
    exact ⟨rfl, Or.inl (hi.syn rfl rfl hopen ⟨junk, hs⟩ rfl rfl rfl)⟩
  | connectReturn hs _ hst =>
    obtain ⟨-, junk, rfl⟩ := hcl _ hs
    cases hst
  | accept _ hr =>
    unfold tjuAccept at hr
    split at hr
    · next q sock' hq =>
      obtain ⟨i, hsock, -⟩ := getFromAccept_eq_some hq
      rw [hi.noFull i] at hsock
      cases hsock
    · cases hr
  | clientHandles hmem hs _ hr =>
    obtain ⟨hopen, junk, rfl⟩ := hcl _ hs
    obtain rfl := hi.toClient _ hmem
    rw [connecting_handles] at hr
    cases hr
    refine ⟨rfl, Or.inr (Linked.consume ?_ ..)⟩
    refine hi.established hopen junk ?_ rfl rfl rfl rfl rfl
    simp only [Session.putHost, Session.post, hs, Option.map_some]
  | serverHandles _ _ ht =>
    unfold onTcpPocket at ht
    rw [hi.server.registered] at ht
    dsimp only at ht
    split at ht <;> cases ht
  | listens hmem ht =>
    rw [onTcpPocket_listening hi.server ht]
    exact ⟨rfl, Or.inl ((hi.listens hmem _).consume ..)⟩
  | drops => exact ⟨rfl, Or.inl (hi.consume ..)⟩
  | lose => exact ⟨rfl, Or.inl (hi.consume ..)⟩
  | @own x f h r hh hg hr =>
    cases x with
    | client =>
      obtain ⟨cl, hs, rfl⟩ := Option.map_eq_some_iff.1 hh
      obtain ⟨-, junk, rfl⟩ := hcl cl hs
      have hwait : f.waits = false := by simpa [Session.connecting, hs] using hg
      obtain rfl := connecting_own (Or.inl rfl) hwait hr
      rw [Session.run_same hh]
      refine ⟨?_, Or.inl hi⟩
      cases f <;> first | rfl | cases hwait
    | server =>
      rw [show s.host .server = none from hi.server.socks] at hh
      cases hh
  | clientDone hs hconn =>
    obtain ⟨-, junk, rfl⟩ := hcl _ hs
    cases hconn
  | serverDone hh =>
    rw [hi.server.socks] at hh
    cases hh

/-! ## Once the client is established -/

theorem Linked.host_of (hl : Linked port addr s c) (hret : s.connecting x = false)
    (hh : s.host x = some h) : h = c.ep x := by
  have hclient := hl.client
  have hserver := hl.server
  cases x with
  | client =>
    obtain ⟨cl, hs, rfl⟩ := Option.map_eq_some_iff.1 hh
    rw [hs] at hclient
    generalize c.ep .client = g at hclient
    cases hclient with
    | connecting => simp [Session.connecting, hs] at hret
    | running => rfl
  | server =>
    have hs : s.server.socks 0 = some h := hh
    generalize c.ep .server = g at hserver
    generalize s.opened .server = b at hserver
    cases hserver with
    | waiting hw => rw [hw.socks] at hs; cases hs
    | running _ _ hg => exact Option.some.inj (hs.symm.trans hg)
    | gone _ _ hg => rw [hg] at hs; cases hs

/-- **A socket makes a step**, on both sides of the relation. -/
theorem Linked.run (hl : Linked port addr s c) (hret : s.connecting x = false)
    (hh : s.host x = some (c.ep x))
    (hsyn : ∀ p ∈ (c.put x h out snt rd).net .server,
      getFlags p = synFlagMask → p ∈ c.net .server) :
    Linked port addr (s.run x ⟨h, out, snt, rd⟩) (c.put x h out snt rd) where
  sent := by
    show Function.update s.sent x (s.sent x ++ snt) = Function.update c.sent x (c.sent x ++ snt)
    rw [hl.sent]
  read := by
    show Function.update s.read x (s.read x ++ rd) = Function.update c.read x (c.read x ++ rd)
    rw [hl.read]
  net y p hp := by
    rcases Session.mem_post (s := s.putHost x h) hp with hm | ⟨rfl, hm⟩
    · have hold : p ∈ c.net y := hl.net y p (by cases x <;> exact hm)
      rcases Side.eq_or_peer x y with rfl | rfl
      · simpa using hold
      · simpa using Or.inl hold
    · simpa using Or.inr hm
  synAck := by
    rcases Side.eq_or_peer x .client with h | h
    · rw [h, Conn.put_net_self, ← h]
      exact hl.synAck
    · rw [h, Conn.put_net_peer, ← h]
      exact List.mem_append_left _ hl.synAck
  syn p hp hf := hl.syn p (hsyn p hp hf) hf
  opened := by cases x <;> exact hl.opened
  client := by
    cases x with
    | client =>
      obtain ⟨cl, hs, hcl⟩ := Option.map_eq_some_iff.1 hh
      have hclient := hl.client
      have hnow : (s.run .client ⟨h, out, snt, rd⟩).client = some { cl with host := h } := by
        simp [Session.run, Session.putHost, Session.post, hs]
      rw [hnow, Conn.put_ep_self]
      rw [hs] at hclient
      generalize c.ep .client = g at hclient
      cases hclient with
      | connecting => simp [Session.connecting, hs] at hret
      | running => exact .running h
    | server =>
      rw [show Side.client = Side.server.peer from rfl, Conn.put_ep_peer]
      exact hl.client
  server := by
    cases x with
    | client =>
      rw [show Side.server = Side.client.peer from rfl, Conn.put_ep_peer]
      exact hl.server
    | server =>
      have hserver := hl.server
      have hs : s.server.socks 0 = some (c.ep .server) := hh
      rw [Conn.put_ep_self]
      show ServerLinked port addr _ (s.opened .server) h
      generalize c.ep .server = g at hserver hs
      generalize s.opened .server = b at hserver
      cases hserver with
      | waiting hw =>
        rw [hw.socks] at hs
        cases hs
      | running _ hreg _ =>
        exact .running h hreg (by simp [Session.run, Session.putHost, Session.post])
      | gone _ _ hg =>
        rw [hg] at hs
        cases hs

/-- A connected socket of the session makes the step of the connection. -/
theorem Linked.own (hi : CtlInv c) (hl : Linked port addr s c) (hret : s.connecting x = false)
    (hh : s.host x = some h) {f : OwnEv} {r : Outcome} (hr : ownStep h f = some r) :
    ∃ c', connStep c (f.on x) = some c' ∧ s.shows (.own x f) = visible c (f.on x) ∧
      Linked port addr (s.run x r) c' := by
  obtain rfl := hl.host_of hret hh
  have he : connStep c (f.on x) = some (c.put x r.host r.out r.sent r.read) := by
    rw [connStep_own, hr]
    rfl
  exact ⟨_, he, shows_own hh f, hl.run hret hh (connStep_syn hi he .server)⟩

/-- So does one that is handed a packet. -/
theorem Linked.handles (hi : CtlInv c) (hl : Linked port addr s c) (hret : s.connecting x = false)
    (hh : s.host x = some h) (hp : pkt ∈ s.net x) (hawake : asleep h.sock.state = false)
    {r : Host × List Buf} (hr : tjuHandlePacket now h pkt = some r) (keep : Bool) :
    ∃ c', connStep c (.deliver x pkt true now) = some c' ∧
      Linked port addr (((s.putHost x r.1).post x r.2).consume x pkt keep) c' := by
  obtain rfl := hl.host_of hret hh
  have he : connStep c (.deliver x pkt true now) = some ((c.put x r.1 r.2 [] []).seeFin x
      (takesFin (c.ep x).sock.state (getFlags pkt))) := by
    simp only [connStep, hl.net x pkt hp, hawake, and_self, if_true, hr, Option.map_some]
    rfl
  have hl' : Linked port addr (s.run x ⟨r.1, r.2, [], []⟩) (c.put x r.1 r.2 [] []) :=
    hl.run hret hh fun p hp hf => connStep_syn hi he .server p hp hf
  rw [Session.run_put] at hl'
  exact ⟨_, he, (Linked.seeFin hl' ..).consume ..⟩

/-- The server is handed a packet for its listening socket. -/
theorem Linked.listens (hl : Linked port addr s c) (hp : pkt ∈ s.net .server)
    (ht : onTcpPocket s.server pkt = .listening l) (now : ℕ) :
    Linked port addr ({ s with server := { s.server with
      queues := (handleListen now l s.server.queues pkt).1 } }.post .server
        (handleListen now l s.server.queues pkt).2) c where
  sent := hl.sent
  read := hl.read
  net y p hm := by
    rcases Session.mem_post hm with h | ⟨rfl, h⟩
    · exact hl.net y p h
    · rw [listens_out (fun hf => hl.syn pkt (hl.net _ pkt hp) hf) h]
      exact hl.synAck
  synAck := hl.synAck
  syn := hl.syn
  opened := hl.opened
  client := hl.client
  server := by
    have hserver := hl.server
    show ServerLinked port addr _ (s.opened .server) _
    generalize c.ep .server = g at hserver
    generalize s.opened .server = b at hserver
    cases hserver with
    | waiting hw =>
      rw [onTcpPocket_listening hw ht]
      exact .waiting (hw.listens (fun hf => hl.syn pkt (hl.net _ pkt hp) hf) now)
    | running _ hreg hs => exact .running _ hreg hs
    | gone _ hreg hs => exact .gone _ hreg hs

/-- The client that has not returned from `tju_connect` is established, and has sent nothing. -/
theorem Linked.client_cases (hl : Linked port addr s c) {cl : Client} (hs : s.client = some cl) :
    (∃ junk, cl = ⟨connectingHost port junk .established, addr, true⟩ ∧
      c.ep .client = establishedHost ⟨clientIp, port⟩ addr) ∨ cl = ⟨c.ep .client, addr, false⟩ := by
  have hclient := hl.client
  rw [hs] at hclient
  generalize c.ep .client = g at hclient
  cases hclient with
  | connecting junk => exact Or.inl ⟨junk, rfl, rfl⟩
  | running => exact Or.inr rfl

/-- `tju_accept` returns the socket of the client. -/
theorem Linked.accept (hl : Linked port addr s c) (hclosed : s.opened .server = false)
    {r : Kernel × TjuTcp} (hr : tjuAccept s.server 0 = some r) :
    Linked port addr ({ s with server := r.1 }.markOpened .server) c where
  sent := hl.sent
  read := hl.read
  net := hl.net
  synAck := hl.synAck
  syn := hl.syn
  opened := hl.opened
  client := hl.client
  server := by
    have hserver := hl.server
    rw [hclosed] at hserver
    show ServerLinked port addr r.1 true _
    generalize c.ep .server = g at hserver
    cases hserver with
    | waiting hw =>
      unfold tjuAccept at hr
      split at hr
      · next q sock hq =>
        cases hr
        obtain ⟨i, hsock, -⟩ := getFromAccept_eq_some hq
        rw [hw.full i sock hsock]
        refine .running _ (fun i n hn => ?_) (by simp)
        simp only [Function.update_apply, hw.registered] at hn
        split_ifs at hn
        exact (Option.some.inj hn).symm
      · cases hr

/-- `onTCPPocket` finds no connected socket but the one that `tju_accept` has returned. -/
theorem Linked.found (hl : Linked port addr s c) {n : ℕ}
    (ht : onTcpPocket s.server pkt = .established n) : n = 0 := by
  have hserver := hl.server
  have hreg : s.server.establishedSocks (packetHash pkt) = some n := by
    unfold onTcpPocket at ht
    split at ht
    · next m hm =>
      cases ht
      exact hm
    · split at ht <;> cases ht
  generalize c.ep .server = g at hserver
  generalize s.opened .server = b at hserver
  cases hserver with
  | waiting hw =>
    rw [hw.registered] at hreg
    cases hreg
  | running _ hall _ => exact hall _ n hreg
  | gone _ hall _ => exact hall _ n hreg

/-- The server has closed its socket, and `tju_close` returns. -/
theorem ServerLinked.done {b : Bool} {g : Host} (hs : ServerLinked port addr k b g)
    (hh : k.socks 0 = some h) : ServerLinked port addr (closeDone k 0 h.sock) b g := by
  have hreg (hall : ∀ i n, k.establishedSocks i = some n → n = 0) :
      ∀ i n, (closeDone k 0 h.sock).establishedSocks i = some n → n = 0 := by
    intro i n hn
    simp only [closeDone, Function.update_apply] at hn
    split_ifs at hn
    exact hall i n hn
  have hnone : (closeDone k 0 h.sock).socks 0 = none := by simp [closeDone]
  cases hs with
  | waiting hw =>
    rw [hw.socks] at hh
    cases hh
  | running _ hall _ => exact .gone _ (hreg hall) hnone
  | gone _ hall _ => exact .gone _ (hreg hall) hnone

/-- **One step** once the client is established: the connection makes it, or it shows nothing. -/
theorem linked_step (hi : CtlInv c) (hl : Linked port addr s c) (hG : Prompt s e)
    (he : sessionStep port addr s e = some s') :
    (s.shows e = [] ∧ Linked port addr s' c) ∨ ∃ f c', connStep c f = some c' ∧
      s.shows e = visible c f ∧ Linked port addr s' c' := by
  cases sessionStep_move he with
  | connect hclosed =>
    rw [hl.opened] at hclosed
    cases hclosed
  | synRetrans hs hconn hst =>
    rcases hl.client_cases hs with ⟨junk, rfl, -⟩ | rfl
    · exact absurd rfl hst
    · cases hconn
  | connectReturn hs hconn =>
    rcases hl.client_cases hs with ⟨junk, rfl, hep⟩ | rfl
    · refine Or.inl ⟨rfl, ?_⟩
      refine ⟨hl.sent, hl.read, hl.net, hl.synAck, hl.syn, hl.opened, ?_, hl.server⟩
      rw [hep]
      exact .running _
    · cases hconn
  | accept hclosed hr => exact Or.inl ⟨rfl, hl.accept hclosed hr⟩
  | @clientHandles _ keep _ _ _ _ hmem hs hsleep hr =>
    rcases hl.client_cases hs with ⟨junk, rfl, -⟩ | rfl
    · exact absurd rfl (hG _ hs rfl)
    · have hret : s.connecting .client = false := by simp [Session.connecting, hs]
      have hh : s.host .client = some (c.ep .client) := by simp [Session.host, hs]
      obtain ⟨c', hstep, hl'⟩ := hl.handles hi hret hh hmem hsleep hr keep
      exact Or.inr ⟨_, c', hstep, rfl, hl'⟩
  | @serverHandles _ keep _ _ _ _ _ hmem hsleep ht hh hr =>
    obtain rfl := hl.found ht
    have hret : s.connecting .server = false := rfl
    obtain ⟨c', hstep, hl'⟩ := hl.handles hi hret hh hmem (hsleep _ hh) hr keep
    exact Or.inr ⟨_, c', hstep, rfl, hl'⟩
  | listens hmem ht => exact Or.inl ⟨rfl, (hl.listens hmem ht _).consume ..⟩
  | drops => exact Or.inl ⟨rfl, hl.consume ..⟩
  | lose => exact Or.inl ⟨rfl, hl.consume ..⟩
  | @own x f h r hh hg hr =>
    cases hret : s.connecting x with
    | false =>
      obtain ⟨c', hstep, hshows, hl'⟩ := hl.own hi hret hh hr
      exact Or.inr ⟨_, c', hstep, hshows, hl'⟩
    | true =>
      have hwait : f.waits = false := by simpa [hret] using hg
      obtain rfl : x = .client := by
        cases x with
        | client => rfl
        | server => cases hret
      obtain ⟨cl, hs, rfl⟩ := Option.map_eq_some_iff.1 hh
      rcases hl.client_cases hs with ⟨junk, rfl, -⟩ | rfl
      · obtain rfl := connecting_own (Or.inr rfl) hwait hr
        rw [Session.run_same hh]
        refine Or.inl ⟨?_, hl⟩
        cases f <;> first | rfl | cases hwait
      · simp [Session.connecting, hs] at hret
  | clientDone =>
    refine Or.inl ⟨rfl, ?_⟩
    exact ⟨hl.sent, hl.read, hl.net, hl.synAck, hl.syn, hl.opened, .gone _, hl.server⟩
  | serverDone hh =>
    refine Or.inl ⟨rfl, ?_⟩
    exact ⟨hl.sent, hl.read, hl.net, hl.synAck, hl.syn, hl.opened, hl.client, hl.server.done hh⟩

/-! ## The pipes -/

/-- The pipes show what the session shows: they are empty until the client is established. -/
inductive SessionShows (port : BitVec 16) (addr : TjuSockAddr) :
    Session → (Side → List Byte) → Prop
  | shaking {s : Session} : Shaking port addr s → SessionShows port addr s fun _ => []
  | linked {s : Session} {c : Conn} {p : Side → List Byte} :
      Linked port addr s c → ShowsPipes c p → SessionShows port addr s p

/-- The guard on a step: `Prompt`, and the streams are still short behind it. -/
def SessionOk (port : BitVec 16) (addr : TjuSockAddr) (s : Session) (e : SessionEv) : Prop :=
  Prompt s e ∧ ∀ t, sessionStep port addr s e = some t → ∀ x, Short (t.sent x)

theorem sessionConn_pipes (port : BitVec 16) (addr : TjuSockAddr) :
    ShowsPipes (sessionConn port addr) fun _ => [] where
  ctl := sessionConn_ctl port addr
  flow := sessionConn_flow port addr
  short x := by
    show Short []
    decide
  pipe := rfl

/-- **One step** of a session. -/
theorem session_simulates (port : BitVec 16) (addr : TjuSockAddr) :
    Simulates (sessionStep port addr) (SessionOk port addr) (family (pipeStep pipeSize))
      Session.shows (SessionShows port addr) := by
  rintro s e s' p hR ⟨hprompt, hshort⟩ he
  cases hR with
  | shaking hi =>
    obtain ⟨hshows, hi' | hl⟩ := shaking_step hi he
    · exact ⟨_, by rw [hshows]; rfl, .shaking hi'⟩
    · exact ⟨_, by rw [hshows]; rfl, .linked hl (sessionConn_pipes port addr)⟩
  | @linked c _ hl hp =>
    rcases linked_step hp.ctl hl hprompt he with ⟨hshows, hl'⟩ | ⟨f, c', hf, hshows, hl'⟩
    · exact ⟨p, by rw [hshows]; rfl, .linked hl' hp⟩
    · have hS : ∀ t, connStep c f = some t → ShortAll t := by
        intro t ht x
        obtain rfl : c' = t := Option.some.inj (hf.symm.trans ht)
        rw [← hl'.sent]
        exact hshort s' he x
      obtain ⟨p', hrun, hp'⟩ := conn_simulates c f c' p hp hS hf
      exact ⟨p', by rw [hshows]; exact hrun, .linked hl' hp'⟩

theorem start_shaking (port : BitVec 16) (addr : TjuSockAddr) :
    Shaking port addr (Session.start addr) where
  server := by
    refine ⟨fun _ => rfl, fun i l hl => ?_, rfl, fun i t ht => ?_, fun i t ht => ?_⟩
    · simp only [Session.start, tjuListen, startSimulation, Function.update_apply] at hl
      split_ifs at hl
      exact (Option.some.inj hl).symm
    · cases ht
    · cases ht
  unopened := rfl
  noFull _ := rfl
  client := Or.inl rfl
  toServer p hp := by cases hp
  toClient p hp := by cases hp
  sent := rfl
  read := rfl

/-- Streams only grow. -/
theorem session_sent_mono (he : sessionStep port addr s e = some s') (y : Side) :
    (s.sent y).length ≤ (s'.sent y).length := by
  have hsame : s'.sent = s.sent → (s.sent y).length ≤ (s'.sent y).length := fun h => by rw [h]
  cases sessionStep_move he with
  | own =>
    simp only [Session.run, Function.update_apply]
    split_ifs with hy
    · rw [hy, List.length_append]
      omega
    · exact le_rfl
  | clientHandles | serverHandles | listens | drops | lose => exact hsame Session.consume_sent
  | _ => exact hsame rfl

/-- **A session is two pipes.**  What the two applications see of any run of a session, with the
    SYN, its answer and the ACK lost, repeated or delayed like all other packets, is a run of two
    bounded pipes, which end with what was sent and has not been read. -/
theorem session_is_pipes (port : BitVec 16) (addr : TjuSockAddr) {es : List SessionEv}
    (he : exec (sessionStep port addr) (.start addr) es = some s)
    (hprompt : Along (sessionStep port addr) Prompt (.start addr) es) (hS : ∀ x, Short (s.sent x)) :
    PipesRun (shown (sessionStep port addr) Session.shows (.start addr) es)
      fun x => (s.sent x).drop (s.read x.peer).length := by
  obtain ⟨-, hshort⟩ := along_of_back (P := fun s : Session => ∀ x, Short (s.sent x))
    (fun s e s' he hS x => Nat.lt_of_le_of_lt (session_sent_mono he x) (hS x)) es he hS
  obtain ⟨p, hrun, hR⟩ := (session_simulates port addr).run es (.shaking (start_shaking port addr))
    (hprompt.both es hshort) he
  have hend : p = fun x => (s.sent x).drop (s.read x.peer).length := by
    cases hR with
    | shaking hi =>
      rw [hi.sent]
      exact funext fun _ => List.drop_nil.symm
    | linked hl hp =>
      rw [hl.sent, hl.read]
      exact hp.pipe
  rw [hend] at hrun
  exact .of_exec hrun

/-- The first SYN is lost, and the first data packet comes in before `tju_accept` has returned. -/
def firstByte : List SessionEv :=
  let syn := synPacket 5678 1234
  let synAck := synAckPacket syn
  let data := dataPacket clientHost.sock 1 [7]
  [.connect ⟨0, 0⟩, .lose .server syn, .synRetrans, .deliver .server syn true 0,
    .deliver .client synAck false 0, .connectReturn, .own .client (.append [7]),
    .own .client (.sendPass 0), .deliver .server data true 0,
    .deliver .server (replyAck synAck (getAck synAck)) false 0, .accept,
    .deliver .server data false 0, .own .server (.recv 5)]

theorem session_is_pipes_byte :
    let s := (exec (sessionStep 5678 ⟨serverIp, 1234⟩) (.start ⟨serverIp, 1234⟩) firstByte).getD
      (.start ⟨serverIp, 1234⟩)
    PipesRun (shown (sessionStep 5678 ⟨serverIp, 1234⟩) Session.shows (.start ⟨serverIp, 1234⟩)
      firstByte) fun x => (s.sent x).drop (s.read x.peer).length :=
  session_is_pipes 5678 ⟨serverIp, 1234⟩ rfl (by decide) (by intro x; cases x <;> decide)

end Tju
