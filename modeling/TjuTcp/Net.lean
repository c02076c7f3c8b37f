/-
  One server and any number of clients.

  The server has a listening socket, its queues and tables, and the sockets
  that `tju_accept` has returned; a client is known by its port, and has at
  most one socket at a time, of which it may open and close any number.  What
  the windows, buffers and threads of a connected socket do is left open: the
  step `data` puts any values into them, and `send` sends any data packet, so
  that sockets that share a window are covered too (`own_covered`).

  Every packet carries the attempt to connect that it belongs to: the one of
  the client that sent it, of the packet that it answers, or of the socket that
  sent it on its own.  The history also keeps which attempts the listening
  socket has answered (`answered`), which ones have entered ESTABLISHED and
  sent the ACK of the handshake (`completed`), for which ones a half-open
  socket was taken (`taken`), and which attempt each socket in the accept queue
  and each returned socket was taken for.
-/
import TjuTcp.Kernel
import TjuTcp.Control

namespace Tju

open Lib

/-- The `number`-th `tju_connect` of the client at a port. -/
structure Attempt where
  port : BitVec 16
  number : ℕ
deriving DecidableEq

/-- The socket of a client.  `connecting` tells whether `tju_connect` has not returned yet. -/
structure Client where
  host : Host
  targetAddr : TjuSockAddr
  connecting : Bool

structure Net where
  server : Kernel
  clients : BitVec 16 → Option Client
  attempts : BitVec 16 → ℕ
  toServer : List (Attempt × Buf)
  toClient : List (Attempt × Buf)
  answered : Attempt → Bool
  completed : Attempt → Bool
  taken : Attempt → Bool
  acceptBy : ℤ → Attempt
  accepted : List TjuTcp
  justified : List Attempt

/-! ## The steps of a connected socket on its own -/

inductive HostEv where
  | data (d : Host)
  | send (seq : BitVec 32) (data : List Byte)
  | close
  | closeRetrans
  | wake

/-- The host `h` with the windows, buffers and flags of `d`. -/
def Host.withData (h d : Host) : Host :=
  { d with
    closeAck := h.closeAck
    sock := { d.sock with
      state := h.sock.state
      establishedLocalAddr := h.sock.establishedLocalAddr
      establishedRemoteAddr := h.sock.establishedRemoteAddr
      packetFIN := h.sock.packetFIN } }

def hostStep (h : Host) (e : HostEv) : Option (Host × List Buf) :=
  if connected h.sock.state then
    match e with
    | .data d => some (h.withData d, [])
    | .send seq data => some (h, sendToLayer3 (dataPacket h.sock seq data) (20 + data.length))
    | .close => tjuClose h
    | .closeRetrans => some (h, closeRetrans h.sock)
    | .wake => wake h
  else none

/-- The application and its threads wait until `tju_connect` returns. -/
def HostEv.waits : HostEv → Bool
  | .closeRetrans | .wake => false
  | _ => true

/-- What can happen. -/
inductive NetEv where
  | connect (port : BitVec 16) (targetAddr junk : TjuSockAddr)
  | synRetrans (port : BitVec 16)
  | connectReturn (port : BitVec 16)
  | clientDeliver (a : Attempt) (pkt : Buf) (keep : Bool) (now : ℕ)
  | clientHost (port : BitVec 16) (e : HostEv)
  | clientDone (port : BitVec 16)
  | serverDeliver (a : Attempt) (pkt : Buf) (keep : Bool) (now : ℕ)
  | accept
  | serverHost (n : ℕ) (e : HostEv)
  | serverDone (n : ℕ)
  | loseToServer (a : Attempt) (pkt : Buf)
  | loseToClient (a : Attempt) (pkt : Buf)

/-- The attempts of `f`, and `a` if `b`. -/
def mark (f : Attempt → Bool) (a : Attempt) (b : Bool) : Attempt → Bool :=
  fun a' => f a' || (b && a' == a)

namespace Net

/-- The attempt that the client at a port has made last. -/
def attempt (s : Net) (p : BitVec 16) : Attempt := ⟨p, s.attempts p⟩

/-- The client at `p` goes on as `c`, and sends `out`. -/
def putClient (s : Net) (p : BitVec 16) (c : Client) (out : List Buf) : Net :=
  { s with
    clients := Function.update s.clients p (some c)
    toServer := s.toServer ++ out.map (Prod.mk (s.attempt p)) }

/-- The socket `n` of the server goes on as `h`, and sends `out`, which belongs to `a`. -/
def putSock (s : Net) (n : ℕ) (h : Host) (a : Attempt) (out : List Buf) : Net :=
  { s with
    server := { s.server with socks := Function.update s.server.socks n (some h) }
    toClient := s.toClient ++ out.map (Prod.mk a) }

/-- If `b`, the attempt has entered ESTABLISHED. -/
def complete (s : Net) (a : Attempt) (b : Bool) : Net :=
  { s with completed := mark s.completed a b }

def dropToServer (s : Net) (m : Attempt × Buf) (keep : Bool) : Net :=
  if keep then s else { s with toServer := s.toServer.erase m }

def dropToClient (s : Net) (m : Attempt × Buf) (keep : Bool) : Net :=
  if keep then s else { s with toClient := s.toClient.erase m }

/-- The queues of the server, and their history. -/
def queueView (s : Net) :
    Queues × (Attempt → Bool) × (ℤ → Attempt) × List TjuTcp × List Attempt :=
  (s.server.queues, s.taken, s.acceptBy, s.accepted, s.justified)

/-- The receiving thread of the server sleeps in the handler of one of its sockets. -/
def sleeping (s : Net) : Bool :=
  (List.range s.accepted.length).any fun n =>
    (s.server.socks n).any fun h => asleep h.sock.state

/-- The listening socket `l` handles a packet of the attempt `a`. -/
def listens (s : Net) (now : ℕ) (l : TjuTcp) (a : Attempt) (pkt : Buf) : Net :=
  let r := handleListen now l s.server.queues pkt
  { s with
    server := { s.server with queues := r.1 }
    toClient := s.toClient ++ r.2.map (Prod.mk a)
    answered := mark s.answered a (getFlags pkt == synFlagMask)
    taken := mark s.taken a (listenTakes s.server.queues pkt).isSome
    -- a slot that was free holds the socket taken for `a`
    acceptBy := fun i =>
      if (s.server.queues.acceptQueue i).isNone ∧ (r.1.acceptQueue i).isSome then a
      else s.acceptBy i }

end Net

def netStep (s : Net) : NetEv → Option Net
  | .connect p targetAddr junk =>
    if (s.clients p).isNone then
      let r := tjuConnect { tjuSocket with establishedRemoteAddr := junk } p targetAddr
      let s := { s with attempts := Function.update s.attempts p (s.attempts p + 1) }
      some (s.putClient p ⟨sockHost r.1, targetAddr, true⟩ r.2)
    else none
  | .synRetrans p =>
    (s.clients p).bind fun c =>
      if c.connecting ∧ c.host.sock.state ≠ .established then
        some (s.putClient p c (sendToLayer3 (synPacket p c.targetAddr.port) 20))
      else none
  | .connectReturn p =>
    (s.clients p).bind fun c =>
      if c.connecting ∧ c.host.sock.state = .established then
        some (s.putClient p { c with
          host := { c.host with sock := { c.host.sock with establishedRemoteAddr := c.targetAddr } }
          connecting := false } [])
      else none
  | .clientDeliver a pkt keep now =>
    if (a, pkt) ∈ s.toClient then
      match s.clients (getDst pkt) with
      | none => some (s.dropToClient (a, pkt) keep)
      | some c =>
        if asleep c.host.sock.state then none
        else if clientFinds (getDst pkt) c.targetAddr pkt then
          (tjuHandlePacket now c.host pkt).map fun r =>
            ((s.putClient (getDst pkt) { c with host := r.1 } r.2).complete (s.attempt (getDst pkt))
              (c.host.sock.state == .synSent && r.1.sock.state == .established)).dropToClient
                (a, pkt) keep
        else some (s.dropToClient (a, pkt) keep)
    else none
  | .clientHost p e =>
    (s.clients p).bind fun c =>
      if c.connecting ∧ e.waits then none
      else (hostStep c.host e).map fun r => s.putClient p { c with host := r.1 } r.2
  | .clientDone p =>
    (s.clients p).bind fun c =>
      if c.connecting = false ∧ c.host.sock.state = .closed then
        some { s with clients := Function.update s.clients p none }
      else none
  | .serverDeliver a pkt keep now =>
    if (a, pkt) ∈ s.toServer ∧ s.sleeping = false then
      match onTcpPocket s.server pkt with
      | .established n => (s.server.socks n).bind fun h =>
        (tjuHandlePacket now h pkt).map fun r =>
          (s.putSock n r.1 a r.2).dropToServer (a, pkt) keep
      | .listening l => some ((s.listens now l a pkt).dropToServer (a, pkt) keep)
      | .dropped => some (s.dropToServer (a, pkt) keep)
    else none
  | .accept =>
    if s.server.queues.acceptNum ≠ 0 then
      (tjuAccept s.server s.accepted.length).map fun r =>
        { s with
          server := r.1
          accepted := s.accepted ++ [r.2]
          justified := s.justified ++ [s.acceptBy (sockHash r.2)] }
    else none
  | .serverHost n e =>
    (s.server.socks n).bind fun h =>
      s.justified[n]?.bind fun a =>
        (hostStep h e).map fun r => s.putSock n r.1 a r.2
  | .serverDone n =>
    (s.server.socks n).bind fun h =>
      if h.sock.state = .closed then some { s with server := closeDone s.server n h.sock } else none
  | .loseToServer a pkt => some (s.dropToServer (a, pkt) false)
  | .loseToClient a pkt => some (s.dropToClient (a, pkt) false)

/-- A server that listens at `bindAddr`, and no client has connected yet. -/
def Net.start (bindAddr : TjuSockAddr) : Net where
  server := tjuListen startSimulation (tjuBind tjuSocket bindAddr)
  clients _ := none
  attempts _ := 0
  toServer := []
  toClient := []
  answered _ := false
  completed _ := false
  taken _ := false
  acceptBy _ := ⟨0, 0⟩
  accepted := []
  justified := []

variable {h h' : Host} {pkt : Buf} {out : List Buf} {now : ℕ}

/-! ## Marks -/

theorem mark_of {f : Attempt → Bool} {a a' : Attempt} {b : Bool} (h : f a' = true) :
    mark f a b a' = true := by simp [mark, h]

theorem mark_self {f : Attempt → Bool} {a : Attempt} {b : Bool} (h : b = true) :
    mark f a b a = true := by simp [mark, h]

theorem mark_ne {f : Attempt → Bool} {a a' : Attempt} {b : Bool} (h : a' ≠ a) :
    mark f a b a' = f a' := by simp [mark, h]

theorem mark_cases {f : Attempt → Bool} {a a' : Attempt} {b : Bool} (h : mark f a b a' = true) :
    f a' = true ∨ b = true ∧ a' = a := by simpa [mark] using h

@[simp] theorem mark_false (f : Attempt → Bool) (a : Attempt) : mark f a false = f := by
  funext a'; simp [mark]

/-! ## A packet leaves the network -/

namespace Net
variable {s : Net} {m : Attempt × Buf} {keep : Bool}

@[simp] theorem dropToServer_clients : (s.dropToServer m keep).clients = s.clients := by
  unfold dropToServer; split_ifs <;> rfl

@[simp] theorem dropToServer_attempts : (s.dropToServer m keep).attempts = s.attempts := by
  unfold dropToServer; split_ifs <;> rfl

@[simp] theorem dropToServer_answered : (s.dropToServer m keep).answered = s.answered := by
  unfold dropToServer; split_ifs <;> rfl

@[simp] theorem dropToServer_server : (s.dropToServer m keep).server = s.server := by
  unfold dropToServer; split_ifs <;> rfl

@[simp] theorem dropToClient_server : (s.dropToClient m keep).server = s.server := by
  unfold dropToClient; split_ifs <;> rfl

@[simp] theorem dropToServer_queueView : (s.dropToServer m keep).queueView = s.queueView := by
  unfold dropToServer; split_ifs <;> rfl

@[simp] theorem dropToClient_queueView : (s.dropToClient m keep).queueView = s.queueView := by
  unfold dropToClient; split_ifs <;> rfl

@[simp] theorem dropToClient_clients : (s.dropToClient m keep).clients = s.clients := by
  unfold dropToClient; split_ifs <;> rfl

@[simp] theorem dropToClient_attempts : (s.dropToClient m keep).attempts = s.attempts := by
  unfold dropToClient; split_ifs <;> rfl

@[simp] theorem dropToClient_answered : (s.dropToClient m keep).answered = s.answered := by
  unfold dropToClient; split_ifs <;> rfl

end Net

/-! ## One socket -/

/-- A packet that the socket sends, or that it keeps, comes from its port. -/
structure FromPort (h : Host) (p : BitVec 16) : Prop where
  localAddr : h.sock.establishedLocalAddr.port = p
  packetFIN : ∀ q, h.sock.packetFIN = some q → getSrc q = p

theorem getSrc_dataPacket (sock : TjuTcp) (seq : BitVec 32) (data : List Byte) :
    getSrc (dataPacket sock seq data) = sock.establishedLocalAddr.port := by
  obtain ⟨rest, hp⟩ := createPacketBuf_wire sock.establishedLocalAddr.port
    sock.establishedRemoteAddr.port seq 0 (defaultHeaderLen + .ofNat 16 data.length) noFlag 1 0 data
    data.length
  exact (congrArg getSrc hp).trans (getSrc_wire _ _)

theorem getSrc_replyAck (pkt : Buf) (seq : BitVec 32) : getSrc (replyAck pkt seq) = getDst pkt := by
  rw [replyAck_eq, getSrc_wire]

theorem getSrc_finPacket (sock : TjuTcp) (ack : BitVec 32) (flags : Byte) :
    getSrc (finPacket sock ack flags) = sock.establishedLocalAddr.port := by
  rw [finPacket_eq, getSrc_wire]

theorem CloseStep.getSrc {st st' : State} (hc : CloseStep pkt st st' out) :
    ∀ q ∈ out, getSrc q = getDst pkt := by
  intro q hq
  obtain ⟨seq, rfl, -⟩ := hc.acks q hq
  exact getSrc_replyAck _ _

/-- **The handler** keeps the port, and answers from it. -/
theorem handle_fromPort {p : BitVec 16} (hh : FromPort h p) (hd : getDst pkt = p)
    (he : tjuHandlePacket now h pkt = some (h', out)) :
    FromPort h' p ∧ ∀ q ∈ out, getSrc q = p := by
  have hnil : ∀ q ∈ ([] : List Buf), getSrc q = p := fun q hq => by cases hq
  have hreply : ∀ seq, ∀ q ∈ [replyAck pkt seq], getSrc q = p := fun seq q hq => by
    rw [List.mem_singleton.1 hq, getSrc_replyAck, hd]
  by_cases hs : h.sock.state = .synSent
  · simp only [tjuHandlePacket, hs] at he
    split_ifs at he
    · cases he
      exact ⟨⟨hh.localAddr, hh.packetFIN⟩, hreply _⟩
    · cases he
      exact ⟨hh, hnil⟩
  cases tjuHandlePacket_cases he with
  | fin => exact ⟨⟨hh.localAddr, hh.packetFIN⟩, hreply _⟩
  | data _ _ hdata =>
    obtain ⟨hfr, rfl⟩ := handleData_frame hdata
    refine ⟨⟨?_, ?_⟩, fun q hq => ?_⟩
    · rw [hfr]; exact hh.localAddr
    · rw [hfr]; exact hh.packetFIN
    · rw [List.mem_singleton.1 hq, ackPacket_eq, getSrc_wire, hfr]
      exact hh.localAddr
  | ack _ _ ha =>
    have hrest := handleAck_rest ha
    exact ⟨⟨by rw [hrest.localAddr]; exact hh.localAddr,
      by rw [hrest.packetFIN]; exact hh.packetFIN⟩, hnil⟩
  | ignored => exact ⟨hh, hnil⟩
  | closing _ _ hest =>
    obtain ⟨st, -, hc⟩ := handle_closeStep hest hs he
    exact ⟨⟨hh.localAddr, hh.packetFIN⟩, fun q hq => (hc.getSrc q hq).trans hd⟩

theorem connected_ne (hc : connected h.sock.state = true) : h.sock.state ≠ .synSent := fun hs => by
  rw [hs] at hc; cases hc

/-- The handler of a connected socket leaves it connected. -/
theorem handle_connected (hc : connected h.sock.state = true)
    (he : tjuHandlePacket now h pkt = some (h', out)) : connected h'.sock.state = true := by
  cases tjuHandlePacket_cases he with
  | fin => rfl
  | data _ _ hdata =>
    show connected (TjuTcp.state _) = true
    rw [(handleData_frame hdata).1]
    exact hc
  | ack _ _ ha =>
    rw [(handleAck_rest ha).state]
    exact hc
  | ignored => exact hc
  | closing _ _ hest =>
    obtain ⟨st, heq, hstep⟩ := handle_closeStep hest (connected_ne hc) he
    rw [heq]
    exact hstep.connected hc

/-- A connected socket does not answer a SYN. -/
theorem handle_syn (hc : connected h.sock.state = true) (hf : getFlags pkt = synFlagMask)
    (he : tjuHandlePacket now h pkt = some (h', out)) : out = [] := by
  have hne : ∀ fl, fl ≠ synFlagMask → getFlags pkt ≠ fl := fun fl hfl h => hfl (h.symm.trans hf)
  by_cases hest : h.sock.state = .established
  · rw [handle_other hest (hne _ (by decide)) (hne _ (by decide)) (hne _ (by decide))] at he
    cases he; rfl
  · obtain ⟨st, -, hstep⟩ := handle_closeStep hest (connected_ne hc) he
    generalize h.sock.state = old at hstep
    cases hstep with
    | ignore => rfl
    | finWait2 => rfl
    | closing hfl => exact (hfl.elim (hne _ (by decide)) (hne _ (by decide))).elim
    | timeWait hfl => exact (hne _ (by decide) hfl).elim
    | closed => rfl
    | closingDone => rfl

/-- In SYN_SENT every packet with the number `CLIENT_ISN + 1` establishes the connection. -/
theorem handle_synSent (hs : h.sock.state = .synSent)
    (he : tjuHandlePacket now h pkt = some (h', out)) :
    h'.sock.state = .established ∧ getAck pkt = clientIsn + 1 ∨ h' = h ∧ out = [] := by
  simp only [tjuHandlePacket, hs] at he
  split_ifs at he with hack
  · cases he; exact Or.inl ⟨rfl, hack⟩
  · cases he; exact Or.inr ⟨rfl, rfl⟩

/-- A step on its own leaves a socket connected, and keeps its port. -/
theorem hostStep_connected {e : HostEv} (he : hostStep h e = some (h', out)) :
    connected h.sock.state = true ∧ connected h'.sock.state = true := by
  unfold hostStep at he
  split_ifs at he with hc
  refine ⟨hc, ?_⟩
  cases e with
  | data d => cases he; exact hc
  | send seq data => cases he; exact hc
  | close =>
    rcases tjuClose_cases he with ⟨-, hr⟩ | ⟨-, hr⟩ <;> cases hr
    · rfl
    · exact hc
  | closeRetrans => cases he; exact hc
  | wake => rcases wake_cases he with ⟨-, hr⟩ | ⟨-, hr⟩ <;> cases hr <;> rfl

theorem hostStep_fromPort {e : HostEv} {p : BitVec 16} (hh : FromPort h p)
    (he : hostStep h e = some (h', out)) : FromPort h' p ∧ ∀ q ∈ out, getSrc q = p := by
  have hkeep : ∀ ack flags st, FromPort (h.keepFin (finPacket h.sock ack flags) st) p ∧
      ∀ q ∈ [finPacket h.sock ack flags], getSrc q = p := by
    intro ack flags st
    have hfin : getSrc (finPacket h.sock ack flags) = p := (getSrc_finPacket ..).trans hh.localAddr
    refine ⟨⟨hh.localAddr, fun q hq => ?_⟩, fun q hq => ?_⟩
    · cases hq; exact hfin
    · rw [List.mem_singleton.1 hq]; exact hfin
  have hnil : ∀ q ∈ ([] : List Buf), getSrc q = p := fun q hq => by cases hq
  unfold hostStep at he
  split_ifs at he with hc
  cases e with
  | data d => cases he; exact ⟨⟨hh.localAddr, hh.packetFIN⟩, hnil⟩
  | send seq data =>
    cases he
    refine ⟨hh, fun q hq => ?_⟩
    unfold sendToLayer3 at hq
    split_ifs at hq
    · cases hq
    · rw [List.mem_singleton.1 hq, getSrc_dataPacket]; exact hh.localAddr
  | close =>
    rcases tjuClose_cases he with ⟨-, hr⟩ | ⟨-, hr⟩ <;> cases hr
    · exact hkeep _ _ _
    · exact ⟨hh, hnil⟩
  | closeRetrans =>
    cases he
    refine ⟨hh, ?_⟩
    rcases closeRetrans_cases h.sock with hq | ⟨p, hp, hq⟩ <;> rw [hq]
    · exact hnil
    · intro q hq'
      rw [List.mem_singleton.1 hq']; exact hh.packetFIN p hp
  | wake =>
    rcases wake_cases he with ⟨-, hr⟩ | ⟨-, hr⟩ <;> cases hr
    · exact hkeep _ _ _
    · exact ⟨⟨hh.localAddr, hh.packetFIN⟩, hnil⟩

end Tju
