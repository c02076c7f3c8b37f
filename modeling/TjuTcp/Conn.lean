/-
  One connection: two processes and the network between them.

  The state has the two processes, the packets in flight to each of them, and
  as history what was appended to each `sending_buf`, what `tju_recv` has
  returned on each side, and whether the handler of a side has taken a FIN.
  The network may lose a packet (`lose`), and deliver it and keep it for
  another time (`deliver` with `keep`), in any order; it makes up no packet.
  A side whose handler sleeps, in CLOSE_WAIT or in TIME_WAIT, receives nothing
  until it wakes up.
-/
import TjuTcp.Flow

namespace Tju

open Lib

/-- The two ends of a connection. -/
inductive Side where
  | client
  | server
deriving DecidableEq, Repr

namespace Side

def peer : Side → Side
  | client => server
  | server => client

@[simp] theorem peer_peer (x : Side) : x.peer.peer = x := by cases x <;> rfl

@[simp] theorem peer_ne (x : Side) : x.peer ≠ x := by cases x <;> decide

@[simp] theorem ne_peer (x : Side) : x ≠ x.peer := by cases x <;> decide

theorem eq_or_peer (x y : Side) : y = x ∨ y = x.peer := by cases x <;> cases y <;> simp [peer]

end Side

structure Conn where
  ep : Side → Host
  net : Side → List Buf
  sent : Side → List Byte
  read : Side → List Byte
  finSeen : Side → Bool

/-- What can happen on a connection. -/
inductive ConnEv where
  | append (x : Side) (data : List Byte)
  | sendPass (x : Side) (now : ℕ)
  | retransPass (x : Side)
  | alarm (x : Side)
  | deliver (x : Side) (pkt : Buf) (keep : Bool) (now : ℕ)
  | lose (x : Side) (pkt : Buf)
  | recv (x : Side) (len : ℕ)
  | close (x : Side)
  | closeRetrans (x : Side)
  | wake (x : Side)

namespace Conn

/-- The process `x` goes on as `h` and sends `out`; `sent` was appended to its send buffer, and
    `read` returned by its `tju_recv`. -/
def put (s : Conn) (x : Side) (h : Host) (out : List Buf) (sent read : List Byte) : Conn :=
  { s with
    ep := Function.update s.ep x h
    net := Function.update s.net x.peer (s.net x.peer ++ out)
    sent := Function.update s.sent x (s.sent x ++ sent)
    read := Function.update s.read x (s.read x ++ read) }

/-- A packet leaves the network, unless a copy of it is kept. -/
def consume (s : Conn) (x : Side) (pkt : Buf) (keep : Bool) : Conn :=
  if keep then s else { s with net := Function.update s.net x ((s.net x).erase pkt) }

/-- The handler of `x` takes a FIN. -/
def seeFin (s : Conn) (x : Side) (b : Bool) : Conn :=
  { s with finSeen := Function.update s.finSeen x (s.finSeen x || b) }

end Conn

/-- The application sends until it calls `tju_close`. -/
def canSend : State → Bool
  | .established | .closeWait | .lastAck => true
  | _ => false

/-- The receiving thread sleeps in the handler. -/
def asleep : State → Bool
  | .closeWait | .timeWait => true
  | _ => false

/-- The handler takes a packet with these flags as the FIN of the peer. -/
def takesFin (st : State) (flags : Byte) : Bool :=
  match st with
  | .established => flags == finFlagMask
  | .finWait1 => flags == finFlagMask || flags == finFlagMask ||| ackFlagMask
  | .finWait2 => flags == finFlagMask ||| ackFlagMask
  | _ => false

def connStep (s : Conn) : ConnEv → Option Conn
  | .append x data =>
    if canSend (s.ep x).sock.state then
      (appendData (s.ep x).sock data).map fun sock => s.put x { s.ep x with sock := sock } [] data []
    else none
  | .sendPass x now =>
    some (s.put x (sendingThread now (s.ep x)).1 (sendingThread now (s.ep x)).2 [] [])
  | .retransPass x => (retransThread (s.ep x)).map fun r => s.put x r.1 r.2 [] []
  | .alarm x => some (s.put x (timeoutHandler (s.ep x)) [] [] [])
  | .deliver x pkt keep now =>
    if pkt ∈ s.net x ∧ asleep (s.ep x).sock.state = false then
      (tjuHandlePacket now (s.ep x) pkt).map fun r =>
        ((s.put x r.1 r.2 [] []).consume x pkt keep).seeFin x
          (takesFin (s.ep x).sock.state (getFlags pkt))
    else none
  | .lose x pkt => some (s.consume x pkt false)
  | .recv x len =>
    if 0 < len then
      (tjuRecv (s.ep x).sock len).map fun r => s.put x { s.ep x with sock := r.1 } [] [] r.2
    else none
  | .close x => (tjuClose (s.ep x)).map fun r => s.put x r.1 r.2 [] []
  | .closeRetrans x => some (s.put x (s.ep x) (closeRetrans (s.ep x).sock) [] [])
  | .wake x => (wake (s.ep x)).map fun r => s.put x r.1 r.2 [] []

/-- Both sides have just entered ESTABLISHED, with the packets `net` still in flight. -/
def Conn.start (client server : TjuSockAddr) (net : Side → List Buf) : Conn where
  ep
    | .client => establishedHost client server
    | .server => establishedHost server client
  net := net
  sent _ := []
  read _ := []
  finSeen _ := false

/-- The SYN of `tju_connect`. -/
def synPacket (src dst : BitVec 16) : Buf :=
  createPacketBuf src dst clientIsn 0 defaultHeaderLen defaultHeaderLen synFlagMask 1 0 [] 0

/-- The SYN|ACK that answers a SYN. -/
def synAckPacket (pkt : Buf) : Buf :=
  createPacketBuf (getDst pkt) (getSrc pkt) serverIsn (getSeq pkt + 1) defaultHeaderLen
    defaultHeaderLen (synFlagMask ||| ackFlagMask) 1 0 [] 0

/-- Copies of the packets of the handshake may still be in flight when both sides have entered
    ESTABLISHED. -/
def handshake (client server : TjuSockAddr) : Side → List Buf :=
  let syn := synPacket client.port server.port
  let synAck := synAckPacket syn
  fun
    | .client => [synAck]
    | .server => [syn, replyAck synAck (getAck synAck)]

/-- A client and a server that have just connected. -/
def freshConn : Conn :=
  .start ⟨clientIp, 5678⟩ ⟨serverIp, 1234⟩ (handshake ⟨clientIp, 5678⟩ ⟨serverIp, 1234⟩)

theorem synPacket_eq (src dst : BitVec 16) : synPacket src dst =
    wire ⟨src, dst, clientIsn, 0, 20, 20, synFlagMask, 1, 0⟩ [] :=
  createPacketBuf_nil ..

theorem synAckPacket_eq (pkt : Buf) : synAckPacket pkt =
    wire ⟨getDst pkt, getSrc pkt, serverIsn, getSeq pkt + 1, 20, 20, synFlagMask ||| ackFlagMask, 1,
      0⟩ [] :=
  createPacketBuf_nil ..

theorem synPacket_flags (src dst : BitVec 16) : getFlags (synPacket src dst) = synFlagMask := by
  rw [synPacket_eq, getFlags_wire]

theorem synAckPacket_flags (pkt : Buf) :
    getFlags (synAckPacket pkt) = synFlagMask ||| ackFlagMask := by
  rw [synAckPacket_eq, getFlags_wire]

namespace Conn
variable {s : Conn} {x y : Side} {h : Host} {out : List Buf} {snt rd : List Byte} {pkt : Buf}
  {keep b : Bool}

/-! ## Reading the state after a step -/

@[simp] theorem put_ep_self : (s.put x h out snt rd).ep x = h := by simp [put]
@[simp] theorem put_ep_peer : (s.put x h out snt rd).ep x.peer = s.ep x.peer := by simp [put]
@[simp] theorem put_net_self : (s.put x h out snt rd).net x = s.net x := by simp [put]
@[simp] theorem put_net_peer : (s.put x h out snt rd).net x.peer = s.net x.peer ++ out := by
  simp [put]
@[simp] theorem put_sent_self : (s.put x h out snt rd).sent x = s.sent x ++ snt := by simp [put]
@[simp] theorem put_sent_peer : (s.put x h out snt rd).sent x.peer = s.sent x.peer := by simp [put]
@[simp] theorem put_read_self : (s.put x h out snt rd).read x = s.read x ++ rd := by simp [put]
@[simp] theorem put_read_peer : (s.put x h out snt rd).read x.peer = s.read x.peer := by simp [put]

theorem put_peer_net : (s.put x.peer h out snt rd).net x = s.net x ++ out := by simp [put]

@[simp] theorem put_finSeen : (s.put x h out snt rd).finSeen = s.finSeen := rfl

@[simp] theorem consume_ep : (s.consume x pkt keep).ep = s.ep := by unfold consume; split_ifs <;> rfl
@[simp] theorem consume_sent : (s.consume x pkt keep).sent = s.sent := by
  unfold consume; split_ifs <;> rfl
@[simp] theorem consume_read : (s.consume x pkt keep).read = s.read := by
  unfold consume; split_ifs <;> rfl
@[simp] theorem consume_finSeen : (s.consume x pkt keep).finSeen = s.finSeen := by
  unfold consume; split_ifs <;> rfl

theorem mem_consume {p : Buf} (hp : p ∈ (s.consume x pkt keep).net y) : p ∈ s.net y := by
  unfold consume at hp
  split_ifs at hp
  · exact hp
  · by_cases hy : y = x
    · subst hy
      simp only [Function.update_self] at hp
      exact List.mem_of_mem_erase hp
    · simpa only [Function.update_of_ne hy] using hp

@[simp] theorem seeFin_ep : (s.seeFin x b).ep = s.ep := rfl
@[simp] theorem seeFin_net : (s.seeFin x b).net = s.net := rfl
@[simp] theorem seeFin_sent : (s.seeFin x b).sent = s.sent := rfl
@[simp] theorem seeFin_read : (s.seeFin x b).read = s.read := rfl
@[simp] theorem seeFin_self : (s.seeFin x b).finSeen x = (s.finSeen x || b) := by simp [seeFin]
@[simp] theorem seeFin_peer : (s.seeFin x b).finSeen x.peer = s.finSeen x.peer := by simp [seeFin]

end Conn

/-! ## What a step can do -/

/-- What the event `e` makes of the connection. -/
inductive ConnMove (s : Conn) : ConnEv → Conn → Prop
  | append {x : Side} {data : List Byte} {sock : TjuTcp} : canSend (s.ep x).sock.state = true →
      appendData (s.ep x).sock data = some sock →
      ConnMove s (.append x data) (s.put x { s.ep x with sock := sock } [] data [])
  | sendPass {x : Side} {now : ℕ} : ConnMove s (.sendPass x now)
      (s.put x (sendingThread now (s.ep x)).1 (sendingThread now (s.ep x)).2 [] [])
  | retransPass {x : Side} {h : Host} {out : List Buf} : retransThread (s.ep x) = some (h, out) →
      ConnMove s (.retransPass x) (s.put x h out [] [])
  | alarm {x : Side} : ConnMove s (.alarm x) (s.put x (timeoutHandler (s.ep x)) [] [] [])
  | deliver {x : Side} {pkt : Buf} {keep : Bool} {now : ℕ} {h : Host} {out : List Buf} :
      pkt ∈ s.net x → asleep (s.ep x).sock.state = false →
      tjuHandlePacket now (s.ep x) pkt = some (h, out) →
      ConnMove s (.deliver x pkt keep now) (((s.put x h out [] []).consume x pkt keep).seeFin x
        (takesFin (s.ep x).sock.state (getFlags pkt)))
  | lose {x : Side} {pkt : Buf} : ConnMove s (.lose x pkt) (s.consume x pkt false)
  | recv {x : Side} {len : ℕ} {sock : TjuTcp} {bytes : List Byte} : 0 < len →
      tjuRecv (s.ep x).sock len = some (sock, bytes) →
      ConnMove s (.recv x len) (s.put x { s.ep x with sock := sock } [] [] bytes)
  | close {x : Side} : (s.ep x).sock.state = .established →
      ConnMove s (.close x)
        (s.put x ((s.ep x).keepFin (finPacket (s.ep x).sock 0 finFlagMask) .finWait1)
          [finPacket (s.ep x).sock 0 finFlagMask] [] [])
  | closeAgain {x : Side} : (s.ep x).sock.state = .lastAck →
      ConnMove s (.close x) (s.put x (s.ep x) [] [] [])
  | resend {x : Side} {p : Buf} : (s.ep x).sock.packetFIN = some p →
      (s.ep x).sock.state ≠ .closed →
      ConnMove s (.closeRetrans x) (s.put x (s.ep x) [p] [] [])
  | silent {x : Side} : ConnMove s (.closeRetrans x) (s.put x (s.ep x) [] [] [])
  | finOut {x : Side} : (s.ep x).sock.state = .closeWait →
      ConnMove s (.wake x) (s.put x
        ((s.ep x).keepFin (finPacket (s.ep x).sock (s.ep x).closeAck (finFlagMask ||| ackFlagMask))
          .lastAck)
        [finPacket (s.ep x).sock (s.ep x).closeAck (finFlagMask ||| ackFlagMask)] [] [])
  | done {x : Side} : (s.ep x).sock.state = .timeWait →
      ConnMove s (.wake x) (s.put x ((s.ep x).setState .closed) [] [] [])

/-- **What a step can do.** -/
theorem connStep_move {s s' : Conn} {e : ConnEv} (he : connStep s e = some s') :
    ConnMove s e s' := by
  cases e with
  | append x data =>
    simp only [connStep] at he
    split_ifs at he with hcan
    obtain ⟨sock, ha, rfl⟩ := Option.map_eq_some_iff.1 he
    exact .append hcan ha
  | sendPass x now => cases he; exact .sendPass
  | retransPass x =>
    obtain ⟨⟨h, out⟩, ht, rfl⟩ := Option.map_eq_some_iff.1 he
    exact .retransPass ht
  | alarm x => cases he; exact .alarm
  | deliver x pkt keep now =>
    simp only [connStep] at he
    split_ifs at he with hg
    obtain ⟨⟨h, out⟩, ht, rfl⟩ := Option.map_eq_some_iff.1 he
    exact .deliver hg.1 hg.2 ht
  | lose x pkt => cases he; exact .lose
  | recv x len =>
    simp only [connStep] at he
    split_ifs at he with hlen
    obtain ⟨⟨sock, bytes⟩, hr, rfl⟩ := Option.map_eq_some_iff.1 he
    exact .recv hlen hr
  | close x =>
    obtain ⟨r, ht, rfl⟩ := Option.map_eq_some_iff.1 he
    rcases tjuClose_cases ht with ⟨hs, rfl⟩ | ⟨hs, rfl⟩
    · exact .close hs
    · exact .closeAgain hs
  | closeRetrans x =>
    cases he
    rcases closeRetrans_cases (s.ep x).sock with hq | ⟨p, hp, hq⟩ <;> rw [hq]
    · exact .silent
    · refine .resend hp fun hc => ?_
      rw [closeRetrans_closed hc] at hq
      cases hq
  | wake x =>
    obtain ⟨r, ht, rfl⟩ := Option.map_eq_some_iff.1 he
    rcases wake_cases ht with ⟨hs, rfl⟩ | ⟨hs, rfl⟩
    · exact .finOut hs
    · exact .done hs

/-! ## The handler outside of ESTABLISHED -/

/-- What `tju_handle_packet` does on a connection that closes. -/
inductive CloseStep (pkt : Buf) : State → State → List Buf → Prop
  | ignore (st : State) : CloseStep pkt st st []
  | finWait2 : getFlags pkt = ackFlagMask → getAck pkt = finSeq + 1 →
      CloseStep pkt .finWait1 .finWait2 []
  | closing : getFlags pkt = finFlagMask ||| ackFlagMask ∨ getFlags pkt = finFlagMask →
      CloseStep pkt .finWait1 .closing [replyAck pkt (finSeq + 1)]
  | timeWait : getFlags pkt = finFlagMask ||| ackFlagMask →
      CloseStep pkt .finWait2 .timeWait [replyAck pkt (getAck pkt)]
  | closed : getFlags pkt = ackFlagMask → getAck pkt = finSeq + 1 →
      CloseStep pkt .lastAck .closed []
  | closingDone : getFlags pkt = ackFlagMask → getAck pkt = finSeq + 1 →
      CloseStep pkt .closing .timeWait []

/-- **The handler on a closing connection** makes one of these steps, and changes only the state. -/
theorem handle_closeStep {now : ℕ} {h h' : Host} {pkt : Buf} {out : List Buf}
    (he : h.sock.state ≠ .established) (hs : h.sock.state ≠ .synSent)
    (hp : tjuHandlePacket now h pkt = some (h', out)) :
    ∃ st, h' = h.setState st ∧ CloseStep pkt h.sock.state st out := by
  have hignore : ∃ st, h = h.setState st ∧ CloseStep pkt h.sock.state st [] := ⟨_, rfl, .ignore _⟩
  unfold tjuHandlePacket at hp
  cases hst : h.sock.state <;> simp only [hst] at hp he hs hignore
  case established => exact absurd rfl he
  case synSent => exact absurd rfl hs
  case finWait1 =>
    split_ifs at hp with h1 h2
    · cases hp; exact ⟨_, rfl, .finWait2 h1.1 h1.2⟩
    · cases hp; exact ⟨_, rfl, .closing h2⟩
    · cases hp; exact hignore
  case finWait2 =>
    split_ifs at hp with h1
    · cases hp; exact ⟨_, rfl, .timeWait h1⟩
    · cases hp; exact hignore
  case lastAck =>
    split_ifs at hp with h1
    · cases hp; exact ⟨_, rfl, .closed h1.1 h1.2⟩
    · cases hp; exact hignore
  case closing =>
    split_ifs at hp with h1
    · cases hp; exact ⟨_, rfl, .closingDone h1.1 h1.2⟩
    · cases hp; exact hignore
  all_goals cases hp; exact hignore

end Tju
