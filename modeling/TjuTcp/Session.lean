/-
  One session, from `tju_listen` and `tju_connect` on.

  The server process has called `tju_listen` and calls `tju_accept` once; the
  client process calls `tju_connect` once.  Between them lies a network that
  loses, repeats and reorders packets.  A packet that comes in at the server is
  handed to the socket that `onTCPPocket` finds, a connected or the listening
  one, and the sockets do all that the modules before define: the steps of a
  connected socket on its own are `ownStep`.

  * `sessionStep`: what can happen, and `sessionStep_move`: what it does;
  * `connStep_own`: the steps of a socket on its own are those of a connection.
-/
import TjuTcp.Net
import TjuTcp.Pipes

namespace Tju

open Lib

/-- What a connected socket does, its application and its threads, apart from handling packets. -/
inductive OwnEv where
  | append (data : List Byte)
  | sendPass (now : ℕ)
  | retransPass
  | alarm
  | recv (len : ℕ)
  | close
  | closeRetrans
  | wake

/-- The host goes on as `host` and sends `out`; `sent` was appended, and `read` returned. -/
structure Outcome where
  host : Host
  out : List Buf
  sent : List Byte
  read : List Byte

def ownStep (h : Host) : OwnEv → Option Outcome
  | .append data =>
    if canSend h.sock.state then
      (appendData h.sock data).map fun sock => ⟨{ h with sock := sock }, [], data, []⟩
    else none
  | .sendPass now => some ⟨(sendingThread now h).1, (sendingThread now h).2, [], []⟩
  | .retransPass => (retransThread h).map fun r => ⟨r.1, r.2, [], []⟩
  | .alarm => some ⟨timeoutHandler h, [], [], []⟩
  | .recv len =>
    if 0 < len then (tjuRecv h.sock len).map fun r => ⟨{ h with sock := r.1 }, [], [], r.2⟩
    else none
  | .close => (tjuClose h).map fun r => ⟨r.1, r.2, [], []⟩
  | .closeRetrans => some ⟨h, closeRetrans h.sock, [], []⟩
  | .wake => (wake h).map fun r => ⟨r.1, r.2, [], []⟩

/-- The application and its threads wait until `tju_connect` returns. -/
def OwnEv.waits : OwnEv → Bool
  | .closeRetrans | .wake => false
  | _ => true

/-- The same step of the side `x` of a connection. -/
def OwnEv.on (x : Side) : OwnEv → ConnEv
  | .append data => .append x data
  | .sendPass now => .sendPass x now
  | .retransPass => .retransPass x
  | .alarm => .alarm x
  | .recv len => .recv x len
  | .close => .close x
  | .closeRetrans => .closeRetrans x
  | .wake => .wake x

/-- The two processes and the network.  The socket that `tju_accept` returns has the number 0;
    `opened` tells whether it has returned, and whether `tju_connect` was called. -/
structure Session where
  server : Kernel
  client : Option Client
  opened : Side → Bool
  net : Side → List Buf
  sent : Side → List Byte
  read : Side → List Byte

inductive SessionEv where
  | connect (junk : TjuSockAddr)
  | synRetrans
  | connectReturn
  | accept
  | deliver (x : Side) (pkt : Buf) (keep : Bool) (now : ℕ)
  | lose (x : Side) (pkt : Buf)
  | own (x : Side) (e : OwnEv)
  | done (x : Side)

namespace Session

/-- The connected socket of a side, if it has one. -/
def host (s : Session) : Side → Option Host
  | .client => s.client.map Client.host
  | .server => s.server.socks 0

def putHost (s : Session) (x : Side) (h : Host) : Session :=
  match x with
  | .client => { s with client := s.client.map fun c => { c with host := h } }
  | .server =>
    { s with server := { s.server with socks := Function.update s.server.socks 0 (some h) } }

/-- `tju_connect` has not returned. -/
def connecting (s : Session) : Side → Bool
  | .client => s.client.any Client.connecting
  | .server => false

/-- The side `x` sends `out`. -/
def post (s : Session) (x : Side) (out : List Buf) : Session :=
  { s with net := Function.update s.net x.peer (s.net x.peer ++ out) }

def consume (s : Session) (x : Side) (pkt : Buf) (keep : Bool) : Session :=
  if keep then s else { s with net := Function.update s.net x ((s.net x).erase pkt) }

def markOpened (s : Session) (x : Side) : Session :=
  { s with opened := Function.update s.opened x true }

/-- The socket of `x` has made a step on its own. -/
def run (s : Session) (x : Side) (r : Outcome) : Session :=
  { (s.putHost x r.host).post x r.out with
    sent := Function.update s.sent x (s.sent x ++ r.sent)
    read := Function.update s.read x (s.read x ++ r.read) }

end Session

/-- One step of a session between the client at `port` and the server at `addr`. -/
def sessionStep (port : BitVec 16) (addr : TjuSockAddr) (s : Session) : SessionEv → Option Session
  | .connect junk =>
    if s.opened .client = false then
      let r := tjuConnect { tjuSocket with establishedRemoteAddr := junk } port addr
      some (({ s with client := some ⟨sockHost r.1, addr, true⟩ }.markOpened .client).post
        .client r.2)
    else none
  | .synRetrans =>
    s.client.bind fun c =>
      if c.connecting ∧ c.host.sock.state ≠ .established then
        some (s.post .client (sendToLayer3 (synPacket port addr.port) 20))
      else none
  | .connectReturn =>
    s.client.bind fun c =>
      if c.connecting ∧ c.host.sock.state = .established then
        some { s with client := some { c with
          host := { c.host with sock := { c.host.sock with establishedRemoteAddr := c.targetAddr } }
          connecting := false } }
      else none
  | .accept =>
    if s.opened .server = false ∧ s.server.queues.acceptNum ≠ 0 then
      (tjuAccept s.server 0).map fun r => { s with server := r.1 }.markOpened .server
    else none
  | .deliver .client pkt keep now =>
    if (s.net .client).contains pkt then
      match s.client with
      | none => some (s.consume .client pkt keep)
      | some c =>
        if asleep c.host.sock.state then none
        else if clientFinds port c.targetAddr pkt then
          (tjuHandlePacket now c.host pkt).map fun r =>
            ((s.putHost .client r.1).post .client r.2).consume .client pkt keep
        else some (s.consume .client pkt keep)
    else none
  | .deliver .server pkt keep now =>
    if (s.net .server).contains pkt ∧ (s.server.socks 0).all (fun h => !asleep h.sock.state) then
      match onTcpPocket s.server pkt with
      | .established n => (s.server.socks n).bind fun h =>
        (tjuHandlePacket now h pkt).map fun r =>
          (({ s with server := { s.server with
            socks := Function.update s.server.socks n (some r.1) } }).post .server r.2).consume
              .server pkt keep
      | .listening l =>
        let r := handleListen now l s.server.queues pkt
        some (({ s with server := { s.server with queues := r.1 } }.post .server r.2).consume
          .server pkt keep)
      | .dropped => some (s.consume .server pkt keep)
    else none
  | .lose x pkt => some (s.consume x pkt false)
  | .own x e =>
    (s.host x).bind fun h =>
      if s.connecting x ∧ e.waits then none else (ownStep h e).map (s.run x)
  | .done .client =>
    s.client.bind fun c =>
      if c.connecting = false ∧ c.host.sock.state = .closed then some { s with client := none }
      else none
  | .done .server =>
    (s.server.socks 0).bind fun h =>
      if h.sock.state = .closed then some { s with server := closeDone s.server 0 h.sock } else none

/-- The server has just called `tju_listen`. -/
def Session.start (addr : TjuSockAddr) : Session where
  server := tjuListen startSimulation (tjuBind tjuSocket addr)
  client := none
  opened _ := false
  net _ := []
  sent _ := []
  read _ := []

/-- What a step shows to the applications. -/
def Session.shows (s : Session) : SessionEv → List (Side × PipeOp Byte)
  | .own x (.append data) => [(x, .write data)]
  | .own x (.recv len) =>
    (((s.host x).bind fun h => tjuRecv h.sock len).map fun r => (x.peer, PipeOp.read r.2)).toList
  | _ => []

variable {s : Session} {c : Conn} {x y : Side} {h : Host} {e : OwnEv} {pkt p : Buf} {out : List Buf}
  {keep : Bool} {r : Outcome}

/-! ## Steps of a socket on its own -/

/-- **A socket on its own** does in a session what it does in a connection. -/
theorem connStep_own (c : Conn) (x : Side) (e : OwnEv) : connStep c (e.on x) =
    (ownStep (c.ep x) e).map fun r => c.put x r.host r.out r.sent r.read := by
  cases e with
  | append data =>
    simp only [connStep, ownStep, OwnEv.on]
    split_ifs
    · rw [Option.map_map]
      rfl
    · rfl
  | recv len =>
    simp only [connStep, ownStep, OwnEv.on]
    split_ifs
    · rw [Option.map_map]
      rfl
    · rfl
  | retransPass =>
    simp only [connStep, ownStep, OwnEv.on, Option.map_map]
    rfl
  | close =>
    simp only [connStep, ownStep, OwnEv.on, Option.map_map]
    rfl
  | wake =>
    simp only [connStep, ownStep, OwnEv.on, Option.map_map]
    rfl
  | _ => rfl

/-- It shows the same. -/
theorem shows_own (hh : s.host x = some (c.ep x)) (e : OwnEv) :
    s.shows (.own x e) = visible c (e.on x) := by
  cases e with
  | recv len =>
    simp only [Session.shows, visible, OwnEv.on, hh, Option.bind_some]
  | _ => rfl

/-! ## One step -/

/-- The client before `tju_connect` returns. -/
def connectingHost (port : BitVec 16) (junk : TjuSockAddr) (st : State) : Host :=
  sockHost { tjuSocket with
    establishedLocalAddr := ⟨clientIp, port⟩
    establishedRemoteAddr := junk
    state := st }

/-- What a step can do. -/
inductive SessionMove (port : BitVec 16) (addr : TjuSockAddr) (s : Session) :
    SessionEv → Session → Prop
  | connect {junk : TjuSockAddr} : s.opened .client = false →
      SessionMove port addr s (.connect junk)
        (({ s with client := some ⟨connectingHost port junk .synSent, addr, true⟩ }.markOpened
          .client).post .client [synPacket port addr.port])
  | synRetrans {cl : Client} : s.client = some cl → cl.connecting = true →
      cl.host.sock.state ≠ .established →
      SessionMove port addr s .synRetrans (s.post .client [synPacket port addr.port])
  | connectReturn {cl : Client} : s.client = some cl → cl.connecting = true →
      cl.host.sock.state = .established →
      SessionMove port addr s .connectReturn { s with client := some { cl with
        host := { cl.host with
          sock := { cl.host.sock with establishedRemoteAddr := cl.targetAddr } }
        connecting := false } }
  | accept {r : Kernel × TjuTcp} : s.opened .server = false → tjuAccept s.server 0 = some r →
      SessionMove port addr s .accept ({ s with server := r.1 }.markOpened .server)
  | clientHandles {pkt : Buf} {keep : Bool} {now : ℕ} {cl : Client} {h : Host} {out : List Buf} :
      pkt ∈ s.net .client → s.client = some cl → asleep cl.host.sock.state = false →
      tjuHandlePacket now cl.host pkt = some (h, out) →
      SessionMove port addr s (.deliver .client pkt keep now)
        (((s.putHost .client h).post .client out).consume .client pkt keep)
  | serverHandles {pkt : Buf} {keep : Bool} {now n : ℕ} {h h' : Host} {out : List Buf} :
      pkt ∈ s.net .server → (∀ h ∈ s.server.socks 0, asleep h.sock.state = false) →
      onTcpPocket s.server pkt = .established n → s.server.socks n = some h →
      tjuHandlePacket now h pkt = some (h', out) →
      SessionMove port addr s (.deliver .server pkt keep now)
        (({ s with server := { s.server with
          socks := Function.update s.server.socks n (some h') } }.post .server out).consume
            .server pkt keep)
  | listens {pkt : Buf} {keep : Bool} {now : ℕ} {l : TjuTcp} : pkt ∈ s.net .server →
      onTcpPocket s.server pkt = .listening l →
      SessionMove port addr s (.deliver .server pkt keep now)
        (({ s with server := { s.server with
          queues := (handleListen now l s.server.queues pkt).1 } }.post .server
            (handleListen now l s.server.queues pkt).2).consume .server pkt keep)
  | drops {x : Side} {pkt : Buf} {keep : Bool} {now : ℕ} :
      SessionMove port addr s (.deliver x pkt keep now) (s.consume x pkt keep)
  | lose {x : Side} {pkt : Buf} : SessionMove port addr s (.lose x pkt) (s.consume x pkt false)
  | own {x : Side} {f : OwnEv} {h : Host} {r : Outcome} : s.host x = some h →
      ¬ (s.connecting x = true ∧ f.waits = true) → ownStep h f = some r →
      SessionMove port addr s (.own x f) (s.run x r)
  | clientDone {cl : Client} : s.client = some cl → cl.connecting = false →
      cl.host.sock.state = .closed →
      SessionMove port addr s (.done .client) { s with client := none }
  | serverDone {h : Host} : s.server.socks 0 = some h →
      SessionMove port addr s (.done .server) { s with server := closeDone s.server 0 h.sock }

/-- **What a step does.** -/
theorem sessionStep_move {port : BitVec 16} {addr : TjuSockAddr} {s s' : Session} {e : SessionEv}
    (he : sessionStep port addr s e = some s') : SessionMove port addr s e s' := by
  cases e with
  | connect junk =>
    simp only [sessionStep] at he
    split_ifs at he with hg
    cases he
    exact .connect hg
  | synRetrans =>
    obtain ⟨cl, hs, he⟩ := Option.bind_eq_some_iff.1 he
    split_ifs at he with hg
    cases he
    exact .synRetrans hs hg.1 hg.2
  | connectReturn =>
    obtain ⟨cl, hs, he⟩ := Option.bind_eq_some_iff.1 he
    split_ifs at he with hg
    cases he
    exact .connectReturn hs hg.1 hg.2
  | accept =>
    simp only [sessionStep] at he
    split_ifs at he with hg
    obtain ⟨r, hr, rfl⟩ := Option.map_eq_some_iff.1 he
    exact .accept hg.1 hr
  | deliver x pkt keep now =>
    cases x with
    | client =>
      simp only [sessionStep] at he
      split_ifs at he with hnet
      have hmem := List.contains_iff_mem.1 hnet
      split at he
      · cases he
        exact .drops
      · next cl hs =>
        split_ifs at he with hsleep
        · obtain ⟨⟨h, out⟩, hr, rfl⟩ := Option.map_eq_some_iff.1 he
          exact .clientHandles hmem hs (Bool.eq_false_of_not_eq_true hsleep) hr
        · cases he
          exact .drops
    | server =>
      simp only [sessionStep] at he
      split_ifs at he with hnet
      have hmem := List.contains_iff_mem.1 hnet.1
      split at he
      · next n ht =>
        obtain ⟨h, hh, he⟩ := Option.bind_eq_some_iff.1 he
        obtain ⟨⟨h', out⟩, hr, rfl⟩ := Option.map_eq_some_iff.1 he
        refine .serverHandles hmem (fun g hg => ?_) ht hh hr
        rw [Option.mem_def.1 hg] at hnet
        simpa using hnet.2
      · next l ht =>
        cases he
        exact .listens hmem ht
      · cases he
        exact .drops
  | lose x pkt =>
    cases he
    exact .lose
  | own x f =>
    obtain ⟨h, hh, he⟩ := Option.bind_eq_some_iff.1 he
    split_ifs at he with hg
    obtain ⟨r, hr, rfl⟩ := Option.map_eq_some_iff.1 he
    exact .own hh hg hr
  | done x =>
    cases x with
    | client =>
      obtain ⟨cl, hs, he⟩ := Option.bind_eq_some_iff.1 he
      split_ifs at he with hg
      cases he
      exact .clientDone hs hg.1 hg.2
    | server =>
      obtain ⟨h, hh, he⟩ := Option.bind_eq_some_iff.1 he
      split_ifs at he with hg
      cases he
      exact .serverDone hh

/-! ## The network -/

namespace Session

@[simp] theorem consume_client : (s.consume x pkt keep).client = s.client := by
  unfold consume; split_ifs <;> rfl

@[simp] theorem consume_server : (s.consume x pkt keep).server = s.server := by
  unfold consume; split_ifs <;> rfl

@[simp] theorem consume_opened : (s.consume x pkt keep).opened = s.opened := by
  unfold consume; split_ifs <;> rfl

@[simp] theorem consume_sent : (s.consume x pkt keep).sent = s.sent := by
  unfold consume; split_ifs <;> rfl

@[simp] theorem consume_read : (s.consume x pkt keep).read = s.read := by
  unfold consume; split_ifs <;> rfl

theorem mem_consume (hp : p ∈ (s.consume x pkt keep).net y) : p ∈ s.net y := by
  unfold consume at hp
  split_ifs at hp
  · exact hp
  · by_cases hy : y = x
    · subst hy
      simp only [Function.update_self] at hp
      exact List.mem_of_mem_erase hp
    · simp only [Function.update_of_ne hy] at hp
      exact hp

theorem mem_post (hp : p ∈ (s.post x out).net y) : p ∈ s.net y ∨ y = x.peer ∧ p ∈ out := by
  unfold post at hp
  by_cases hy : y = x.peer
  · subst hy
    simp only [Function.update_self] at hp
    exact (List.mem_append.1 hp).imp_right fun h => ⟨rfl, h⟩
  · simp only [Function.update_of_ne hy] at hp
    exact Or.inl hp

theorem posted (hp : p ∈ out) : p ∈ (s.post x out).net x.peer := by
  simp only [post, Function.update_self]
  exact List.mem_append_right _ hp

end Session

end Tju
