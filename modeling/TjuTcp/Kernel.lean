/-
  The tables of a process (src/kernel.c), and the calls of the application.

  A process registers its listening socket in `listen_socks` and its connected
  ones in `established_socks`, both indexed by hash values; a connected socket
  is registered by its number.  `onTcpPocket` hands a packet to the socket
  that is registered in its slot, a connected one first.

  * `tjuListen`, `tjuAccept`: the calls of a server;
  * `tjuConnect`: the call of a client, up to its waiting loop;
  * `closeDone`: the end of `tju_close`, behind its waiting loop.
-/
import TjuTcp.Syn

namespace Tju

open Lib

/-- The tables of a process, its queues, and the sockets that its application holds. -/
structure Kernel where
  listenSocks : ℤ → Option TjuTcp
  establishedSocks : ℤ → Option ℕ
  queues : Queues
  socks : ℕ → Option Host

/-- `startSimulation`. -/
def startSimulation : Kernel where
  listenSocks _ := none
  establishedSocks _ := none
  queues := initQueue
  socks _ := none

/-- A process whose flags are down, with this socket. -/
def sockHost (sock : TjuTcp) : Host := ⟨sock, false, false, false, 0⟩

/-! ## The calls -/

/-- `tju_bind`. -/
def tjuBind (sock : TjuTcp) (bindAddr : TjuSockAddr) : TjuTcp := { sock with bindAddr := bindAddr }

/-- `tju_listen`. -/
def tjuListen (k : Kernel) (sock : TjuTcp) : Kernel :=
  { k with
    queues := initQueue
    listenSocks := Function.update k.listenSocks
      (calHash sock.bindAddr.ip sock.bindAddr.port 0 0) (some { sock with state := .listen }) }

/-- `tju_accept` behind the test for an empty queue; the socket it returns gets the number `n`.
    `none` if the queue is found empty, which ends the process. -/
def tjuAccept (k : Kernel) (n : ℕ) : Option (Kernel × TjuTcp) :=
  match getFromAccept k.queues with
  | (queues, some newConn) =>
    some ({ k with
      queues := queues
      establishedSocks := Function.update k.establishedSocks (sockHash newConn) (some n)
      socks := Function.update k.socks n (some (sockHost newConn)) }, newConn)
  | (_, none) => none

/-- `tju_connect` up to its waiting loop, with the port `port` as the one the kernel picks.  The
    remote address is set behind that loop. -/
def tjuConnect (sock : TjuTcp) (port : BitVec 16) (targetAddr : TjuSockAddr) : TjuTcp × List Buf :=
  ({ sock with establishedLocalAddr := ⟨clientIp, port⟩, state := .synSent },
    sendToLayer3 (synPacket port targetAddr.port) 20)

/-- The end of `tju_close`: the socket is taken out of its slot, and freed. -/
def closeDone (k : Kernel) (n : ℕ) (sock : TjuTcp) : Kernel :=
  { k with
    establishedSocks := Function.update k.establishedSocks (sockHash sock) none
    socks := Function.update k.socks n none }

/-! ## The socket that gets a packet -/

/-- The two branches of `onTCPPocket`, and the case that no socket is found. -/
inductive Target where
  | established (n : ℕ)
  | listening (sock : TjuTcp)
  | dropped

/-- The search of `onTCPPocket` on the server. -/
def onTcpPocket (k : Kernel) (pkt : Buf) : Target :=
  match k.establishedSocks (packetHash pkt) with
  | some n => .established n
  | none =>
    match k.listenSocks (calHash serverIp (getDst pkt) 0 0) with
    | some sock => .listening sock
    | none => .dropped

/-- The search of `onTCPPocket` on a client, whose only socket is registered for the connection of
    `port` to `targetAddr`. -/
def clientFinds (port : BitVec 16) (targetAddr : TjuSockAddr) (pkt : Buf) : Bool :=
  calHash clientIp (getDst pkt) serverIp (getSrc pkt) ==
    calHash clientIp port targetAddr.ip targetAddr.port

end Tju
