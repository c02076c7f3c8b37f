/-
  The accepted sockets of a process, with the objects they point to.

  `tju_handle_packet` makes the socket of a new connection by `memcpy` from the
  listening socket, and so copies its pointers.  Here a socket (`SockObj`) holds
  the addresses of its two windows and its two buffers, and their contents are
  in the `Store`; `RETRANS`, `TIMEOUT_FLAG` and the interval timer are those of
  the process.  A step of a socket runs the functions of the other modules on
  what the socket points to (`Store.host`), and writes the result back there
  (`Store.runs`).

  `malloc` returns any address that is not in use, which is an argument of the
  step; a step that would read or write a freed buffer is not defined.

  The history tells for which sockets `RETRANS` and `TIMEOUT_FLAG` were raised,
  and for which one the timer was started.
-/
import TjuTcp.Kernel
import TjuTcp.Lib.Run

namespace Tju

open Lib

/-- `tju_tcp_t` with its pointers. -/
structure SockObj where
  state : State
  bindAddr : TjuSockAddr
  establishedLocalAddr : TjuSockAddr
  establishedRemoteAddr : TjuSockAddr
  sendingBuf : ℕ
  sendingLen : ℕ
  haveSendLen : ℤ
  receivedBuf : ℕ
  receivedLen : ℕ
  wndSend : ℕ
  wndRecv : ℕ
  isRetransing : Bool
  packetFIN : Option (List Byte)

/-- A process with one listening socket and the sockets that `tju_accept` has returned.  `timerOf`
    is the socket for which the running timer was started. -/
structure Store where
  listening : SockObj
  queues : Queues
  sockets : ℕ → Option SockObj
  sendWindows : ℕ → SenderWindow
  recvWindows : ℕ → ReceiverWindow
  buffers : ℕ → Option (ℕ → Byte)
  retrans : Bool
  timeoutFlag : Bool
  closeAck : BitVec 32
  timerOf : Option ℕ
  raisedFor : ℕ → Bool
  timedOutFor : ℕ → Bool

namespace Store

/-- The first `len` bytes of a buffer, unless it is freed. -/
def bytes (s : Store) (p len : ℕ) : Option (List Byte) := (s.buffers p).map fun m => front m len

/-- The process as the socket `o` sees it, with the timer off. -/
def host (s : Store) (o : SockObj) : Host where
  sock :=
    { state := o.state
      bindAddr := o.bindAddr
      establishedLocalAddr := o.establishedLocalAddr
      establishedRemoteAddr := o.establishedRemoteAddr
      sendingBuf := (s.bytes o.sendingBuf o.sendingLen).getD (List.replicate o.sendingLen 0)
      haveSendLen := o.haveSendLen
      receivedBuf := (s.bytes o.receivedBuf o.receivedLen).getD (List.replicate o.receivedLen 0)
      wndSend := s.sendWindows o.wndSend
      wndRecv := s.recvWindows o.wndRecv
      isRetransing := o.isRetransing
      packetFIN := o.packetFIN }
  retrans := s.retrans
  timeoutFlag := s.timeoutFlag
  timer := false
  closeAck := s.closeAck

/-- `memcpy` of `data` to `p + off`. -/
def write (s : Store) (p off : ℕ) (data : List Byte) : Option Store :=
  (s.buffers p).map fun m =>
    { s with buffers := Function.update s.buffers p (some (store m off data)) }

/-- `malloc` of a buffer with `data` at its front, in place of the buffer `p`, which is freed. -/
def renew (s : Store) (p addr : ℕ) (data : List Byte) : Option Store :=
  if (s.buffers p).isSome ∧ s.buffers addr = none then
    some { s with
      buffers := Function.update (Function.update s.buffers addr (some (store (fun _ => 0) 0 data)))
        p none }
  else none

def putSock (s : Store) (n : ℕ) (o : SockObj) : Store :=
  { s with sockets := Function.update s.sockets n (some o) }

/-- `tju_recv`, once there is something to read. -/
def tjuRecv (s : Store) (n len addr : ℕ) : Option Store := do
  let o ← s.sockets n
  let m ← s.buffers o.receivedBuf
  if o.receivedLen = 0 then none
  else
    let readLen := if o.receivedLen ≥ len then len else o.receivedLen
    if readLen < o.receivedLen then
      (s.renew o.receivedBuf addr ((front m o.receivedLen).drop readLen)).map fun s =>
        s.putSock n { o with receivedBuf := addr, receivedLen := o.receivedLen - readLen }
    else some (s.putSock n { o with receivedLen := 0 })

/-- `timeout_handler`, when the timer that was started for `n` runs out. -/
def alarm (s : Store) (n : ℕ) : Store :=
  { s with
    retrans := true
    timeoutFlag := true
    timerOf := none
    raisedFor := Function.update s.raisedFor n true
    timedOutFor := Function.update s.timedOutFor n true }

/-- A server whose only socket listens at `bindAddr`. -/
def start (bindAddr : TjuSockAddr) : Store where
  listening :=
    { state := .listen
      bindAddr := bindAddr
      establishedLocalAddr := ⟨0, 0⟩
      establishedRemoteAddr := ⟨0, 0⟩
      sendingBuf := 0
      sendingLen := 0
      haveSendLen := 0
      receivedBuf := 1
      receivedLen := 0
      wndSend := 0
      wndRecv := 0
      isRetransing := false
      packetFIN := none }
  queues := initQueue
  sockets _ := none
  sendWindows _ := .init
  recvWindows _ := .init
  buffers p := if p ≤ 1 then some fun _ => 0 else none
  retrans := false
  timeoutFlag := false
  closeAck := 0
  timerOf := none
  raisedFor _ := false
  timedOutFor _ := false

end Store

end Tju
