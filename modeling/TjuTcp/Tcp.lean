/-
  The connection (src/tju_tcp.c): `tju_send`, `tju_recv`, `tju_close`, and
  `tju_handle_packet` for the socket of a connection.  The LISTEN branch of
  `tju_handle_packet` works on the queues of the process and is in
  `TjuTcp.Syn`.

  A function that the C code would run into undefined behaviour, because a
  `memcpy` or an index leaves its buffer, returns `none`.  Where the handler
  sleeps (in CLOSE_WAIT and in TIME_WAIT) it returns, and `wake` is the code
  behind the sleep.
-/
import TjuTcp.Timer
import TjuTcp.Lib.Memory

namespace Tju

open Lib

/-! ## `tju_send` and `tju_recv` -/

/-- The local variables of `tju_send`: what `tmp_buffer` points to, and `tmp_len`. -/
structure SendCall where
  tmpBuffer : List Byte
  tmpLen : ℕ

/-- One round of the loop of `tju_send`: the new `sending_buf`, and the new local variables
    unless the function returns. -/
def tjuSendRound (sendingBuf : List Byte) (c : SendCall) : List Byte × Option SendCall :=
  let free := maxSockBufSize - sendingBuf.length
  if free > 0 ∨ c.tmpLen ≠ 0 then
    if free = 0 then (sendingBuf, some c)
    else if free ≥ c.tmpLen then (sendingBuf ++ c.tmpBuffer.take c.tmpLen, none)
    else
      -- `sending_len` is overwritten before the local variables are advanced by it
      let sendingLen := maxSockBufSize
      (sendingBuf ++ c.tmpBuffer.take free,
        some ⟨c.tmpBuffer.drop (maxSockBufSize - sendingLen), c.tmpLen - (maxSockBufSize - sendingLen)⟩)
  else (sendingBuf, none)

/-- `tju_recv`: `none` while there is nothing to read. -/
def tjuRecv (sock : TjuTcp) (len : ℕ) : Option (TjuTcp × List Byte) :=
  if sock.receivedBuf.length = 0 then none
  else
    let readLen := if sock.receivedBuf.length ≥ len then len else sock.receivedBuf.length
    some ({ sock with receivedBuf := sock.receivedBuf.drop readLen }, sock.receivedBuf.take readLen)

/-! ## Data segments -/

/-- `get_wnd_free_len`: the length of the marked front of the window.  The loop has no bound of
    its own; `none` if it reads behind the array. -/
def getWndFreeLen (mark : ℕ → Byte) : Option (BitVec 16) :=
  (scan (fun i => mark i != 0) maxRwindowSize 0).map (BitVec.ofNat 16)

/-- The segment is copied into the receive window, if it passes the test for the right edge. -/
def putSegment (w : ReceiverWindow) (pkt : Buf) : Option ReceiverWindow :=
  let dlen := getPlen pkt - getHlen pkt
  if getSeq pkt + dlen.setWidth 32 < w.expectSeq + BitVec.ofNat 32 maxRwindowSize then do
    let off := (getSeq pkt).toNat - w.expectSeq.toNat
    let data ← load? pkt (getHlen pkt).toNat dlen.toNat
    let recvBuf ← store? maxRwindowSize w.recvBuf off data
    let mark ← store? maxRwindowSize w.mark off (List.replicate dlen.toNat 1)
    some { w with recvBuf := recvBuf, mark := mark }
  else some w

/-- The marked front of the window goes to `received_buf`, if there is room for it. -/
def slideWindow (sock : TjuTcp) : Option TjuTcp :=
  let w := sock.wndRecv
  if w.mark 0 ≠ 0 then do
    let freeLen ← getWndFreeLen w.mark
    if maxSockBufSize - sock.receivedBuf.length < freeLen.toNat then
      some { sock with wndRecv :=
        { w with remainSize := BitVec.ofNat 32 maxRwindowSize - freeLen.setWidth 32 } }
    else
      some { sock with
        receivedBuf := sock.receivedBuf ++ front w.recvBuf freeLen.toNat
        wndRecv :=
          { remainSize := .ofNat 32 maxRwindowSize
            recvBuf := shiftDown maxRwindowSize freeLen.toNat 0 w.recvBuf
            mark := shiftDown maxRwindowSize freeLen.toNat 0 w.mark
            expectSeq := w.expectSeq + freeLen.setWidth 32 } }
  else some sock

/-- The ACK that answers a data segment. -/
def ackPacket (sock : TjuTcp) : Buf :=
  createPacketBuf sock.establishedLocalAddr.port sock.establishedRemoteAddr.port
    sock.wndSend.nextseq sock.wndRecv.expectSeq defaultHeaderLen defaultHeaderLen ackFlagMask
    (sock.wndRecv.remainSize.setWidth 16) 0 [] 0

/-- `tju_handle_packet` in ESTABLISHED, on a packet with data. -/
def handleData (sock : TjuTcp) (pkt : Buf) : Option (TjuTcp × List Buf) :=
  if getSeq pkt ≥ sock.wndRecv.expectSeq then do
    let wndRecv ← putSegment sock.wndRecv pkt
    let sock ← slideWindow { sock with wndRecv := wndRecv }
    some (sock, sendToLayer3 (ackPacket sock) 20)
  else some (sock, sendToLayer3 (ackPacket sock) 20)

/-! ## Acknowledgements -/

/-- `window_size` is set to the smaller one of `cwnd` and `rwnd`. -/
def SenderWindow.refresh (w : SenderWindow) : SenderWindow :=
  { w with windowSize := cmin w.cwnd w.rwnd }

/-- An ACK for `base` once more is counted; in fast recovery it opens the congestion window. -/
def countDup (w : SenderWindow) : SenderWindow :=
  match w.windowStatus with
  | .slowStart | .congestionAvoidance => { w with sameAckCnt := w.sameAckCnt + 1 }
  | .fastRecovery => { w with cwnd := w.cwnd + BitVec.ofNat 32 maxDlen }
  | .timeout => w

/-- `tju_handle_packet` on an ACK for `base`: the third one starts a fast retransmission. -/
def dupAck (h : Host) : Host :=
  let w := countDup h.sock.wndSend
  if w.sameAckCnt = 3 ∧ w.windowStatus ≠ .fastRecovery then
    { h with
      retrans := true
      sock := { h.sock with
        isRetransing := true
        wndSend := { w with
          ssthresh := w.cwnd >>> 1
          cwnd := w.cwnd >>> 1
          windowStatus := .fastRecovery }.refresh } }
  else { h with sock := { h.sock with wndSend := w.refresh } }

/-- The congestion window on an ACK for new data. -/
def growCwnd (w : SenderWindow) : SenderWindow :=
  match w.windowStatus with
  | .slowStart =>
    if w.cwnd * 2 ≥ w.ssthresh then
      { w with cwnd := w.ssthresh, windowStatus := .congestionAvoidance }
    else { w with cwnd := w.cwnd * 2 }
  | .congestionAvoidance => { w with cwnd := w.cwnd + BitVec.ofNat 32 maxDlen }
  | .fastRecovery => { w with windowStatus := .congestionAvoidance }
  | .timeout => w

/-- The round trip measurement, if one is running, ends with an ACK for new data. -/
def takeSample (now : ℕ) (ack : BitVec 32) (w : SenderWindow) : SenderWindow :=
  if w.isEstimatingRtt = true then
    { (if w.rttExpectAck = ack then calTimeout now w else w) with isEstimatingRtt := false }
  else w

/-- The acknowledged part of `sending_buf` is dropped, when all is acknowledged or when it has
    grown large. -/
def cleanSendBuf (sock : TjuTcp) : Option TjuTcp :=
  let ackCnt := sock.wndSend.ackCnt
  if sock.sendingBuf.length ≠ 0 ∧ (ackCnt = BitVec.ofNat 32 sock.sendingBuf.length ∨
      ackCnt > BitVec.ofNat 32 (4 * maxSockBufSize / 5)) then
    if ackCnt.toNat ≤ sock.sendingBuf.length then
      some { sock with
        sendingBuf := sock.sendingBuf.drop ackCnt.toNat
        haveSendLen := (BitVec.ofInt 32 sock.haveSendLen - ackCnt).toInt
        wndSend := { sock.wndSend with ackCnt := 0 } }
    else none
  else some sock

/-- An ACK for new data. -/
def newAck (now : ℕ) (h : Host) (ack : BitVec 32) : Option Host := do
  let w := (growCwnd { h.sock.wndSend with sameAckCnt := 0 }).refresh
  let w := takeSample now ack w
  let w := { w with ackCnt := w.ackCnt + (ack - w.base), base := ack }
  let h := { h with sock := { h.sock with wndSend := w } }
  let h := if w.base = w.nextseq then
      { stopTimer h with sock := { h.sock with isRetransing := false } }
    else { startTimer h with sock := { h.sock with isRetransing := true } }
  let sock ← cleanSendBuf h.sock
  some { h with sock := sock }

/-- A closed window starts the timer of the probes. -/
def zeroWindow (h : Host) : Host :=
  if h.sock.wndSend.windowSize = 0 then
    { startTimer h with sock := { h.sock with isRetransing := false } }
  else h

/-- `tju_handle_packet` in ESTABLISHED, on an ACK. -/
def handleAck (now : ℕ) (h : Host) (pkt : Buf) : Option Host := do
  let w := { h.sock.wndSend with rwnd := (getAdvertisedWindow pkt).setWidth 32 }
  let h := { h with sock := { h.sock with wndSend := w } }
  let h ← if getAck pkt < w.base then
      some { h with sock := { h.sock with wndSend := w.refresh } }
    else if getAck pkt = w.base then some (dupAck h)
    else newAck now h (getAck pkt)
  some (zeroWindow h)

/-! ## Closing -/

/-- The ACK that answers a SYN|ACK or a FIN: one above the number of the packet. -/
def replyAck (pkt : Buf) (seq : BitVec 32) : Buf :=
  createPacketBuf (getDst pkt) (getSrc pkt) seq (getSeq pkt + 1) defaultHeaderLen defaultHeaderLen
    ackFlagMask 1 0 [] 0

/-- The FIN of `tju_close`, with `FIN_FLAG_MASK`, or of a passive close, with also
    `ACK_FLAG_MASK`. -/
def finPacket (sock : TjuTcp) (ack : BitVec 32) (flags : Byte) : Buf :=
  createPacketBuf sock.establishedLocalAddr.port sock.establishedRemoteAddr.port finSeq ack
    defaultHeaderLen defaultHeaderLen flags 1 0 [] 0

def Host.setState (h : Host) (s : State) : Host := { h with sock := { h.sock with state := s } }

/-- `tju_handle_packet` in ESTABLISHED, on a FIN, up to the sleep in CLOSE_WAIT. -/
def handleFin (h : Host) (pkt : Buf) : Host × List Buf :=
  ({ h.setState .closeWait with closeAck := getSeq pkt + 1 },
    sendToLayer3 (replyAck pkt (getAck pkt)) 20)

/-- `tju_handle_packet`, called at the time `now`, for a socket that is not in LISTEN. -/
def tjuHandlePacket (now : ℕ) (h : Host) (pkt : Buf) : Option (Host × List Buf) :=
  let flags := getFlags pkt
  match h.sock.state with
  | .synSent =>
    if getAck pkt = clientIsn + 1 then
      some (h.setState .established, sendToLayer3 (replyAck pkt (getAck pkt)) 20)
    else some (h, [])
  | .established =>
    if flags = finFlagMask then some (handleFin h pkt)
    else if flags = noFlag then
      (handleData h.sock pkt).map fun (sock, out) => ({ h with sock := sock }, out)
    else if flags = ackFlagMask then (handleAck now h pkt).map fun h => (h, [])
    else some (h, [])
  | .finWait1 =>
    if flags = ackFlagMask ∧ getAck pkt = finSeq + 1 then some (h.setState .finWait2, [])
    else if flags = finFlagMask ||| ackFlagMask ∨ flags = finFlagMask then
      some (h.setState .closing, sendToLayer3 (replyAck pkt (finSeq + 1)) 20)
    else some (h, [])
  | .finWait2 =>
    if flags = finFlagMask ||| ackFlagMask then
      some (h.setState .timeWait, sendToLayer3 (replyAck pkt (getAck pkt)) 20)
    else some (h, [])
  | .lastAck =>
    if flags = ackFlagMask ∧ getAck pkt = finSeq + 1 then some (h.setState .closed, [])
    else some (h, [])
  | .closing =>
    if flags = ackFlagMask ∧ getAck pkt = finSeq + 1 then some (h.setState .timeWait, [])
    else some (h, [])
  | .closed | .listen | .synRecv | .closeWait | .timeWait => some (h, [])

/-- The code of `tju_handle_packet` behind a `sleep`: in CLOSE_WAIT the FIN|ACK, in TIME_WAIT
    the end. -/
def wake (h : Host) : Option (Host × List Buf) :=
  match h.sock.state with
  | .closeWait =>
    let packetFIN := finPacket h.sock h.closeAck (finFlagMask ||| ackFlagMask)
    some ({ h with sock := { h.sock with packetFIN := some packetFIN, state := .lastAck } },
      sendToLayer3 packetFIN 20)
  | .timeWait => some (h.setState .closed, [])
  | _ => none

/-- `tju_close` up to its waiting loop.  In LAST_ACK it is called by the thread that the handler
    creates; `none` is the `exit(-1)` in every other state. -/
def tjuClose (h : Host) : Option (Host × List Buf) :=
  match h.sock.state with
  | .established =>
    let packetFIN := finPacket h.sock 0 finFlagMask
    some ({ h with sock := { h.sock with packetFIN := some packetFIN, state := .finWait1 } },
      sendToLayer3 packetFIN 20)
  | .lastAck => some (h, [])
  | _ => none

/-- The waiting loop of `tju_close` sends the FIN again. -/
def closeRetrans (sock : TjuTcp) : List Buf :=
  if sock.state ≠ .closed then sock.packetFIN.toList.flatMap fun p => sendToLayer3 p 20 else []

end Tju
