/-
  The timer and the two threads that send data (src/timer.c).

  A `Host` is one process with one connection: the socket, the process-wide
  flags `RETRANS` and `TIMEOUT_FLAG`, and the interval timer.  The endless
  loops of `sending_thread` and `retrans_thread` are modelled by their passes:
  one pass is what the thread does from one test of its `if` to the next.

  * `sendSample`, `sendBatch`: the two halves of a pass of `sending_thread`,
    the reads made without `send_lock` and the batch sent under it;
  * `retransThread`: a pass of `retrans_thread`, with its three branches
    (zero-window probe, nothing to retransmit, retransmission).
-/
import TjuTcp.Packet
import TjuTcp.Lib.Loop

namespace Tju

open Lib

/-- One process with one connection.  `timer` tells whether the interval timer is armed;
    `closeAck` is the local variable `ack` of `tju_handle_packet` while that function sleeps in
    CLOSE_WAIT. -/
structure Host where
  sock : TjuTcp
  retrans : Bool
  timeoutFlag : Bool
  timer : Bool
  closeAck : BitVec 32

/-- `sendToLayer3`: packets longer than `MAX_LEN` are refused. -/
def sendToLayer3 (packetBuf : Buf) (packetLen : ℕ) : List Buf :=
  if packetLen > maxLen then [] else [packetBuf]

/-! ## The timer -/

/-- `startTimer`.  `setitimer` refuses `tv_usec` from 1000000 on and disarms the timer on 0. -/
def startTimer (h : Host) : Host :=
  { h with
    retrans := false
    timeoutFlag := false
    timer := if h.sock.wndSend.timeout < 1000000 then h.sock.wndSend.timeout != 0 else h.timer }

/-- `stopTimer`. -/
def stopTimer (h : Host) : Host := { h with timer := false }

/-- `timeout_handler`, called when the one-shot timer runs out. -/
def timeoutHandler (h : Host) : Host :=
  { h with retrans := true, timeoutFlag := true, timer := false }

/-- `CalTimeout`, called at the time `now`, with the estimators in exact arithmetic. -/
def calTimeout (now : ℕ) (w : SenderWindow) : SenderWindow :=
  let sampleRTT := now - w.sendTime
  let est := (7 * w.estmatedRtt + sampleRTT) / 8
  let dev := (3 * w.devRtt + (if sampleRTT < est then est - sampleRTT else sampleRTT - est)) / 4
  { w with estmatedRtt := est, devRtt := dev, timeout := est + 4 * dev }

/-! ## `sending_thread` -/

/-- The packet both threads send for `data` at `seq`. -/
def dataPacket (sock : TjuTcp) (seq : BitVec 32) (data : List Byte) : Buf :=
  createPacketBuf sock.establishedLocalAddr.port sock.establishedRemoteAddr.port seq 0
    defaultHeaderLen (defaultHeaderLen + .ofNat 16 data.length) noFlag 1 0 data data.length

/-- What `sending_thread` reads before it takes `send_lock`. -/
structure Sample where
  windowSize : BitVec 32
  ackCnt : BitVec 32
  base : BitVec 32
  nextseq : BitVec 32

/-- The test of `sending_thread` and the reads behind it. -/
def sendSample (h : Host) : Option Sample :=
  let w := h.sock.wndSend
  if w.windowSize ≠ 0 ∧ h.sock.haveSendLen < h.sock.sendingBuf.length ∧
      .ofInt 32 h.sock.haveSendLen < w.ackCnt + w.windowSize ∧ h.sock.isRetransing = false then
    some ⟨w.windowSize, w.ackCnt, w.base, w.nextseq⟩
  else none

/-- The variables of the loop of `sending_thread`, and the packets sent so far. -/
structure SendLoop where
  host : Host
  wndNextseq : BitVec 32
  out : List Buf

/-- The length of the next segment, with `rest` bytes left. -/
def nextDlen (rest : BitVec 32) : BitVec 32 :=
  if rest ≤ .ofNat 32 maxDlen then rest else .ofNat 32 maxDlen

/-- A round trip measurement starts with the segment just sent, unless one is running. -/
def startSample (now : ℕ) (expectAck : BitVec 32) (w : SenderWindow) : SenderWindow :=
  if w.isEstimatingRtt = false then
    { w with isEstimatingRtt := true, sendTime := now, rttExpectAck := expectAck }
  else w

/-- One round of the loop of `sending_thread`. -/
def sendRound (now : ℕ) (tmpLen wndBase : BitVec 32) (st : SendLoop) : SendLoop :=
  let sock := st.host.sock
  let dlen := nextDlen (tmpLen - .ofInt 32 sock.haveSendLen)
  let data := (sock.sendingBuf.drop sock.haveSendLen.toNat).take dlen.toNat
  let packet := dataPacket sock st.wndNextseq data
  let h : Host := { st.host with
    sock := { sock with wndSend := startSample now (st.wndNextseq + dlen) sock.wndSend } }
  -- the first segment of an empty window starts the timer
  let h := if wndBase = st.wndNextseq then
      { startTimer h with sock := { h.sock with isRetransing := true } }
    else h
  { host := { h with sock := { h.sock with haveSendLen := h.sock.haveSendLen + dlen.toNat } }
    wndNextseq := st.wndNextseq + dlen
    out := st.out ++ sendToLayer3 packet (20 + dlen.toNat) }

/-- The locked half of a pass of `sending_thread`.  Every round sends at least one byte, so
    `tmp_len` rounds are enough. -/
def sendBatch (now : ℕ) (smp : Sample) (h : Host) : Host × List Buf :=
  let tmpLen := cmin (.ofNat 32 h.sock.sendingBuf.length) (smp.ackCnt + smp.windowSize)
  let st := loop (fun st => .ofInt 32 st.host.sock.haveSendLen < tmpLen)
    (sendRound now tmpLen smp.base) tmpLen.toNat ⟨h, smp.nextseq, []⟩
  ({ st.host with sock := { st.host.sock with
      wndSend := { st.host.sock.wndSend with nextseq := st.wndNextseq } } }, st.out)

/-- One pass of `sending_thread` that nothing interrupts. -/
def sendingThread (now : ℕ) (h : Host) : Host × List Buf :=
  match sendSample h with
  | some smp => sendBatch now smp h
  | none => (h, [])

/-! ## `retrans_thread` -/

/-- What a timeout does to the congestion window. -/
def timeoutWindow (w : SenderWindow) : SenderWindow :=
  { w with
    ssthresh := w.cwnd >>> 1
    cwnd := .ofNat 32 maxDlen
    windowStatus := .slowStart
    windowSize := cmin (.ofNat 32 maxDlen) w.rwnd }

/-- The variables of the retransmission loop, and the packets sent so far. -/
structure RetransLoop where
  host : Host
  wndAckCnt : BitVec 32
  wndBase : BitVec 32
  out : List Buf

/-- One round of the retransmission loop. -/
def retransRound (haveSent : BitVec 32) (st : RetransLoop) : RetransLoop :=
  let sock := st.host.sock
  let dlen := nextDlen (haveSent - st.wndAckCnt)
  let data := (sock.sendingBuf.drop st.wndAckCnt.toNat).take dlen.toNat
  let packet := dataPacket sock st.wndBase data
  let h := if st.wndAckCnt = sock.wndSend.ackCnt then
      { startTimer st.host with sock := { sock with isRetransing := true } }
    else st.host
  { host := h
    wndAckCnt := st.wndAckCnt + dlen
    wndBase := st.wndBase + dlen
    out := st.out ++ sendToLayer3 packet (20 + dlen.toNat) }

/-- The retransmission branch of `retrans_thread`, under `send_lock`.  It reads
    `sending_buf[ack_cnt .. have_send_len)`; `none` if not all of that was written. -/
def retransmit (h : Host) : Option (Host × List Buf) :=
  let sock := if h.timeoutFlag then { h.sock with wndSend := timeoutWindow h.sock.wndSend }
    else h.sock
  let haveSent : BitVec 32 := .ofInt 32 sock.haveSendLen
  if sock.wndSend.ackCnt < haveSent ∧ sock.sendingBuf.length < haveSent.toNat then none
  else
    let st := loop (fun st => st.wndAckCnt < haveSent) (retransRound haveSent) haveSent.toNat
      ⟨{ h with sock := sock }, sock.wndSend.ackCnt, sock.wndSend.base, []⟩
    some ({ st.host with
      retrans := false
      sock := { st.host.sock with isRetransing := false } }, st.out)

/-- The zero-window probe: an empty segment one below the window. -/
def probePacket (sock : TjuTcp) : Buf := dataPacket sock (sock.wndSend.base - 1) []

/-- One pass of `retrans_thread`. -/
def retransThread (h : Host) : Option (Host × List Buf) :=
  if h.retrans then
    if h.sock.wndSend.windowSize = 0 then
      some (startTimer h, sendToLayer3 (probePacket h.sock) 20)
    else if h.sock.isRetransing = false then
      if h.sock.wndSend.ackCnt < .ofInt 32 h.sock.haveSendLen then
        some ({ h with retrans := true, sock := { h.sock with isRetransing := true } }, [])
      else some ({ h with retrans := false }, [])
    else retransmit h
  else some (h, [])

end Tju
