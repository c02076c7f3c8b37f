/-
  The data of the program (inc/global.h, inc/tju_packet.h) and `tju_socket`.

  Fixed-width words are bit vectors: `uint32_t` is `BitVec 32`, `uint16_t` is
  `BitVec 16`, and a byte is `BitVec 8`.  The two socket buffers are kept with
  their lengths: `sendingBuf` is the list of the first `sending_len` bytes of
  `sending_buf`, and `receivedBuf` that of the first `received_len` bytes of
  `received_buf`.  Clock values are natural numbers of microseconds.
-/
import TjuTcp.Lib.Endian

namespace Tju

open Lib

/-! ## Constants -/

/-- `MAX_DLEN`: the most data in one packet. -/
@[simp] def maxDlen : ℕ := 1375

/-- `MAX_LEN`: the longest packet. -/
@[simp] def maxLen : ℕ := 1400

/-- `MAX_SWINDOW_SIZE`: the largest send window. -/
@[simp] def maxSwindowSize : ℕ := 32 * maxDlen

/-- `MAX_RWINDOW_SIZE`: the size of the receive window. -/
@[simp] def maxRwindowSize : ℕ := 32 * maxDlen

/-- `MAX_SOCK_BUF_SIZE`: the size of the send and of the receive buffer. -/
@[simp] def maxSockBufSize : ℕ := 6000 * maxLen

/-- `TCP_RTO_MIN`. -/
@[simp] def tcpRtoMin : ℕ := 200000

/-- `DEFAULT_HEADER_LEN`. -/
@[simp] def defaultHeaderLen : BitVec 16 := 20

/-- `SERVER_ISN`. -/
@[simp] def serverIsn : BitVec 32 := 0

/-- `CLIENT_ISN`. -/
@[simp] def clientIsn : BitVec 32 := 0

/-- `FIN_SEQ`: the sequence number of every FIN. -/
@[simp] def finSeq : BitVec 32 := 0

/-- `inet_network(SERVER_IP)`, 172.17.0.3. -/
def serverIp : BitVec 32 := 0xAC110003

/-- `inet_network(CLIENT_IP)`, 172.17.0.2. -/
def clientIp : BitVec 32 := 0xAC110002

/-! ## Flags -/

/-- `NO_FLAG`. -/
@[simp] def noFlag : Byte := 0

/-- `SYN_FLAG_MASK`. -/
@[simp] def synFlagMask : Byte := 8

/-- `ACK_FLAG_MASK`. -/
@[simp] def ackFlagMask : Byte := 4

/-- `FIN_FLAG_MASK`. -/
@[simp] def finFlagMask : Byte := 2

/-! ## Sockets -/

/-- The TCP states. -/
inductive State where
  | closed | listen | synSent | synRecv | established | finWait1 | finWait2 | closeWait
  | closing | lastAck | timeWait
  deriving DecidableEq, Repr

/-- The congestion control states. -/
inductive WindowStatus where
  | slowStart | congestionAvoidance | fastRecovery | timeout
  deriving DecidableEq, Repr

/-- `sender_window_t`.  `timeout` is `timeout.it_value.tv_usec`; its other fields are 0. -/
structure SenderWindow where
  windowSize : BitVec 32
  ackCnt : BitVec 32
  base : BitVec 32
  nextseq : BitVec 32
  sameAckCnt : BitVec 32
  estmatedRtt : ℕ
  devRtt : ℕ
  isEstimatingRtt : Bool
  rttExpectAck : BitVec 32
  sendTime : ℕ
  timeout : ℕ
  rwnd : BitVec 32
  windowStatus : WindowStatus
  cwnd : BitVec 32
  ssthresh : BitVec 32

/-- `receiver_window_t`: `recvBuf` and `mark` are blocks of `MAX_RWINDOW_SIZE` bytes. -/
structure ReceiverWindow where
  remainSize : BitVec 32
  recvBuf : ℕ → Byte
  mark : ℕ → Byte
  expectSeq : BitVec 32

/-- `tju_sock_addr`. -/
structure TjuSockAddr where
  ip : BitVec 32
  port : BitVec 16
  deriving DecidableEq, Repr

/-- `tju_tcp_t`, without its locks.  `haveSendLen` is an `int`. -/
structure TjuTcp where
  state : State
  bindAddr : TjuSockAddr
  establishedLocalAddr : TjuSockAddr
  establishedRemoteAddr : TjuSockAddr
  sendingBuf : List Byte
  haveSendLen : ℤ
  receivedBuf : List Byte
  wndSend : SenderWindow
  wndRecv : ReceiverWindow
  isRetransing : Bool
  packetFIN : Option (List Byte)

/-- `min(x,y)`, as the macro spells it. -/
def cmin (x y : BitVec 32) : BitVec 32 := if x < y then x else y

/-- The send window `tju_socket` sets up. -/
def SenderWindow.init : SenderWindow where
  windowSize := .ofNat 32 maxDlen
  ackCnt := 0
  base := 1
  nextseq := 1
  sameAckCnt := 0
  estmatedRtt := tcpRtoMin
  devRtt := 0
  isEstimatingRtt := false
  rttExpectAck := 0
  sendTime := 0
  timeout := 500000
  rwnd := .ofNat 32 maxRwindowSize
  windowStatus := .slowStart
  cwnd := .ofNat 32 maxDlen
  ssthresh := BitVec.ofNat 32 maxSwindowSize >>> 1

/-- The receive window `tju_socket` sets up.  What `malloc` returns for `recv_buf` is not
    initialised by the program; it is 0 here. -/
def ReceiverWindow.init : ReceiverWindow where
  remainSize := .ofNat 32 maxRwindowSize
  recvBuf := fun _ => 0
  mark := fun _ => 0
  expectSeq := 1

/-- `tju_socket`. -/
def tjuSocket : TjuTcp where
  state := .closed
  bindAddr := ⟨0, 0⟩
  establishedLocalAddr := ⟨0, 0⟩
  establishedRemoteAddr := ⟨0, 0⟩
  sendingBuf := []
  haveSendLen := 0
  receivedBuf := []
  wndSend := .init
  wndRecv := .init
  isRetransing := false
  packetFIN := none

end Tju
