/-
  One socket in ESTABLISHED against an arbitrary network.

  `sockStep` are the atomic steps of one process: `tju_send` copies bytes into
  the free part of `sending_buf`, a pass of each of the two threads, a
  SIGALRM, a packet with any content, and a `tju_recv`.  A step that would run
  into undefined behaviour is not a step.
-/
import TjuTcp.Ack
import TjuTcp.Receive
import TjuTcp.Lib.Run

namespace Tju

open Lib

/-- A process whose socket has just been connected. -/
def establishedHost (localAddr remoteAddr : TjuSockAddr) : Host where
  sock := { tjuSocket with
    state := .established
    establishedLocalAddr := localAddr
    establishedRemoteAddr := remoteAddr }
  retrans := false
  timeoutFlag := false
  timer := false
  closeAck := 0

/-- The socket of the client, just connected. -/
def clientHost : Host := establishedHost ⟨clientIp, 5678⟩ ⟨serverIp, 1234⟩

/-- The steps of one process. -/
inductive SockEv where
  | append (data : List Byte)
  | sendPass (now : ℕ)
  | retransPass
  | alarm
  | packet (now : ℕ) (pkt : Buf)
  | recv (len : ℕ)

/-- `tju_send` has copied `data` into the free part of `sending_buf`. -/
def appendData (sock : TjuTcp) (data : List Byte) : Option TjuTcp :=
  if sock.sendingBuf.length + data.length ≤ maxSockBufSize then
    some { sock with sendingBuf := sock.sendingBuf ++ data }
  else none

def sockStep (h : Host) : SockEv → Option Host
  | .append data => (appendData h.sock data).map fun sock => { h with sock := sock }
  | .sendPass now => some (sendingThread now h).1
  | .retransPass => (retransThread h).map Prod.fst
  | .alarm => some (timeoutHandler h)
  | .packet now pkt => (tjuHandlePacket now h pkt).map Prod.fst
  | .recv len => if 0 < len then (tjuRecv h.sock len).map fun r => { h with sock := r.1 } else none

/-- The packets arrive, each at its time. -/
def arrivals (pkts : List (ℕ × Buf)) : List SockEv := pkts.map fun p => .packet p.1 p.2

/-! ## What the calls do -/

section
variable {h : Host} {sock sock' : TjuTcp} {data : List Byte} {r : Host × List Buf}

theorem appendData_eq_some (ha : appendData sock data = some sock') :
    sock.sendingBuf.length + data.length ≤ maxSockBufSize ∧
      sock' = { sock with sendingBuf := sock.sendingBuf ++ data } := by
  unfold appendData at ha
  split_ifs at ha with hfit
  exact ⟨hfit, (Option.some.inj ha).symm⟩

/-- The process goes on in the state `st`, and keeps the FIN `p`. -/
def Host.keepFin (h : Host) (p : Buf) (st : State) : Host :=
  { h with sock := { h.sock with packetFIN := some p, state := st } }

theorem tjuClose_cases (hc : tjuClose h = some r) :
    h.sock.state = .established ∧ r = (h.keepFin (finPacket h.sock 0 finFlagMask) .finWait1,
      [finPacket h.sock 0 finFlagMask]) ∨ h.sock.state = .lastAck ∧ r = (h, []) := by
  unfold tjuClose at hc
  split at hc
  · next hs => cases hc; exact Or.inl ⟨hs, rfl⟩
  · next hs => cases hc; exact Or.inr ⟨hs, rfl⟩
  · cases hc

theorem wake_cases (hw : wake h = some r) : h.sock.state = .closeWait ∧
      r = (h.keepFin (finPacket h.sock h.closeAck (finFlagMask ||| ackFlagMask)) .lastAck,
        [finPacket h.sock h.closeAck (finFlagMask ||| ackFlagMask)]) ∨
    h.sock.state = .timeWait ∧ r = (h.setState .closed, []) := by
  unfold wake at hw
  split at hw
  · next hs => cases hw; exact Or.inl ⟨hs, rfl⟩
  · next hs => cases hw; exact Or.inr ⟨hs, rfl⟩
  · cases hw

/-- Only the FIN that was kept is sent again. -/
theorem closeRetrans_cases (sock : TjuTcp) : closeRetrans sock = [] ∨
    ∃ p, sock.packetFIN = some p ∧ closeRetrans sock = [p] := by
  unfold closeRetrans
  split_ifs
  · cases hp : sock.packetFIN with
    | none => exact Or.inl rfl
    | some p => exact Or.inr ⟨p, rfl, rfl⟩
  · exact Or.inl rfl

end

/-- The loop has ended in CLOSED. -/
theorem closeRetrans_closed {sock : TjuTcp} (h : sock.state = .closed) : closeRetrans sock = [] :=
  if_neg fun hne => hne h

/-! ## Packets without data -/

theorem ackPacket_eq (sock : TjuTcp) : ackPacket sock =
    wire ⟨sock.establishedLocalAddr.port, sock.establishedRemoteAddr.port, sock.wndSend.nextseq,
      sock.wndRecv.expectSeq, 20, 20, ackFlagMask, sock.wndRecv.remainSize.setWidth 16, 0⟩ [] :=
  createPacketBuf_nil ..

theorem replyAck_eq (pkt : Buf) (seq : BitVec 32) : replyAck pkt seq =
    wire ⟨getDst pkt, getSrc pkt, seq, getSeq pkt + 1, 20, 20, ackFlagMask, 1, 0⟩ [] :=
  createPacketBuf_nil ..

theorem finPacket_eq (sock : TjuTcp) (ack : BitVec 32) (flags : Byte) : finPacket sock ack flags =
    wire ⟨sock.establishedLocalAddr.port, sock.establishedRemoteAddr.port, finSeq, ack, 20, 20,
      flags, 1, 0⟩ [] :=
  createPacketBuf_nil ..

/-! ## The packets that ESTABLISHED tells apart -/

section
variable {now : ℕ} {h : Host} {pkt : Buf} (hs : h.sock.state = .established)
include hs

theorem handle_fin (hf : getFlags pkt = finFlagMask) :
    tjuHandlePacket now h pkt = some (handleFin h pkt) := by
  simp only [tjuHandlePacket, hs, hf, if_true]

theorem handle_data (hf : getFlags pkt = noFlag) : tjuHandlePacket now h pkt =
    (handleData h.sock pkt).map fun r => ({ h with sock := r.1 }, r.2) := by
  simp only [tjuHandlePacket, hs, hf, if_true]
  rw [if_neg (by decide)]

theorem handle_ack (hf : getFlags pkt = ackFlagMask) :
    tjuHandlePacket now h pkt = (handleAck now h pkt).map fun h => (h, []) := by
  simp only [tjuHandlePacket, hs, hf, if_true]
  rw [if_neg (by decide), if_neg (by decide)]

theorem handle_other (h1 : getFlags pkt ≠ finFlagMask) (h2 : getFlags pkt ≠ noFlag)
    (h3 : getFlags pkt ≠ ackFlagMask) : tjuHandlePacket now h pkt = some (h, []) := by
  simp only [tjuHandlePacket, hs, if_neg h1, if_neg h2, if_neg h3]

end

/-- Outside of ESTABLISHED the handler changes only the state and `closeAck`. -/
theorem handle_closing {now : ℕ} {h h' : Host} {pkt : Buf} {out : List Buf}
    (hs : h.sock.state ≠ .established) (he : tjuHandlePacket now h pkt = some (h', out)) :
    ∃ st, h' = h.setState st := by
  unfold tjuHandlePacket at he
  cases hst : h.sock.state <;> simp only [hst] at he hs
  case established => exact absurd rfl hs
  all_goals try split_ifs at he
  all_goals cases he; exact ⟨_, rfl⟩

/-- What the handler does with a packet: four kinds in ESTABLISHED, and whatever comes outside of
    it. -/
inductive Handles (now : ℕ) (h : Host) (pkt : Buf) : Host → List Buf → Prop
  | fin : h.sock.state = .established → getFlags pkt = finFlagMask →
      Handles now h pkt { h.setState .closeWait with closeAck := getSeq pkt + 1 }
        [replyAck pkt (getAck pkt)]
  | data {sock : TjuTcp} {out : List Buf} : h.sock.state = .established → getFlags pkt = noFlag →
      handleData h.sock pkt = some (sock, out) → Handles now h pkt { h with sock := sock } out
  | ack {h' : Host} : h.sock.state = .established → getFlags pkt = ackFlagMask →
      handleAck now h pkt = some h' → Handles now h pkt h' []
  | ignored : h.sock.state = .established → getFlags pkt ≠ finFlagMask → getFlags pkt ≠ noFlag →
      getFlags pkt ≠ ackFlagMask → Handles now h pkt h []
  | closing (st : State) (out : List Buf) : h.sock.state ≠ .established →
      Handles now h pkt (h.setState st) out

section
variable {now : ℕ} {h h' : Host} {pkt : Buf} {out : List Buf}
  (he : tjuHandlePacket now h pkt = some (h', out))
include he

theorem tjuHandlePacket_cases : Handles now h pkt h' out := by
  by_cases hs : h.sock.state = .established
  · by_cases h1 : getFlags pkt = finFlagMask
    · rw [handle_fin hs h1] at he
      cases he
      exact .fin hs h1
    by_cases h2 : getFlags pkt = noFlag
    · rw [handle_data hs h2] at he
      obtain ⟨⟨sock, out⟩, hd, hr⟩ := Option.map_eq_some_iff.1 he
      cases hr
      exact .data hs h2 hd
    by_cases h3 : getFlags pkt = ackFlagMask
    · rw [handle_ack hs h3] at he
      obtain ⟨t, ha, hr⟩ := Option.map_eq_some_iff.1 he
      cases hr
      exact .ack hs h3 ha
    · rw [handle_other hs h1 h2 h3] at he
      cases he
      exact .ignored hs h1 h2 h3
  · obtain ⟨st, rfl⟩ := handle_closing hs he
    exact .closing st out hs

/-- **A packet changes the sending half** only as an ACK in ESTABLISHED. -/
theorem handle_sending : SameCursors h.sock h'.sock ∧ h'.sock.wndSend = h.sock.wndSend ∨
    h.sock.state = .established ∧ getFlags pkt = ackFlagMask ∧ handleAck now h pkt = some h' := by
  cases tjuHandlePacket_cases he with
  | fin => exact Or.inl ⟨⟨rfl, rfl, rfl, rfl, rfl⟩, rfl⟩
  | data hs hf hd =>
    refine Or.inl ?_
    rw [(handleData_frame hd).1]
    exact ⟨⟨rfl, rfl, rfl, rfl, rfl⟩, rfl⟩
  | ack hs hf ha => exact Or.inr ⟨hs, hf, ha⟩
  | ignored => exact Or.inl ⟨SameCursors.refl _, rfl⟩
  | closing => exact Or.inl ⟨⟨rfl, rfl, rfl, rfl, rfl⟩, rfl⟩

/-- **A packet changes the receiving half** only as a data segment in ESTABLISHED. -/
theorem handle_receiving :
    h'.sock.receivedBuf = h.sock.receivedBuf ∧ h'.sock.wndRecv = h.sock.wndRecv ∨
      h.sock.state = .established ∧ getFlags pkt = noFlag ∧
        ∃ sock', handleData h.sock pkt = some (sock', out) ∧ h' = { h with sock := sock' } := by
  cases tjuHandlePacket_cases he with
  | fin => exact Or.inl ⟨rfl, rfl⟩
  | data hs hf hd => exact Or.inr ⟨hs, hf, _, hd, rfl⟩
  | ack hs hf ha => exact Or.inl ⟨(handleAck_rest ha).receivedBuf, (handleAck_rest ha).wndRecv⟩
  | ignored => exact Or.inl ⟨rfl, rfl⟩
  | closing => exact Or.inl ⟨rfl, rfl⟩

end

end Tju
