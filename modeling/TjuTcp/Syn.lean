/-
  The queues of a listening socket (src/syn.c), and its handler.

  Both queues are arrays with one slot for each hash value: `syn_queue` holds
  the half-open sockets with the SYN|ACK sent for them, `accept_queue` those
  that `tju_accept` may return.  A socket that is put into a slot that is taken
  is dropped.  The functions are the bodies that `syn.c` runs under its locks.

  * `enSynQueue`, `getFromSyn`, `enAcceptQueue`, `getFromAccept`;
  * `synRetransRound`: one round of the thread that maintains the half-open queue;
  * `handleListen`: `tju_handle_packet` in LISTEN.
-/
import TjuTcp.Conn

namespace Tju

open Lib

/-- `MAX_SOCK`: the number of slots. -/
@[simp] def maxSock : ℕ := 32

/-- An index of the tables. -/
abbrev InTable (i : ℤ) : Prop := 0 ≤ i ∧ i < maxSock

/-- `SYN_DEFAULT_REMANDS`. -/
@[simp] def synDefaultRemands : BitVec 16 := 10

/-- `cal_hash`, with the sum and the remainder of `int`. -/
def calHash (localIp : BitVec 32) (localPort : BitVec 16) (remoteIp : BitVec 32)
    (remotePort : BitVec 16) : ℤ :=
  (localIp + localPort.setWidth 32 + remoteIp + remotePort.setWidth 32).toInt.tmod maxSock

/-- The slot of a connected socket. -/
def sockHash (sock : TjuTcp) : ℤ :=
  calHash sock.establishedLocalAddr.ip sock.establishedLocalAddr.port
    sock.establishedRemoteAddr.ip sock.establishedRemoteAddr.port

/-! ## The queues -/

/-- `syn_elem`. -/
structure SynElem where
  sock : Option TjuTcp
  lastAckTime : ℕ
  remands : BitVec 16
  packetSynAck : Option Buf

/-- The two queues with the numbers of their elements. -/
structure Queues where
  synQueue : ℤ → SynElem
  synNum : BitVec 16
  acceptQueue : ℤ → Option TjuTcp
  acceptNum : BitVec 16

/-- `init_queue`. -/
def initQueue : Queues where
  synQueue _ := ⟨none, 0, 0, none⟩
  synNum := 0
  acceptQueue _ := none
  acceptNum := 0

/-- `en_syn_queue`, at the time `now`. -/
def enSynQueue (now : ℕ) (q : Queues) (sock : TjuTcp) (pkt : Buf) : Queues :=
  let hashval := sockHash sock
  if (q.synQueue hashval).sock.isNone then
    { q with
      synQueue := Function.update q.synQueue hashval ⟨some sock, now, synDefaultRemands, some pkt⟩
      synNum := q.synNum + 1 }
  else q

/-- The slot in which `get_from_syn` looks for the packet. -/
def packetHash (pkt : Buf) : ℤ := calHash serverIp (getDst pkt) clientIp (getSrc pkt)

/-- `get_from_syn`. -/
def getFromSyn (q : Queues) (pkt : Buf) : Queues × Option TjuTcp :=
  if q.synNum = 0 then (q, none)
  else
    let elem := q.synQueue (packetHash pkt)
    match elem.sock with
    | some ret =>
      ({ q with
        synQueue := Function.update q.synQueue (packetHash pkt)
          { elem with sock := none, packetSynAck := none }
        synNum := q.synNum - 1 }, some ret)
    | none => (q, none)

/-- `en_accept_queue`. -/
def enAcceptQueue (q : Queues) (sock : TjuTcp) : Queues :=
  let hashval := sockHash sock
  if (q.acceptQueue hashval).isNone then
    { q with
      acceptQueue := Function.update q.acceptQueue hashval (some sock)
      acceptNum := q.acceptNum + 1 }
  else q

/-- The first slot of `accept_queue` that is taken. -/
def firstAccept (q : Queues) : Option ℕ :=
  (List.range maxSock).find? fun i => (q.acceptQueue i).isSome

/-- The locked part of `get_from_accept`. -/
def getFromAccept (q : Queues) : Queues × Option TjuTcp :=
  match firstAccept q with
  | some i =>
    ({ q with
      acceptQueue := Function.update q.acceptQueue i none
      acceptNum := q.acceptNum - 1 }, q.acceptQueue i)
  | none => (q, none)

/-- `CLOCKS_PER_SEC`. -/
def clocksPerSec : ℕ := 1000000

/-- One round of the loop of `syn_retrans_thread`, on slot `i`: `clock()` is `now` at the test, and
    `sent` behind the packet.  `none` if the packet is read through NULL, or past its end. -/
def synRetransRound (now sent : ℕ) (q : Queues) (i : ℤ) : Option (Queues × List Buf) :=
  let elem := q.synQueue i
  if elem.sock.isSome then
    if 0 < elem.remands then
      if (now - elem.lastAckTime) / clocksPerSec ≥ 1 then do
        let pkt ← elem.packetSynAck
        let packetSynAck ← load? pkt 0 defaultHeaderLen.toNat
        some ({ q with
          synQueue := Function.update q.synQueue i
            { elem with lastAckTime := sent, remands := elem.remands - 1 } },
          sendToLayer3 packetSynAck defaultHeaderLen.toNat)
      else some (q, [])
    else
      -- the element has expired; its slot is cleared, and `syn_num` stays
      some ({ q with
        synQueue := Function.update q.synQueue i
          { elem with sock := none, packetSynAck := none } }, [])
  else some (q, [])

/-! ## The handler in LISTEN -/

/-- The half-open socket for a SYN: a copy of the listening socket. -/
def newConn (sock : TjuTcp) (pkt : Buf) : TjuTcp :=
  { sock with
    establishedLocalAddr := sock.bindAddr
    establishedRemoteAddr := ⟨clientIp, getSrc pkt⟩
    state := .synRecv }

/-- `tju_handle_packet` in LISTEN. -/
def handleListen (now : ℕ) (sock : TjuTcp) (q : Queues) (pkt : Buf) : Queues × List Buf :=
  if getFlags pkt = synFlagMask then
    (enSynQueue now q (newConn sock pkt) (synAckPacket pkt), sendToLayer3 (synAckPacket pkt) 20)
  else if getFlags pkt = ackFlagMask ∧ getAck pkt = serverIsn + 1 then
    match getFromSyn q pkt with
    | (q, none) => (q, [])
    | (q, some tmpConn) => (enAcceptQueue q { tmpConn with state := .established }, [])
  else (q, [])

/-- The half-open socket that the handler takes for a packet. -/
def listenTakes (q : Queues) (pkt : Buf) : Option TjuTcp :=
  if getFlags pkt = ackFlagMask ∧ getAck pkt = serverIsn + 1 then (getFromSyn q pkt).2 else none

variable {q q' : Queues} {sock : TjuTcp} {pkt : Buf}

/-! ## What the operations do -/

@[simp] theorem enSynQueue_acceptQueue (now : ℕ) (q : Queues) (sock : TjuTcp) (pkt : Buf) :
    (enSynQueue now q sock pkt).acceptQueue = q.acceptQueue := by
  unfold enSynQueue; dsimp only; split_ifs <;> rfl

/-- What `get_from_syn` returns was in the slot of the packet; nothing else is compared. -/
theorem getFromSyn_cases (q : Queues) (pkt : Buf) : (getFromSyn q pkt).1.acceptQueue = q.acceptQueue ∧
    ∀ sock, (getFromSyn q pkt).2 = some sock → (q.synQueue (packetHash pkt)).sock = some sock := by
  unfold getFromSyn
  split_ifs
  · exact ⟨rfl, fun sock h => by cases h⟩
  · dsimp only
    split
    · next ret h => exact ⟨rfl, fun sock hs => h.trans hs⟩
    · exact ⟨rfl, fun sock h => by cases h⟩

theorem enSynQueue_half {now : ℕ} {i : ℤ} {t : TjuTcp}
    (h : ((enSynQueue now q sock pkt).synQueue i).sock = some t) :
    (q.synQueue i).sock = some t ∨ t = sock := by
  unfold enSynQueue at h
  dsimp only at h
  split_ifs at h
  · by_cases hi : i = sockHash sock
    · subst hi
      simp only [Function.update_self, Option.some.injEq] at h
      exact Or.inr h.symm
    · simp only [Function.update_of_ne hi] at h
      exact Or.inl h
  · exact Or.inl h

theorem getFromSyn_half {i : ℤ} (h : ((getFromSyn q pkt).1.synQueue i).sock = some sock) :
    (q.synQueue i).sock = some sock := by
  unfold getFromSyn at h
  split_ifs at h
  · exact h
  · dsimp only at h
    split at h
    · by_cases hi : i = packetHash pkt
      · subst hi
        simp only [Function.update_self] at h
        cases h
      · simpa only [Function.update_of_ne hi] using h
    · exact h

@[simp] theorem enAcceptQueue_synQueue (q : Queues) (sock : TjuTcp) :
    (enAcceptQueue q sock).synQueue = q.synQueue := by
  unfold enAcceptQueue; dsimp only; split_ifs <;> rfl

/-- The slot of the socket is taken afterwards, by the socket itself only if it was free. -/
theorem enAcceptQueue_slot (q : Queues) (sock : TjuTcp) (i : ℤ) :
    (enAcceptQueue q sock).acceptQueue i = q.acceptQueue i ∨
      i = sockHash sock ∧ q.acceptQueue i = none ∧ (enAcceptQueue q sock).acceptQueue i = some sock := by
  unfold enAcceptQueue
  dsimp only
  split_ifs with h
  · by_cases hi : i = sockHash sock
    · subst hi
      exact Or.inr ⟨rfl, Option.isNone_iff_eq_none.1 h, Function.update_self ..⟩
    · exact Or.inl (Function.update_of_ne hi ..)
  · exact Or.inl rfl

/-- `get_from_accept` takes the socket out of one slot. -/
theorem getFromAccept_eq_some (h : getFromAccept q = (q', some sock)) :
    ∃ i : ℤ, q.acceptQueue i = some sock ∧
      q'.acceptQueue = Function.update q.acceptQueue i none := by
  unfold getFromAccept at h
  split at h
  · next i _ =>
    obtain ⟨rfl, h2⟩ := Prod.mk.inj h
    exact ⟨i, h2, rfl⟩
  · cases h

/-- The handler answers a SYN, and nothing else. -/
theorem handleListen_out (now : ℕ) (l : TjuTcp) (q : Queues) (pkt : Buf) :
    (handleListen now l q pkt).2 = if getFlags pkt = synFlagMask then [synAckPacket pkt] else [] := by
  unfold handleListen
  split_ifs with h1 h2
  · rfl
  · split <;> rfl
  · rfl

/-- A half-open socket was there before, or is the new one for a SYN. -/
theorem handleListen_half {now : ℕ} {l : TjuTcp} {i : ℤ}
    (hs : ((handleListen now l q pkt).1.synQueue i).sock = some sock) :
    (q.synQueue i).sock = some sock ∨ sock = newConn l pkt := by
  unfold handleListen at hs
  split_ifs at hs
  · exact enSynQueue_half hs
  · split at hs
    · next q' hq => exact Or.inl (getFromSyn_half (by rw [hq]; exact hs))
    · next q' t hq =>
      rw [enAcceptQueue_synQueue] at hs
      exact Or.inl (getFromSyn_half (by rw [hq]; exact hs))
  · exact Or.inl hs

/-- No half-open socket is taken for a SYN. -/
theorem listenTakes_syn (h : getFlags pkt = synFlagMask) : listenTakes q pkt = none := by
  unfold listenTakes
  rw [if_neg]
  rintro ⟨hf, -⟩
  exact absurd (h.symm.trans hf) (by decide)

/-- **The accept queue** changes in the slot of the socket that is taken for the packet, if at all. -/
theorem handleListen_slot (now : ℕ) (l : TjuTcp) (q : Queues) (pkt : Buf) (i : ℤ) :
    (handleListen now l q pkt).1.acceptQueue i = q.acceptQueue i ∨
      ∃ sock, listenTakes q pkt = some sock ∧ i = sockHash sock ∧ q.acceptQueue i = none ∧
        (handleListen now l q pkt).1.acceptQueue i = some { sock with state := .established } := by
  obtain ⟨hkeep, -⟩ := getFromSyn_cases q pkt
  unfold handleListen listenTakes
  split_ifs with h1 h2 h2
  · exact absurd (h1.symm.trans h2.1) (by decide)
  · exact Or.inl (by rw [enSynQueue_acceptQueue])
  · split
    · next q' hq => rw [hq] at hkeep; exact Or.inl (by rw [hkeep])
    · next q' sock hq =>
      rw [hq] at hkeep
      rcases enAcceptQueue_slot q' { sock with state := .established } i with h | ⟨hi, hn, hs⟩
      · exact Or.inl (by rw [h, hkeep])
      · exact Or.inr ⟨sock, by rw [hq], hi, by rw [← hkeep]; exact hn, hs⟩
  · exact Or.inl rfl

end Tju
