/-
  The three threads of a connection, statement by statement.

  In `Socket` a pass of a thread is one step.  Here `sending_thread`,
  `retrans_thread` and `tju_handle_packet` (on an ACK, in ESTABLISHED) each
  stand at a place in their code, and a step moves one of them to its next
  place: a segment sent, a call of `startTimer` or `stopTimer`, a write of a
  variable that another thread reads, a read of one that another thread
  writes, or a test.  A SIGALRM may come between any two of these steps.

  * `sendAtStep`, `retransAtStep`, `handleAtStep`: the code of each thread,
    from one place to the next;
  * `procStep`: one step of the process, with what happened so far as history.
-/
import TjuTcp.Socket

namespace Tju

open Lib

/-! ## `sending_thread` -/

/-- The local variables of a pass of `sending_thread`. -/
structure SendVars where
  smp : Sample
  tmpLen : BitVec 32
  wndNextseq : BitVec 32

/-- Where `sending_thread` is.  From `loop` on it holds `send_lock`. -/
inductive SendAt where
  | idle
  | sampled (smp : Sample)
  | loop (v : SendVars)
  /-- a segment of `dlen` bytes is sent -/
  | sent (v : SendVars) (dlen : BitVec 32)
  /-- before `startTimer` -/
  | start (v : SendVars) (dlen : BitVec 32)
  /-- before `is_retransing = TRUE` -/
  | mark (v : SendVars) (dlen : BitVec 32)
  /-- before the update of `have_send_len` and `wnd_nextseq` -/
  | count (v : SendVars) (dlen : BitVec 32)

/-- The thread holds `send_lock`. -/
def SendAt.holds : SendAt → Bool
  | idle | sampled _ => false
  | _ => true

/-- The next statement of `sending_thread`; `free` tells whether `send_lock` is free. -/
def sendAtStep (now : ℕ) (free : Bool) (h : Host) : SendAt → Option (Host × SendAt × List Buf)
  | .idle => (sendSample h).map fun smp => (h, .sampled smp, [])
  | .sampled smp =>
    if free then
      some (h, .loop ⟨smp, cmin (.ofNat 32 h.sock.sendingBuf.length) (smp.ackCnt + smp.windowSize),
        smp.nextseq⟩, [])
    else none
  | .loop v =>
    if .ofInt 32 h.sock.haveSendLen < v.tmpLen then
      let dlen := nextDlen (v.tmpLen - .ofInt 32 h.sock.haveSendLen)
      let data := (h.sock.sendingBuf.drop h.sock.haveSendLen.toNat).take dlen.toNat
      let w := startSample now (v.wndNextseq + dlen) h.sock.wndSend
      some ({ h with sock := { h.sock with wndSend := w } }, .sent v dlen,
        sendToLayer3 (dataPacket h.sock v.wndNextseq data) (20 + dlen.toNat))
    else
      -- `nextseq` is published, and the lock released
      let w := { h.sock.wndSend with nextseq := v.wndNextseq }
      some ({ h with sock := { h.sock with wndSend := w } }, .idle, [])
  | .sent v dlen =>
    some (h, if v.smp.base = v.wndNextseq then .start v dlen else .count v dlen, [])
  | .start v dlen => some (startTimer h, .mark v dlen, [])
  | .mark v dlen => some ({ h with sock := { h.sock with isRetransing := true } }, .count v dlen, [])
  | .count v dlen =>
    some ({ h with sock := { h.sock with haveSendLen := h.sock.haveSendLen + dlen.toNat } },
      .loop { v with wndNextseq := v.wndNextseq + dlen }, [])

/-! ## `retrans_thread` -/

/-- The local variables of a retransmission pass. -/
structure RetransVars where
  wndAckCnt : BitVec 32
  haveSent : BitVec 32
  wndBase : BitVec 32

/-- The variables after a segment of `dlen` bytes. -/
def RetransVars.next (v : RetransVars) (dlen : BitVec 32) : RetransVars :=
  { v with wndAckCnt := v.wndAckCnt + dlen, wndBase := v.wndBase + dlen }

/-- Where `retrans_thread` is.  From `locked` on it holds `send_lock`. -/
inductive RetransAt where
  | idle
  /-- `RETRANS` was found TRUE -/
  | woken
  /-- the probe is sent, before `startTimer` -/
  | probed
  /-- the window was found open -/
  | checked
  /-- `is_retransing` was found FALSE, before `RETRANS = FALSE` -/
  | clear
  | cleared
  /-- before `is_retransing = TRUE` -/
  | setFlag
  /-- before `RETRANS = TRUE` -/
  | setRetrans
  /-- `is_retransing` was found TRUE, before the lock is taken -/
  | want
  | locked
  | readAck
  | readHave (wndAckCnt : BitVec 32)
  | readBase (wndAckCnt haveSent : BitVec 32)
  | loop (v : RetransVars)
  | sent (v : RetransVars) (dlen : BitVec 32)
  /-- before `startTimer` -/
  | start (v : RetransVars) (dlen : BitVec 32)
  /-- before `is_retransing = TRUE` -/
  | mark (v : RetransVars) (dlen : BitVec 32)
  /-- `RETRANS` is FALSE, before `is_retransing = FALSE` -/
  | unmark

/-- The thread holds `send_lock`. -/
def RetransAt.holds : RetransAt → Bool
  | idle | woken | probed | checked | clear | cleared | setFlag | setRetrans | want => false
  | _ => true

/-- The next statement of `retrans_thread`.  A segment that is not all in `sending_buf` cannot be
    read. -/
def retransAtStep (free : Bool) (h : Host) : RetransAt → Option (Host × RetransAt × List Buf)
  | .idle => if h.retrans then some (h, .woken, []) else none
  | .woken =>
    if h.sock.wndSend.windowSize = 0 then some (h, .probed, sendToLayer3 (probePacket h.sock) 20)
    else some (h, .checked, [])
  | .probed => some (startTimer h, .idle, [])
  | .checked => some (h, if h.sock.isRetransing = false then .clear else .want, [])
  | .clear => some ({ h with retrans := false }, .cleared, [])
  | .cleared =>
    some (h, if h.sock.wndSend.ackCnt < .ofInt 32 h.sock.haveSendLen then .setFlag else .idle, [])
  | .setFlag => some ({ h with sock := { h.sock with isRetransing := true } }, .setRetrans, [])
  | .setRetrans => some ({ h with retrans := true }, .idle, [])
  | .want => if free then some (h, .locked, []) else none
  | .locked =>
    some (if h.timeoutFlag then
        { h with sock := { h.sock with wndSend := timeoutWindow h.sock.wndSend } }
      else h, .readAck, [])
  | .readAck => some (h, .readHave h.sock.wndSend.ackCnt, [])
  | .readHave a => some (h, .readBase a (.ofInt 32 h.sock.haveSendLen), [])
  | .readBase a n => some (h, .loop ⟨a, n, h.sock.wndSend.base⟩, [])
  | .loop v =>
    if v.wndAckCnt < v.haveSent then
      let dlen := nextDlen (v.haveSent - v.wndAckCnt)
      if v.wndAckCnt.toNat + dlen.toNat ≤ h.sock.sendingBuf.length then
        let data := (h.sock.sendingBuf.drop v.wndAckCnt.toNat).take dlen.toNat
        some (h, .sent v dlen,
          sendToLayer3 (dataPacket h.sock v.wndBase data) (20 + dlen.toNat))
      else none
    else some ({ h with retrans := false }, .unmark, [])
  | .sent v dlen =>
    some (h, if v.wndAckCnt = h.sock.wndSend.ackCnt then .start v dlen else .loop (v.next dlen), [])
  | .start v dlen => some (startTimer h, .mark v dlen, [])
  | .mark v dlen =>
    some ({ h with sock := { h.sock with isRetransing := true } }, .loop (v.next dlen), [])
  | .unmark => some ({ h with sock := { h.sock with isRetransing := false } }, .idle, [])

/-! ## `tju_handle_packet` -/

/-- Where `tju_handle_packet` is, in ESTABLISHED on an ACK. -/
inductive HandleAt where
  | idle
  /-- before `is_retransing = TRUE` of a fast retransmission -/
  | fastFlag
  /-- before `RETRANS = TRUE` of a fast retransmission -/
  | fastRetrans
  /-- before the update of `ack_cnt` -/
  | slideAck (ack : BitVec 32)
  /-- before the update of `base` -/
  | slideBase (ack : BitVec 32)
  /-- before the test of `base` against `nextseq` -/
  | compare
  /-- before `stopTimer` -/
  | stop
  /-- before `is_retransing = FALSE` -/
  | stopMark
  /-- before `startTimer` -/
  | start
  /-- before `is_retransing = TRUE` -/
  | startMark
  | cleanTest
  /-- before the clean-up, which takes `send_lock` -/
  | clean
  /-- before the test for a closed window -/
  | zero
  | zeroStart
  | zeroMark

/-- What the handler does on an ACK before it touches the timer: the advertised window is stored
    and the congestion window adapted. -/
def ackArrives (now : ℕ) (h : Host) (pkt : Buf) : Host × HandleAt :=
  let w := { h.sock.wndSend with rwnd := (getAdvertisedWindow pkt).setWidth 32 }
  let update (w : SenderWindow) : Host := { h with sock := { h.sock with wndSend := w } }
  if getAck pkt < w.base then (update w.refresh, .zero)
  else if getAck pkt = w.base then
    let w := countDup w
    if w.sameAckCnt = 3 ∧ w.windowStatus ≠ .fastRecovery then
      (update { w with
        ssthresh := w.cwnd >>> 1
        cwnd := w.cwnd >>> 1
        windowStatus := .fastRecovery }, .fastFlag)
    else (update w.refresh, .zero)
  else
    (update (takeSample now (getAck pkt) (growCwnd { w with sameAckCnt := 0 }).refresh),
      .slideAck (getAck pkt))

/-- The test in front of the clean-up. -/
def cleans (sock : TjuTcp) : Prop :=
  sock.sendingBuf.length ≠ 0 ∧ (sock.wndSend.ackCnt = BitVec.ofNat 32 sock.sendingBuf.length ∨
    sock.wndSend.ackCnt > BitVec.ofNat 32 (4 * maxSockBufSize / 5))

instance (sock : TjuTcp) : Decidable (cleans sock) := inferInstanceAs (Decidable (_ ∧ _))

/-- The body of the clean-up. -/
def dropAcked (sock : TjuTcp) : Option TjuTcp :=
  if sock.wndSend.ackCnt.toNat ≤ sock.sendingBuf.length then
    some { sock with
      sendingBuf := sock.sendingBuf.drop sock.wndSend.ackCnt.toNat
      haveSendLen := (BitVec.ofInt 32 sock.haveSendLen - sock.wndSend.ackCnt).toInt
      wndSend := { sock.wndSend with ackCnt := 0 } }
  else none

/-- The next statement of `tju_handle_packet`. -/
def handleAtStep (free : Bool) (h : Host) : HandleAt → Option (Host × HandleAt)
  | .idle => none
  | .fastFlag => some ({ h with sock := { h.sock with isRetransing := true } }, .fastRetrans)
  | .fastRetrans =>
    some ({ h with retrans := true, sock := { h.sock with wndSend := h.sock.wndSend.refresh } },
      .zero)
  | .slideAck ack =>
    let w := h.sock.wndSend
    some ({ h with sock := { h.sock with wndSend :=
      { w with ackCnt := w.ackCnt + (ack - w.base) } } }, .slideBase ack)
  | .slideBase ack =>
    some ({ h with sock := { h.sock with wndSend := { h.sock.wndSend with base := ack } } },
      .compare)
  | .compare =>
    some (h, if h.sock.wndSend.base = h.sock.wndSend.nextseq then .stop else .start)
  | .stop => some (stopTimer h, .stopMark)
  | .stopMark => some ({ h with sock := { h.sock with isRetransing := false } }, .cleanTest)
  | .start => some (startTimer h, .startMark)
  | .startMark => some ({ h with sock := { h.sock with isRetransing := true } }, .cleanTest)
  | .cleanTest => some (h, if cleans h.sock then .clean else .zero)
  | .clean =>
    if free then (dropAcked h.sock).map fun sock => ({ h with sock := sock }, .zero) else none
  | .zero => some (h, if h.sock.wndSend.windowSize = 0 then .zeroStart else .idle)
  | .zeroStart => some (startTimer h, .zeroMark)
  | .zeroMark => some ({ h with sock := { h.sock with isRetransing := false } }, .idle)

/-! ## The process -/

/-- A process with the places of its threads.  The history: the stream that `tju_send` has copied
    and how much of it was cleaned up, the segments of the retransmission passes, how often
    `ack_cnt` and `base` were updated, and how often `ack_cnt` had been when a pass read it. -/
structure Proc where
  host : Host
  sender : SendAt
  retrans : RetransAt
  handler : HandleAt
  stream : List Byte
  dropped : ℕ
  resent : List Buf
  acked : ℕ
  based : ℕ
  seen : ℕ

/-- The steps of a process. -/
inductive ProcEv where
  | send (now : ℕ)
  | retrans
  | handle
  | packet (now : ℕ) (pkt : Buf)
  | alarm
  | append (data : List Byte)

/-- `send_lock` is free. -/
def Proc.free (s : Proc) : Bool := !s.sender.holds && !s.retrans.holds

/-- The process after a step of `retrans_thread`. -/
def Proc.retransMoved (s : Proc) (h : Host) (pc : RetransAt) (out : List Buf) : Proc :=
  { s with
    host := h
    retrans := pc
    resent := match s.retrans with
      | .loop _ => s.resent ++ out
      | _ => s.resent
    seen := match s.retrans with
      | .readAck => s.acked
      | _ => s.seen }

/-- The process after a step of the handler. -/
def Proc.handleMoved (s : Proc) (h : Host) (pc : HandleAt) : Proc :=
  { s with
    host := h
    handler := pc
    dropped := match s.handler with
      | .clean => s.dropped + s.host.sock.wndSend.ackCnt.toNat
      | _ => s.dropped
    acked := match s.handler with
      | .slideAck _ => s.acked + 1
      | _ => s.acked
    based := match s.handler with
      | .slideBase _ => s.based + 1
      | _ => s.based }

def procStep (s : Proc) : ProcEv → Option Proc
  | .send now =>
    (sendAtStep now s.free s.host s.sender).map fun (h, pc, _) => { s with host := h, sender := pc }
  | .retrans =>
    (retransAtStep s.free s.host s.retrans).map fun (h, pc, out) => s.retransMoved h pc out
  | .handle => (handleAtStep s.free s.host s.handler).map fun (h, pc) => s.handleMoved h pc
  | .packet now pkt =>
    match s.handler with
    | .idle =>
      if s.host.sock.state = .established ∧ getFlags pkt = ackFlagMask then
        some { s with host := (ackArrives now s.host pkt).1, handler := (ackArrives now s.host pkt).2 }
      else (tjuHandlePacket now s.host pkt).map fun r => { s with host := r.1 }
    | _ => none
  | .alarm => if s.host.timer then some { s with host := timeoutHandler s.host } else none
  | .append data =>
    if s.free then
      (appendData s.host.sock data).map fun sock =>
        { s with host := { s.host with sock := sock }, stream := s.stream ++ data }
    else none

/-- A process whose socket has just been connected. -/
def Proc.start (localAddr remoteAddr : TjuSockAddr) : Proc where
  host := establishedHost localAddr remoteAddr
  sender := .idle
  retrans := .idle
  handler := .idle
  stream := []
  dropped := 0
  resent := []
  acked := 0
  based := 0
  seen := 0

/-- The bytes of the segment that is sent but not counted yet. -/
def SendAt.inAir : SendAt → BitVec 32
  | sent _ dlen | start _ dlen | mark _ dlen | count _ dlen => dlen
  | _ => 0

/-- The number behind the last byte that `sending_thread` has sent. -/
def Proc.sentSeq (s : Proc) : BitVec 32 :=
  match s.sender with
  | .idle | .sampled _ => s.host.sock.wndSend.nextseq
  | .loop v => v.wndNextseq
  | .sent v dlen | .start v dlen | .mark v dlen | .count v dlen => v.wndNextseq + dlen

/-- The guard on a step: an ACK that arrives is stale, or acknowledges bytes that were sent. -/
def Genuine (s : Proc) : ProcEv → Prop
  | .packet _ pkt => s.host.sock.state = .established → getFlags pkt = ackFlagMask →
      getAck pkt < s.host.sock.wndSend.base ∨
        getAck pkt - s.host.sock.wndSend.base ≤ s.sentSeq - s.host.sock.wndSend.base
  | _ => True

instance (s : Proc) : DecidablePred (Genuine s)
  | .packet _ _ => inferInstanceAs (Decidable (_ → _ → _ ∨ _))
  | .send _ | .retrans | .handle | .alarm | .append _ => inferInstanceAs (Decidable True)

/-! ## What a step can do -/

section
variable {now : ℕ} {free : Bool} {h h' : Host} {pkt : Buf} {out : List Buf}

/-- `sending_thread` takes the lock only if it is free. -/
theorem sendAtStep_holds {pc pc' : SendAt} (he : sendAtStep now free h pc = some (h', pc', out))
    (hh : pc'.holds = true) : pc.holds = true ∨ free = true := by
  cases pc with
  | idle =>
    obtain ⟨smp, -, hr⟩ := Option.map_eq_some_iff.1 he
    cases hr
    cases hh
  | sampled smp =>
    cases free
    · cases he
    · exact Or.inr rfl
  | _ => exact Or.inl rfl

/-- `retrans_thread` takes the lock only if it is free. -/
theorem retransAtStep_holds {pc pc' : RetransAt}
    (he : retransAtStep free h pc = some (h', pc', out)) (hh : pc'.holds = true) :
    pc.holds = true ∨ free = true := by
  cases pc with
  | want =>
    cases free
    · cases he
    · exact Or.inr rfl
  | locked | readAck | readHave | readBase | loop | sent | start | mark | unmark => exact Or.inl rfl
  | _ =>
    simp only [retransAtStep] at he
    try split_ifs at he
    all_goals cases he; cases hh

/-- `retrans_thread` moves no cursor. -/
theorem retransAtStep_same {pc pc' : RetransAt}
    (he : retransAtStep free h pc = some (h', pc', out)) : SameCursors h.sock h'.sock := by
  cases pc <;> simp only [retransAtStep] at he <;> (try split_ifs at he) <;> cases he <;>
    exact ⟨rfl, rfl, rfl, rfl, rfl⟩

/-- Not between the two updates of the send window, nor in front of them. -/
def HandleAt.plain : HandleAt → Bool
  | slideAck _ | slideBase _ => false
  | _ => true

/-- **A step of the handler** moves `ack_cnt`, or `base`, or cleans up, or moves no cursor. -/
theorem handleAtStep_cases {pc pc' : HandleAt} (he : handleAtStep free h pc = some (h', pc')) :
    pc.plain = true ∧ pc ≠ .clean ∧ pc'.plain = true ∧ SameCursors h.sock h'.sock ∨
      (∃ ack, pc = .slideAck ack ∧ pc' = .slideBase ack ∧ h' = { h with sock := { h.sock with
        wndSend := { h.sock.wndSend with
          ackCnt := h.sock.wndSend.ackCnt + (ack - h.sock.wndSend.base) } } }) ∨
      (∃ ack, pc = .slideBase ack ∧ pc' = .compare ∧ h' = { h with sock := { h.sock with
        wndSend := { h.sock.wndSend with base := ack } } }) ∨
      (pc = .clean ∧ pc' = .zero ∧ free = true ∧ ∃ sock, dropAcked h.sock = some sock ∧
        h' = { h with sock := sock }) := by
  cases pc with
  | idle => cases he
  | slideAck ack => cases he; exact Or.inr (Or.inl ⟨ack, rfl, rfl, rfl⟩)
  | slideBase ack => cases he; exact Or.inr (Or.inr (Or.inl ⟨ack, rfl, rfl, rfl⟩))
  | clean =>
    simp only [handleAtStep] at he
    split_ifs at he with hf
    obtain ⟨sock, hd, hr⟩ := Option.map_eq_some_iff.1 he
    cases hr
    exact Or.inr (Or.inr (Or.inr ⟨rfl, rfl, hf, sock, hd, rfl⟩))
  | compare | cleanTest | zero =>
    cases he
    refine Or.inl ⟨rfl, HandleAt.noConfusion, ?_, SameCursors.refl _⟩
    split_ifs <;> rfl
  | _ => cases he; exact Or.inl ⟨rfl, HandleAt.noConfusion, rfl, ⟨rfl, rfl, rfl, rfl, rfl⟩⟩

/-- What a step of the handler does to the cursors and to the history. -/
inductive HandleMove (s s' : Proc) : Prop
  | same (hp : s.handler.plain = true) (hp' : s'.handler.plain = true)
      (hs : SameCursors s.host.sock s'.host.sock) (hd : s'.dropped = s.dropped)
      (ha : s'.acked = s.acked) (hb : s'.based = s.based)
  | slideAck (ack : BitVec 32) (hp : s.handler = .slideAck ack) (hp' : s'.handler = .slideBase ack)
      (hs : s'.host.sock = { s.host.sock with wndSend := { s.host.sock.wndSend with
        ackCnt := s.host.sock.wndSend.ackCnt + (ack - s.host.sock.wndSend.base) } })
      (hd : s'.dropped = s.dropped) (ha : s'.acked = s.acked + 1) (hb : s'.based = s.based)
  | slideBase (ack : BitVec 32) (hp : s.handler = .slideBase ack) (hp' : s'.handler = .compare)
      (hs : s'.host.sock = { s.host.sock with wndSend := { s.host.sock.wndSend with base := ack } })
      (hd : s'.dropped = s.dropped) (ha : s'.acked = s.acked) (hb : s'.based = s.based + 1)
  | clean (hp : s.handler = .clean) (hp' : s'.handler = .zero) (hf : s.free = true)
      (hs : dropAcked s.host.sock = some s'.host.sock)
      (hd : s'.dropped = s.dropped + s.host.sock.wndSend.ackCnt.toNat)
      (ha : s'.acked = s.acked) (hb : s'.based = s.based)

/-- A step of the handler leaves the other two threads where they are. -/
structure HandleFrame (s s' : Proc) : Prop where
  sender : s'.sender = s.sender
  retrans : s'.retrans = s.retrans
  stream : s'.stream = s.stream
  resent : s'.resent = s.resent
  seen : s'.seen = s.seen

theorem handle_cases {s s' : Proc} (he : procStep s .handle = some s') :
    HandleFrame s s' ∧ HandleMove s s' := by
  obtain ⟨⟨h, pc⟩, hk, hs'⟩ := Option.map_eq_some_iff.1 he
  refine ⟨by rw [← hs']; exact ⟨rfl, rfl, rfl, rfl, rfl⟩, ?_⟩
  rcases handleAtStep_cases hk with ⟨hp, hnc, hp', hsame⟩ | ⟨ack, hpc, rfl, rfl⟩ |
    ⟨ack, hpc, rfl, rfl⟩ | ⟨hpc, rfl, hf, sock, hd, rfl⟩
  · refine .same hp (by rw [← hs']; exact hp') (by rw [← hs']; exact hsame) ?_ ?_ ?_
    all_goals
      rw [← hs']
      dsimp only [Proc.handleMoved]
      split
    · next hh => exact absurd hh hnc
    · rfl
    · next hh => rw [hh] at hp; cases hp
    · rfl
    · next hh => rw [hh] at hp; cases hp
    · rfl
  all_goals simp only [Proc.handleMoved, hpc] at hs'
  · exact .slideAck ack hpc (by rw [← hs']) (by rw [← hs']) (by rw [← hs']) (by rw [← hs'])
      (by rw [← hs'])
  · exact .slideBase ack hpc (by rw [← hs']) (by rw [← hs']) (by rw [← hs']) (by rw [← hs'])
      (by rw [← hs'])
  · exact .clean hpc (by rw [← hs']) hf (by rw [← hs']; exact hd) (by rw [← hs']) (by rw [← hs'])
      (by rw [← hs'])

/-- The arrival of an ACK moves no cursor, and leaves the flags and the timer as they are. -/
theorem ackArrives_same (now : ℕ) (h : Host) (pkt : Buf) :
    SameCursors h.sock (ackArrives now h pkt).1.sock ∧
      (ackArrives now h pkt).1.retrans = h.retrans ∧ (ackArrives now h pkt).1.timer = h.timer ∧
      ((ackArrives now h pkt).2.plain = true ∨
        h.sock.wndSend.base < getAck pkt ∧ (ackArrives now h pkt).2 = .slideAck (getAck pkt)) := by
  unfold ackArrives
  dsimp only
  have hcur := countDup_cursors { h.sock.wndSend with rwnd := (getAdvertisedWindow pkt).setWidth 32 }
  simp only [SenderWindow.cursors, Prod.mk.injEq] at hcur
  obtain ⟨h1, h2, h3⟩ := hcur
  split_ifs with hlt heq
  · exact ⟨⟨rfl, rfl, rfl, rfl, rfl⟩, rfl, rfl, Or.inl rfl⟩
  · exact ⟨⟨rfl, rfl, h1, h2, h3⟩, rfl, rfl, Or.inl rfl⟩
  · exact ⟨⟨rfl, rfl, h1, h2, h3⟩, rfl, rfl, Or.inl rfl⟩
  · have hcur := takeSample_cursors now (getAck pkt) (growCwnd { h.sock.wndSend with
      rwnd := (getAdvertisedWindow pkt).setWidth 32, sameAckCnt := 0 }).refresh
    rw [refresh_cursors, growCwnd_cursors] at hcur
    simp only [SenderWindow.cursors, Prod.mk.injEq] at hcur
    obtain ⟨h1, h2, h3⟩ := hcur
    exact ⟨⟨rfl, rfl, h1, h2, h3⟩, rfl, rfl, Or.inr ⟨by bv_omega, rfl⟩⟩

/-- A packet that the handler deals with at once leaves the flags and the timer as they are. -/
theorem handle_flags (hn : ¬ (h.sock.state = .established ∧ getFlags pkt = ackFlagMask))
    (he : tjuHandlePacket now h pkt = some (h', out)) :
    SameCursors h.sock h'.sock ∧ h'.retrans = h.retrans ∧ h'.timer = h.timer := by
  cases tjuHandlePacket_cases he with
  | data _ _ hd =>
    rw [(handleData_frame hd).1]
    exact ⟨⟨rfl, rfl, rfl, rfl, rfl⟩, rfl, rfl⟩
  | ack hs hf => exact absurd ⟨hs, hf⟩ hn
  | fin | ignored | closing => exact ⟨⟨rfl, rfl, rfl, rfl, rfl⟩, rfl, rfl⟩

/-- **A packet that arrives** moves no cursor, and leaves the flags and the timer as they are. -/
theorem packet_cases {s s' : Proc} (he : procStep s (.packet now pkt) = some s') :
    s.handler = .idle ∧ s' = { s with host := s'.host, handler := s'.handler } ∧
      SameCursors s.host.sock s'.host.sock ∧ s'.host.retrans = s.host.retrans ∧
      s'.host.timer = s.host.timer ∧ (s'.handler.plain = true ∨
        s.host.sock.state = .established ∧ getFlags pkt = ackFlagMask ∧
        s.host.sock.wndSend.base < getAck pkt ∧ s'.handler = .slideAck (getAck pkt)) := by
  simp only [procStep] at he
  split at he
  · next hpc =>
    split_ifs at he with hest
    · cases he
      obtain ⟨hsame, hr, ht, hp⟩ := ackArrives_same now s.host pkt
      exact ⟨hpc, rfl, hsame, hr, ht, hp.imp_right fun hp => ⟨hest.1, hest.2, hp.1, hp.2⟩⟩
    · obtain ⟨⟨t, out⟩, ht, rfl⟩ := Option.map_eq_some_iff.1 he
      obtain ⟨hsame, hr, htm⟩ := handle_flags hest ht
      exact ⟨hpc, rfl, hsame, hr, htm, Or.inl (by rw [hpc]; rfl)⟩
  · cases he

end

/-! ## The threads among themselves -/

/-- `nextseq` is still what `sending_thread` has sampled. -/
def Published (s : Proc) : Prop :=
  match s.sender with
  | .idle => True
  | .sampled smp => smp.nextseq = s.host.sock.wndSend.nextseq
  | .loop v | .sent v _ | .start v _ | .mark v _ | .count v _ =>
    v.smp.nextseq = s.host.sock.wndSend.nextseq

/-- At most one of the threads holds `send_lock`, and `nextseq` is published by `sending_thread`
    alone. -/
structure ThreadInv (s : Proc) : Prop where
  mutex : s.sender.holds = false ∨ s.retrans.holds = false
  published : Published s

variable {s s' : Proc} {e : ProcEv}

theorem Published.congr (hp : Published s) (hs : s'.sender = s.sender)
    (hn : s'.host.sock.wndSend.nextseq = s.host.sock.wndSend.nextseq) : Published s' := by
  unfold Published
  rw [hs, hn]
  exact hp

/-- Every thread but `sending_thread` leaves the numbers of what is sent alone. -/
theorem sentSeq_congr (hs : s'.sender = s.sender)
    (hn : s'.host.sock.wndSend.nextseq = s.host.sock.wndSend.nextseq) : s'.sentSeq = s.sentSeq := by
  unfold Proc.sentSeq
  rw [hs, hn]

theorem Proc.free_iff : s.free = true ↔ s.sender.holds = false ∧ s.retrans.holds = false := by
  simp [Proc.free]

theorem dropAcked_eq_some {sock sock' : TjuTcp} (hd : dropAcked sock = some sock') :
    sock.wndSend.ackCnt.toNat ≤ sock.sendingBuf.length ∧ sock' = { sock with
      sendingBuf := sock.sendingBuf.drop sock.wndSend.ackCnt.toNat
      haveSendLen := (BitVec.ofInt 32 sock.haveSendLen - sock.wndSend.ackCnt).toInt
      wndSend := { sock.wndSend with ackCnt := 0 } } := by
  unfold dropAcked at hd
  split_ifs at hd with hle
  exact ⟨hle, (Option.some.inj hd).symm⟩

/-- The handler does not touch `nextseq`. -/
theorem handleAtStep_nextseq {free : Bool} {h h' : Host} {pc pc' : HandleAt}
    (he : handleAtStep free h pc = some (h', pc')) :
    h'.sock.wndSend.nextseq = h.sock.wndSend.nextseq := by
  rcases handleAtStep_cases he with ⟨-, -, -, hsame⟩ | ⟨ack, -, -, rfl⟩ | ⟨ack, -, -, rfl⟩ |
    ⟨-, -, -, sock, hd, rfl⟩
  · exact hsame.nextseq
  · rfl
  · rfl
  · obtain ⟨-, rfl⟩ := dropAcked_eq_some hd
    rfl

theorem published_send {now : ℕ} {free : Bool} {h h' : Host} {pc pc' : SendAt} {out : List Buf}
    (hp : Published { s with host := h, sender := pc })
    (he : sendAtStep now free h pc = some (h', pc', out)) :
    Published { s with host := h', sender := pc' } := by
  cases pc with
  | idle =>
    obtain ⟨smp, hs, hr⟩ := Option.map_eq_some_iff.1 he
    cases hr
    obtain ⟨-, -, -, -, rfl⟩ := sendSample_eq_some_iff.1 hs
    rfl
  | sampled smp =>
    simp only [sendAtStep] at he
    split_ifs at he
    cases he
    exact hp
  | loop v =>
    have hs : ∀ e, (startSample now e h.sock.wndSend).nextseq = h.sock.wndSend.nextseq := fun e => by
      unfold startSample; split_ifs <;> rfl
    simp only [sendAtStep] at he
    split_ifs at he
    · cases he
      exact Eq.trans hp (hs _).symm
    · cases he
      trivial
  | sent v dlen =>
    cases he
    split_ifs <;> exact hp
  | start v dlen | mark v dlen | count v dlen => cases he; exact hp

theorem threadInv_step (hi : ThreadInv s) (he : procStep s e = some s') : ThreadInv s' := by
  cases e with
  | send now =>
    obtain ⟨⟨h, pc, out⟩, hk, rfl⟩ := Option.map_eq_some_iff.1 he
    refine ⟨?_, published_send hi.published hk⟩
    by_cases hh : pc.holds = true
    · rcases sendAtStep_holds hk hh with hold | hfree
      · exact Or.inr (hi.mutex.resolve_left (by rw [hold]; exact Bool.noConfusion))
      · exact Or.inr (Proc.free_iff.1 hfree).2
    · exact Or.inl (Bool.not_eq_true _ ▸ hh)
  | retrans =>
    obtain ⟨⟨h, pc, out⟩, hk, rfl⟩ := Option.map_eq_some_iff.1 he
    refine ⟨?_, hi.published.congr rfl (retransAtStep_same hk).nextseq⟩
    by_cases hh : pc.holds = true
    · rcases retransAtStep_holds hk hh with hold | hfree
      · exact Or.inl (hi.mutex.resolve_right (by rw [hold]; exact Bool.noConfusion))
      · exact Or.inl (Proc.free_iff.1 hfree).1
    · exact Or.inr (Bool.not_eq_true _ ▸ hh)
  | handle =>
    obtain ⟨⟨h, pc⟩, hk, rfl⟩ := Option.map_eq_some_iff.1 he
    exact ⟨hi.mutex, hi.published.congr rfl (handleAtStep_nextseq hk)⟩
  | packet now pkt =>
    obtain ⟨-, hs', hsame, -⟩ := packet_cases he
    rw [hs']
    exact ⟨hi.mutex, hi.published.congr rfl hsame.nextseq⟩
  | alarm =>
    simp only [procStep] at he
    split_ifs at he
    cases he
    exact ⟨hi.mutex, hi.published.congr rfl rfl⟩
  | append data =>
    simp only [procStep] at he
    split_ifs at he
    obtain ⟨sock, ha, rfl⟩ := Option.map_eq_some_iff.1 he
    obtain ⟨-, rfl⟩ := appendData_eq_some ha
    exact ⟨hi.mutex, hi.published.congr rfl rfl⟩

theorem threadInv_start (a b : TjuSockAddr) : ThreadInv (.start a b) := ⟨Or.inl rfl, trivial⟩

end Tju
