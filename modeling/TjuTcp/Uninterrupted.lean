/-
  A thread that nothing interrupts.

  The passes of `Timer` and the handler of `Tcp` are what the statements of
  `Interleave` do, and send, when no other thread moves in between; and such a
  pass of `retrans_thread` reads the fields of one ACK.

  * `sendingThread_alone`, `retransThread_alone`: a pass of each thread;
  * `handleAck_alone`: an ACK, from its arrival to the end of the handler.
-/
import TjuTcp.Fine

namespace Tju

open Lib

variable {s : Proc} {now : ℕ} {h : Host} {out : List Buf}

/-- Only the thread of the event `e` moves, reads its fields together, and sends what follows. -/
abbrev Alone (e : ProcEv) : Proc × List Buf → Proc × List Buf → Prop :=
  ReachBy (fun t f => (procStep t.1 f).map fun p => (p, t.2 ++ procOut t.1 f))
    fun t f => f = e ∧ ReadsTogether t.1 f

/-! ## `sending_thread` -/

/-- A run of `sending_thread` alone, with the lock free for it. -/
abbrev SendRun (now : ℕ) : Host × SendAt × List Buf → Host × SendAt × List Buf → Prop :=
  Reach fun t (_ : Unit) =>
    (sendAtStep now true t.1 t.2.1).map fun r => (r.1, r.2.1, t.2.2 ++ r.2.2)

theorem SendRun.step {h h' : Host} {pc pc' : SendAt} {t : Host × SendAt × List Buf}
    {out out' : List Buf} (he : sendAtStep now true h pc = some (h', pc', out'))
    (hr : SendRun now (h', pc', out ++ out') t) : SendRun now (h, pc, out) t :=
  ReachBy.head (e := ()) trivial (congrArg (Option.map _) he) hr

/-- A statement that sends nothing. -/
theorem SendRun.silent {h h' : Host} {pc pc' : SendAt} {t : Host × SendAt × List Buf}
    {out : List Buf} (he : sendAtStep now true h pc = some (h', pc', []))
    (hr : SendRun now (h', pc', out) t) : SendRun now (h, pc, out) t :=
  SendRun.step he (by rwa [List.append_nil])

/-- The lock matters only to a thread that does not hold it. -/
theorem sendAtStep_free {h : Host} {pc : SendAt} : sendAtStep now (!pc.holds) h pc =
    sendAtStep now true h pc := by
  cases pc <;> rfl

/-- The run is one of the process. -/
theorem SendRun.alone (hf : s.retrans.holds = false) {t : Host × SendAt × List Buf}
    (hr : SendRun now (s.host, s.sender, out) t) :
    Alone (.send now) (s, out) ({ s with host := t.1, sender := t.2.1 }, t.2.2) :=
  hr.inv (I := fun t => Alone (.send now) (s, out)
      ({ s with host := t.1, sender := t.2.1 }, t.2.2)) ReachBy.refl
    fun t _ t' hi _ he => hi.tail (e := .send now) ⟨rfl, trivial⟩ (by
      obtain ⟨r, hr, rfl⟩ := Option.map_eq_some_iff.1 he
      have hfree : Proc.free { s with host := t.1, sender := t.2.1 } = !t.2.1.holds := by
        unfold Proc.free
        rw [hf]
        exact Bool.and_true _
      simp only [procStep, procOut, hfree, sendAtStep_free, hr]
      rfl)

/-- One round of the loop. -/
theorem sendRound_run {smp : Sample} {tmpLen : BitVec 32} {st : SendLoop}
    {t : Host × SendAt × List Buf} (hg : BitVec.ofInt 32 st.host.sock.haveSendLen < tmpLen)
    (hr : SendRun now ((sendRound now tmpLen smp.base st).host,
      .loop ⟨smp, tmpLen, (sendRound now tmpLen smp.base st).wndNextseq⟩,
      (sendRound now tmpLen smp.base st).out) t) :
    SendRun now (st.host, .loop ⟨smp, tmpLen, st.wndNextseq⟩, st.out) t := by
  refine SendRun.step (if_pos hg) ?_
  by_cases hb : smp.base = st.wndNextseq
  · -- the first segment of an empty window
    refine SendRun.silent (congrArg some (by rw [if_pos hb])) (SendRun.silent rfl
      (SendRun.silent rfl (SendRun.silent rfl ?_)))
    simp only [sendRound, if_pos hb] at hr
    exact hr
  · refine SendRun.silent (congrArg some (by rw [if_neg hb])) (SendRun.silent rfl ?_)
    simp only [sendRound, if_neg hb] at hr
    exact hr

/-- Any number of rounds. -/
theorem sendLoop_run {smp : Sample} {tmpLen : BitVec 32} {t : Host × SendAt × List Buf} (n : ℕ)
    (st : SendLoop) (hr : SendRun now
      ((loop (fun st : SendLoop => .ofInt 32 st.host.sock.haveSendLen < tmpLen)
        (sendRound now tmpLen smp.base) n st).host, .loop ⟨smp, tmpLen,
        (loop (fun st : SendLoop => .ofInt 32 st.host.sock.haveSendLen < tmpLen)
          (sendRound now tmpLen smp.base) n st).wndNextseq⟩,
        (loop (fun st : SendLoop => .ofInt 32 st.host.sock.haveSendLen < tmpLen)
          (sendRound now tmpLen smp.base) n st).out) t) :
    SendRun now (st.host, .loop ⟨smp, tmpLen, st.wndNextseq⟩, st.out) t := by
  induction n generalizing st with
  | zero => exact hr
  | succ n ih =>
    unfold loop at hr
    split_ifs at hr with hg
    · exact sendRound_run (of_decide_eq_true hg) (ih _ hr)
    · exact hr

/-- **A pass of `sending_thread`** that nothing interrupts. -/
theorem sendingThread_alone (hs : s.sender = .idle) (hf : s.retrans.holds = false)
    (hc : Cursors s.host.sock) : Alone (.send now) (s, [])
      ({ s with host := (sendingThread now s.host).1 }, (sendingThread now s.host).2) := by
  have h1 := hc.ack_le
  have h2 := hc.have_le
  have hrun : SendRun now (s.host, s.sender, [])
      ((sendingThread now s.host).1, .idle, (sendingThread now s.host).2) := by
    rw [hs]
    unfold sendingThread
    split
    · next smp hsmp =>
      refine SendRun.silent (congrArg (Option.map _) hsmp) (SendRun.silent rfl ?_)
      obtain ⟨st, n, hst, -, hexit⟩ := sendLoop_spec now smp
        (cmin (.ofNat 32 s.host.sock.sendingBuf.length) (smp.ackCnt + smp.windowSize))
        (show s.host.sock.haveSendLen = (s.host.sock.haveSendLen.toNat : ℕ) by omega) (by omega)
        (by
          rw [cmin_toNat]
          exact (min_le_left _ _).trans (by rw [BitVec.toNat_ofNat]; exact Nat.mod_le _ _))
        hc.len_le
      refine sendLoop_run (cmin (.ofNat 32 s.host.sock.sendingBuf.length)
        (smp.ackCnt + smp.windowSize)).toNat ⟨s.host, smp.nextseq, []⟩ ?_
      rw [hst]
      refine SendRun.silent (if_neg (BitVec.not_lt.2 hexit)) ?_
      unfold sendBatch
      dsimp only
      rw [hst]
      exact ReachBy.refl
    · exact ReachBy.refl
  have hal := hrun.alone hf
  rw [← hs] at hal
  exact hal

/-! ## `retrans_thread` -/

/-- A run of `retrans_thread` alone, with the lock free for it. -/
abbrev RetransRun : Host × RetransAt × List Buf → Host × RetransAt × List Buf → Prop :=
  Reach fun t (_ : Unit) =>
    (retransAtStep true t.1 t.2.1).map fun r => (r.1, r.2.1, t.2.2 ++ r.2.2)

theorem RetransRun.step {h h' : Host} {pc pc' : RetransAt} {t : Host × RetransAt × List Buf}
    {out out' : List Buf} (he : retransAtStep true h pc = some (h', pc', out'))
    (hr : RetransRun (h', pc', out ++ out') t) : RetransRun (h, pc, out) t :=
  ReachBy.head (e := ()) trivial (congrArg (Option.map _) he) hr

theorem RetransRun.silent {h h' : Host} {pc pc' : RetransAt} {t : Host × RetransAt × List Buf}
    {out : List Buf} (he : retransAtStep true h pc = some (h', pc', []))
    (hr : RetransRun (h', pc', out) t) : RetransRun (h, pc, out) t :=
  RetransRun.step he (by rwa [List.append_nil])

theorem retransAtStep_free {h : Host} {pc : RetransAt} : retransAtStep (!pc.holds) h pc =
    retransAtStep true h pc := by
  cases pc <;> rfl

/-- The pass has read `ack_cnt`, and `base` is still to be read. -/
def RetransAt.reading : RetransAt → Bool
  | readHave _ | readBase _ _ => true
  | _ => false

theorem retransAtStep_reading {free : Bool} {h h' : Host} {pc pc' : RetransAt}
    (he : retransAtStep free h pc = some (h', pc', out)) (hr : pc'.reading = true) :
    pc = .readAck ∨ pc.reading = true := by
  cases pc <;> simp only [retransAtStep] at he <;> (try split_ifs at he) <;> cases he <;>
    first | exact Or.inl rfl | exact Or.inr rfl | cases hr

/-- The run is one of the process, up to what the history says: while it reads, no ACK is half
    stored. -/
theorem RetransRun.alone (hf : s.sender.holds = false) (hs : s.retrans = .idle)
    (hturns : s.acked = s.based) {t : Host × RetransAt × List Buf}
    (hr : RetransRun (s.host, .idle, out) t) :
    ∃ resent seen, Alone .retrans (s, out) ({ s with
      host := t.1, retrans := t.2.1, resent := resent, seen := seen }, t.2.2) := by
  have hall := hr.inv (I := fun t => ∃ resent seen, Alone .retrans (s, out) ({ s with
      host := t.1, retrans := t.2.1, resent := resent, seen := seen }, t.2.2) ∧
      (t.2.1.reading = true → seen = s.acked)) ?_ ?_
  · obtain ⟨resent, seen, hal, -⟩ := hall
    exact ⟨resent, seen, hal⟩
  · refine ⟨s.resent, s.seen, ?_, fun h => by cases h⟩
    rw [← hs]
    exact ReachBy.refl
  · rintro t - t' ⟨resent, seen, hi, hread⟩ - he
    obtain ⟨r, hr, rfl⟩ := Option.map_eq_some_iff.1 he
    let p : Proc := { s with host := t.1, retrans := t.2.1, resent := resent, seen := seen }
    have hfree : p.free = !t.2.1.holds := by
      unfold Proc.free
      rw [hf]
      exact Bool.true_and _
    have hsame : ReadsTogether p .retrans := by
      show SameAck p t.2.1
      unfold SameAck
      split
      · next a n hpc =>
        intro _
        have hseen : seen = s.acked := hread (by rw [hpc]; rfl)
        show s.based = seen
        rw [hseen, hturns]
      · trivial
    refine ⟨(p.retransMoved r.1 r.2.1 r.2.2).resent, (p.retransMoved r.1 r.2.1 r.2.2).seen,
      hi.tail (e := .retrans) ⟨rfl, hsame⟩ ?_, fun hr' => ?_⟩
    · simp only [procStep, procOut, p, hfree, retransAtStep_free, hr]
      rfl
    · dsimp only [Proc.retransMoved, p]
      rcases retransAtStep_reading hr hr' with hpc | hpc
      · rw [hpc]
      · have hne : seen = s.acked := hread hpc
        split
        · rfl
        · exact hne

/-- One round of the loop. -/
theorem retransRound_run {haveSent : BitVec 32} {st : RetransLoop}
    {t : Host × RetransAt × List Buf}
    (hlen : haveSent.toNat ≤ st.host.sock.sendingBuf.length) (hg : st.wndAckCnt < haveSent)
    (hr : RetransRun ((retransRound haveSent st).host, .loop ⟨(retransRound haveSent st).wndAckCnt,
      haveSent, (retransRound haveSent st).wndBase⟩, (retransRound haveSent st).out) t) :
    RetransRun (st.host, .loop ⟨st.wndAckCnt, haveSent, st.wndBase⟩, st.out) t := by
  have hfit : st.wndAckCnt.toNat + (nextDlen (haveSent - st.wndAckCnt)).toNat ≤
      st.host.sock.sendingBuf.length := by
    have hmin := min_le_left (haveSent - st.wndAckCnt).toNat maxDlen
    rw [nextDlen_toNat]
    bv_omega
  refine RetransRun.step ((if_pos hg).trans (if_pos hfit)) ?_
  by_cases hb : st.wndAckCnt = st.host.sock.wndSend.ackCnt
  · -- the first segment that is not acknowledged
    refine RetransRun.silent (congrArg some (by rw [if_pos hb])) (RetransRun.silent rfl
      (RetransRun.silent rfl ?_))
    simp only [retransRound, if_pos hb] at hr
    exact hr
  · refine RetransRun.silent (congrArg some (by rw [if_neg hb])) ?_
    simp only [retransRound, if_neg hb] at hr
    exact hr

theorem retransRound_sendingBuf (haveSent : BitVec 32) (st : RetransLoop) :
    (retransRound haveSent st).host.sock.sendingBuf = st.host.sock.sendingBuf := by
  unfold retransRound
  dsimp only
  split_ifs <;> rfl

/-- Any number of rounds. -/
theorem retransLoop_run {haveSent : BitVec 32} {t : Host × RetransAt × List Buf} (n : ℕ)
    (st : RetransLoop) (hlen : haveSent.toNat ≤ st.host.sock.sendingBuf.length) (hr : RetransRun
      ((loop (fun st : RetransLoop => st.wndAckCnt < haveSent) (retransRound haveSent) n st).host,
        .loop ⟨(loop (fun st : RetransLoop => st.wndAckCnt < haveSent) (retransRound haveSent) n
          st).wndAckCnt, haveSent, (loop (fun st : RetransLoop => st.wndAckCnt < haveSent)
          (retransRound haveSent) n st).wndBase⟩,
        (loop (fun st : RetransLoop => st.wndAckCnt < haveSent) (retransRound haveSent) n
          st).out) t) :
    RetransRun (st.host, .loop ⟨st.wndAckCnt, haveSent, st.wndBase⟩, st.out) t := by
  induction n generalizing st with
  | zero => exact hr
  | succ n ih =>
    unfold loop at hr
    split_ifs at hr with hg
    · refine retransRound_run hlen (of_decide_eq_true hg) (ih _ ?_ hr)
      rw [retransRound_sendingBuf]
      exact hlen
    · exact hr

/-- **A pass of `retrans_thread`** that nothing interrupts. -/
theorem retransThread_alone {h' : Host} {out : List Buf} (hs : s.retrans = .idle)
    (hf : s.sender.holds = false) (hturns : s.acked = s.based) (hc : Cursors s.host.sock)
    (he : retransThread s.host = some (h', out)) :
    ∃ resent seen, Alone .retrans (s, [])
      ({ s with host := h', resent := resent, seen := seen }, out) := by
  have h1 := hc.ack_le
  have h2 := hc.have_le
  have h3 := hc.len_le
  simp only [maxSockBufSize, maxLen] at h3
  have hrun : RetransRun (s.host, .idle, []) (h', .idle, out) := by
    unfold retransThread at he
    split_ifs at he with hr hw hre hlt
    · cases he
      exact RetransRun.silent (if_pos hr) (RetransRun.step (if_pos hw)
        (RetransRun.silent rfl ReachBy.refl))
    · cases he
      refine RetransRun.silent (if_pos hr) (RetransRun.silent (if_neg hw) ?_)
      refine RetransRun.silent (congrArg some (by rw [if_pos hre])) (RetransRun.silent rfl ?_)
      refine RetransRun.silent (congrArg some (by rw [if_pos hlt])) (RetransRun.silent rfl ?_)
      exact RetransRun.silent rfl ReachBy.refl
    · cases he
      refine RetransRun.silent (if_pos hr) (RetransRun.silent (if_neg hw) ?_)
      refine RetransRun.silent (congrArg some (by rw [if_pos hre])) (RetransRun.silent rfl ?_)
      exact RetransRun.silent (congrArg some (by rw [if_neg hlt])) ReachBy.refl
    · -- the lock is taken, and the three fields are read
      refine RetransRun.silent (if_pos hr) (RetransRun.silent (if_neg hw) ?_)
      refine RetransRun.silent (congrArg some (by rw [if_neg hre])) (RetransRun.silent rfl ?_)
      refine RetransRun.silent rfl (RetransRun.silent rfl (RetransRun.silent rfl
        (RetransRun.silent rfl ?_)))
      set sock : TjuTcp :=
        if s.host.timeoutFlag then { s.host.sock with wndSend := timeoutWindow s.host.sock.wndSend }
        else s.host.sock with hsock
      have hlocked : (if s.host.timeoutFlag then { s.host with sock :=
          { s.host.sock with wndSend := timeoutWindow s.host.sock.wndSend } } else s.host) =
          { s.host with sock := sock } := by
        rw [hsock]; split_ifs <;> rfl
      have hsame : SameCursors s.host.sock sock := by
        rw [hsock]; split_ifs <;> exact ⟨rfl, rfl, rfl, rfl, rfl⟩
      rw [hlocked]
      have hbound : (BitVec.ofInt 32 sock.haveSendLen).toNat ≤ sock.sendingBuf.length := by
        rw [hsame.haveSendLen, hsame.sendingBuf]
        bv_omega
      obtain ⟨st, hst, hi⟩ := retransLoop_spec (h := { s.host with sock := sock })
        (.ofInt 32 sock.haveSendLen) hbound (by
          show sock.wndSend.ackCnt.toNat ≤ _
          rw [hsame.ackCnt, hsame.haveSendLen]
          bv_omega)
      refine retransLoop_run (BitVec.ofInt 32 sock.haveSendLen).toNat
        ⟨{ s.host with sock := sock }, sock.wndSend.ackCnt, sock.wndSend.base, []⟩ hbound ?_
      rw [hst]
      have hexit : ¬ st.wndAckCnt < .ofInt 32 sock.haveSendLen := by
        have := hi.ackCnt
        bv_omega
      refine RetransRun.silent (if_neg hexit) (RetransRun.silent rfl ?_)
      unfold retransmit at he
      simp only [← hsock, hst] at he
      split_ifs at he
      cases he
      exact ReachBy.refl
    · cases he
      exact ReachBy.refl
  obtain ⟨resent, seen, hal⟩ := hrun.alone hf hs hturns
  rw [← hs] at hal
  exact ⟨resent, seen, hal⟩

/-! ## `tju_handle_packet` -/

/-- A run of the handler alone, with the lock free for it. -/
abbrev HandleRun : Host × HandleAt → Host × HandleAt → Prop :=
  Reach fun t (_ : Unit) => handleAtStep true t.1 t.2

theorem HandleRun.step {h h' : Host} {pc pc' : HandleAt} {t : Host × HandleAt}
    (he : handleAtStep true h pc = some (h', pc')) (hr : HandleRun (h', pc') t) :
    HandleRun (h, pc) t :=
  ReachBy.head (e := ()) trivial he hr

/-- The run is one of the process, up to what the history says. -/
theorem HandleRun.alone (hf : s.free = true) {t : Host × HandleAt}
    (hr : HandleRun (s.host, s.handler) t) :
    ∃ dropped acked based, Alone .handle (s, out) ({ s with
      host := t.1, handler := t.2, dropped := dropped, acked := acked, based := based }, out) :=
  hr.inv (I := fun t => ∃ dropped acked based, Alone .handle (s, out) ({ s with
      host := t.1, handler := t.2, dropped := dropped, acked := acked, based := based }, out))
    ⟨_, _, _, ReachBy.refl⟩ fun t _ t' hi _ he => by
      obtain ⟨dropped, acked, based, hi⟩ := hi
      let s' := Proc.handleMoved { s with
        host := t.1, handler := t.2, dropped := dropped, acked := acked, based := based } t'.1 t'.2
      refine ⟨s'.dropped, s'.acked, s'.based, hi.tail (e := .handle) ⟨rfl, trivial⟩ ?_⟩
      have hfree : Proc.free { s with
          host := t.1, handler := t.2, dropped := dropped, acked := acked, based := based } =
          true := hf
      simp only [procStep, procOut, List.append_nil, hfree, he]
      rfl

/-- The end of the handler. -/
theorem zeroWindow_run {t : Host × HandleAt} (hr : HandleRun (zeroWindow h, .idle) t) :
    HandleRun (h, .zero) t := by
  unfold zeroWindow at hr
  split_ifs at hr with hw
  · refine HandleRun.step (congrArg some (by rw [if_pos hw])) ?_
    exact HandleRun.step rfl (HandleRun.step rfl hr)
  · exact HandleRun.step (congrArg some (by rw [if_neg hw])) hr

/-- The clean-up. -/
theorem cleanSendBuf_run {sock : TjuTcp} {t : Host × HandleAt}
    (hcl : cleanSendBuf h.sock = some sock) (hr : HandleRun ({ h with sock := sock }, .zero) t) :
    HandleRun (h, .cleanTest) t := by
  by_cases hc : cleans h.sock
  · have hd : dropAcked h.sock = some sock := (if_pos hc).symm.trans hcl
    refine HandleRun.step (congrArg some (by rw [if_pos hc])) ?_
    exact HandleRun.step (congrArg (Option.map _) hd) hr
  · have hd : some h.sock = some sock := (if_neg hc).symm.trans hcl
    cases hd
    exact HandleRun.step (congrArg some (by rw [if_neg hc])) hr

/-- The arrival of an ACK, and what follows. -/
theorem handleAck_run {h' : Host} {pkt : Buf} (he : handleAck now h pkt = some h') :
    HandleRun (ackArrives now h pkt) (h', .idle) := by
  unfold handleAck at he
  simp only [Option.bind_eq_bind, Option.bind_some] at he
  unfold ackArrives
  dsimp only
  split_ifs at he ⊢ with hlt heq hdup
  · cases he
    exact zeroWindow_run ReachBy.refl
  · cases he
    refine HandleRun.step rfl (HandleRun.step rfl (zeroWindow_run ?_))
    unfold dupAck
    rw [if_pos hdup]
    exact ReachBy.refl
  · cases he
    refine zeroWindow_run ?_
    unfold dupAck
    rw [if_neg hdup]
    exact ReachBy.refl
  · obtain ⟨h₁, hn, he⟩ := Option.bind_eq_some_iff.1 he
    cases he
    unfold newAck at hn
    simp only [Option.bind_eq_bind] at hn
    obtain ⟨sock, hcl, hn⟩ := Option.bind_eq_some_iff.1 hn
    cases hn
    refine HandleRun.step rfl (HandleRun.step rfl ?_)
    split_ifs at hcl ⊢ with hb
    · refine HandleRun.step (congrArg some (by rw [if_pos hb])) ?_
      exact HandleRun.step rfl (HandleRun.step rfl
        (cleanSendBuf_run hcl (zeroWindow_run ReachBy.refl)))
    · refine HandleRun.step (congrArg some (by rw [if_neg hb])) ?_
      exact HandleRun.step rfl (HandleRun.step rfl
        (cleanSendBuf_run hcl (zeroWindow_run ReachBy.refl)))

/-- **An ACK**, from its arrival to the end of the handler, that nothing interrupts. -/
theorem handleAck_alone {h' : Host} {pkt : Buf} (hs : s.handler = .idle) (hf : s.free = true)
    (hest : s.host.sock.state = .established) (hfl : getFlags pkt = ackFlagMask)
    (he : handleAck now s.host pkt = some h') :
    ∃ s' dropped acked based, procStep s (.packet now pkt) = some s' ∧
      Alone .handle (s', []) ({ s with
        host := h', dropped := dropped, acked := acked, based := based }, []) := by
  have hstep : procStep s (.packet now pkt) = some { s with
      host := (ackArrives now s.host pkt).1, handler := (ackArrives now s.host pkt).2 } := by
    simp only [procStep, hs, if_pos (And.intro hest hfl)]
  let s' : Proc := { s with
    host := (ackArrives now s.host pkt).1, handler := (ackArrives now s.host pkt).2 }
  have hal : ∃ dropped acked based, Alone .handle (s', []) ({ s with
      host := h', handler := .idle, dropped := dropped, acked := acked, based := based }, []) :=
    HandleRun.alone (s := s') hf (handleAck_run he)
  obtain ⟨dropped, acked, based, hal⟩ := hal
  rw [← hs] at hal
  exact ⟨_, dropped, acked, based, hstep, hal⟩

end Tju
