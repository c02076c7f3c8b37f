/-
  What an ACK does to the sender.

  The handler first stores the advertised window and then tells three cases
  apart.  `handleAck_old`: an ACK up to `base` moves no cursor.
  `handleAck_new`: an ACK inside the send window moves `base` to its number
  and acknowledges as many bytes; the clean-up may then drop the acknowledged
  front of `sending_buf`.
-/
import TjuTcp.Send

namespace Tju

open Lib

/-- The cursors of a send window. -/
def SenderWindow.cursors (w : SenderWindow) : BitVec 32 × BitVec 32 × BitVec 32 :=
  (w.ackCnt, w.base, w.nextseq)

@[simp] theorem refresh_cursors (w : SenderWindow) : w.refresh.cursors = w.cursors := rfl

@[simp] theorem growCwnd_cursors (w : SenderWindow) : (growCwnd w).cursors = w.cursors := by
  unfold growCwnd SenderWindow.cursors
  split
  · split_ifs <;> rfl
  all_goals rfl

@[simp] theorem countDup_cursors (w : SenderWindow) : (countDup w).cursors = w.cursors := by
  unfold countDup SenderWindow.cursors; split <;> rfl

@[simp] theorem takeSample_cursors (now : ℕ) (ack : BitVec 32) (w : SenderWindow) :
    (takeSample now ack w).cursors = w.cursors := by
  unfold takeSample calTimeout SenderWindow.cursors; split_ifs <;> rfl

theorem dupAck_same (h : Host) : SameRest h.sock (dupAck h).sock ∧
    SameCursors h.sock (dupAck h).sock ∧ (dupAck h).closeAck = h.closeAck := by
  have hcur := countDup_cursors h.sock.wndSend
  simp only [SenderWindow.cursors, Prod.mk.injEq] at hcur
  obtain ⟨h1, h2, h3⟩ := hcur
  unfold dupAck
  dsimp only
  split_ifs <;> exact ⟨⟨rfl, rfl, rfl, rfl, rfl, rfl⟩, ⟨rfl, rfl, h1, h2, h3⟩, rfl⟩

theorem zeroWindow_same (h : Host) : SameRest h.sock (zeroWindow h).sock ∧
    SameCursors h.sock (zeroWindow h).sock ∧ (zeroWindow h).closeAck = h.closeAck := by
  unfold zeroWindow
  split_ifs <;> exact ⟨⟨rfl, rfl, rfl, rfl, rfl, rfl⟩, ⟨rfl, rfl, rfl, rfl, rfl⟩, rfl⟩

theorem cleanSendBuf_rest {sock sock' : TjuTcp} (he : cleanSendBuf sock = some sock') :
    SameRest sock sock' ∧ sock'.wndSend.base = sock.wndSend.base := by
  unfold cleanSendBuf at he
  dsimp only at he
  split_ifs at he <;> cases he <;> exact ⟨⟨rfl, rfl, rfl, rfl, rfl, rfl⟩, rfl⟩

/-- An ACK for new data, whatever its number, touches the sending half only and moves `base`. -/
theorem newAck_rest {now : ℕ} {h h' : Host} {ack : BitVec 32} (he : newAck now h ack = some h') :
    SameRest h.sock h'.sock ∧ h'.sock.wndSend.base = ack := by
  unfold newAck at he
  simp only [Option.bind_eq_bind] at he
  obtain ⟨sock, hcl, hn⟩ := Option.bind_eq_some_iff.1 he
  cases hn
  obtain ⟨hr, hb⟩ := cleanSendBuf_rest hcl
  refine ⟨SameRest.trans ?_ hr, hb.trans ?_⟩
  · split_ifs <;> exact ⟨rfl, rfl, rfl, rfl, rfl, rfl⟩
  · split_ifs <;> rfl

/-- An ACK, whatever its number, touches the sending half only. -/
theorem handleAck_rest {now : ℕ} {h h' : Host} {pkt : Buf} (he : handleAck now h pkt = some h') :
    SameRest h.sock h'.sock := by
  unfold handleAck at he
  simp only [Option.bind_eq_bind, Option.bind_some] at he
  split_ifs at he
  · cases he
    have hz := (zeroWindow_same { h with sock := { h.sock with wndSend :=
      { h.sock.wndSend with rwnd := (getAdvertisedWindow pkt).setWidth 32 }.refresh } }).1
    exact ⟨hz.1, hz.2, hz.3, hz.4, hz.5, hz.6⟩
  · cases he
    have hd := (dupAck_same { h with sock := { h.sock with wndSend :=
      { h.sock.wndSend with rwnd := (getAdvertisedWindow pkt).setWidth 32 } } }).1
    have hz := hd.trans (zeroWindow_same _).1
    exact ⟨hz.1, hz.2, hz.3, hz.4, hz.5, hz.6⟩
  · obtain ⟨h₁, ha, he⟩ := Option.bind_eq_some_iff.1 he
    cases he
    have hz := (newAck_rest ha).1.trans (zeroWindow_same h₁).1
    exact ⟨hz.1, hz.2, hz.3, hz.4, hz.5, hz.6⟩

/-- **An ACK up to `base`** moves no cursor. -/
theorem handleAck_old (now : ℕ) {h : Host} {pkt : Buf} (hb : getAck pkt ≤ h.sock.wndSend.base) :
    ∃ h', handleAck now h pkt = some h' ∧ SameRest h.sock h'.sock ∧ SameCursors h.sock h'.sock ∧
      h'.closeAck = h.closeAck := by
  unfold handleAck
  simp only [Option.bind_eq_bind]
  by_cases hlt : getAck pkt < h.sock.wndSend.base
  · rw [if_pos hlt]
    refine ⟨_, rfl, ?_⟩
    obtain ⟨h1, h2, h3⟩ := zeroWindow_same { h with sock := { h.sock with wndSend :=
      { h.sock.wndSend with rwnd := (getAdvertisedWindow pkt).setWidth 32 }.refresh } }
    exact ⟨⟨h1.1, h1.2, h1.3, h1.4, h1.5, h1.6⟩, ⟨h2.1, h2.2, h2.3, h2.4, h2.5⟩, h3⟩
  · have heq : getAck pkt = h.sock.wndSend.base := by bv_omega
    rw [if_neg hlt, if_pos heq]
    refine ⟨_, rfl, ?_⟩
    set h₀ : Host := { h with sock := { h.sock with wndSend :=
      { h.sock.wndSend with rwnd := (getAdvertisedWindow pkt).setWidth 32 } } }
    obtain ⟨d1, d2, d3⟩ := dupAck_same h₀
    obtain ⟨z1, z2, z3⟩ := zeroWindow_same (dupAck h₀)
    have hr := d1.trans z1
    exact ⟨⟨hr.1, hr.2, hr.3, hr.4, hr.5, hr.6⟩, ⟨z2.1.trans d2.1, z2.2.trans d2.2,
      z2.3.trans d2.3, z2.4.trans d2.4, z2.5.trans d2.5⟩, z3.trans d3⟩

/-- How many of `len` bytes in the buffer the clean-up drops, with `ack` of them acknowledged. -/
def cleaned (len ack : ℕ) : ℕ := if ack = len ∨ 4 * maxSockBufSize / 5 < ack then ack else 0

theorem cleaned_le (len ack : ℕ) : cleaned len ack ≤ ack := by
  unfold cleaned
  split_ifs <;> omega

/-- The clean-up, with `n` bytes sent, drops the acknowledged front of the buffer or nothing. -/
theorem cleanSendBuf_spec {sock : TjuTcp} {n : ℕ} (hn : sock.haveSendLen = n)
    (hle : sock.wndSend.ackCnt.toNat ≤ n) (hlen : n ≤ sock.sendingBuf.length)
    (hmax : sock.sendingBuf.length ≤ maxSockBufSize) :
    ∃ sock' c, cleanSendBuf sock = some sock' ∧ SameRest sock sock' ∧
      c = cleaned sock.sendingBuf.length sock.wndSend.ackCnt.toNat ∧
      sock'.sendingBuf = sock.sendingBuf.drop c ∧ sock'.haveSendLen = (n - c : ℕ) ∧
      sock'.wndSend.ackCnt.toNat = sock.wndSend.ackCnt.toNat - c ∧
      sock'.wndSend.base = sock.wndSend.base ∧ sock'.wndSend.nextseq = sock.wndSend.nextseq := by
  unfold cleanSendBuf
  dsimp only
  simp only [maxSockBufSize, maxLen] at hmax
  split_ifs with hcl hfit
  · have hc : sock.wndSend.ackCnt.toNat =
        cleaned sock.sendingBuf.length sock.wndSend.ackCnt.toNat := by
      simp only [maxSockBufSize, maxLen] at hcl
      exact (if_pos (by simp only [maxSockBufSize, maxLen]; bv_omega)).symm
    refine ⟨_, _, rfl, ⟨rfl, rfl, rfl, rfl, rfl, rfl⟩, hc, rfl, ?_, by simp, rfl, rfl⟩
    show (BitVec.ofInt 32 sock.haveSendLen - sock.wndSend.ackCnt).toInt = _
    have : (BitVec.ofInt 32 sock.haveSendLen - sock.wndSend.ackCnt).toNat =
        n - sock.wndSend.ackCnt.toNat := by
      rw [hn]; bv_omega
    rw [BitVec.toInt_eq_toNat_of_lt (by omega), this]
  · exact absurd (by omega) hfit
  · have hc : 0 = cleaned sock.sendingBuf.length sock.wndSend.ackCnt.toNat := by
      simp only [maxSockBufSize, maxLen] at hcl
      unfold cleaned
      split_ifs with h0
      · simp only [maxSockBufSize, maxLen] at h0
        bv_omega
      · rfl
    exact ⟨sock, 0, rfl, SameRest.refl _, hc, by simp, by simpa using hn, by simp, rfl, rfl⟩

/-- **An ACK inside the window** acknowledges up to its number: with `n` bytes sent, it moves
    `base` there, and then `c` bytes are cleaned off the front of the buffer. -/
theorem handleAck_new (now : ℕ) {h : Host} {pkt : Buf} {n : ℕ}
    (hb : h.sock.wndSend.base < getAck pkt) (hn : h.sock.haveSendLen = n)
    (hin : h.sock.wndSend.ackCnt.toNat + (getAck pkt - h.sock.wndSend.base).toNat ≤ n)
    (hlen : n ≤ h.sock.sendingBuf.length) (hmax : h.sock.sendingBuf.length ≤ maxSockBufSize) :
    ∃ h' c, handleAck now h pkt = some h' ∧ SameRest h.sock h'.sock ∧ h'.closeAck = h.closeAck ∧
      c = cleaned h.sock.sendingBuf.length
        (h.sock.wndSend.ackCnt.toNat + (getAck pkt - h.sock.wndSend.base).toNat) ∧
      h'.sock.sendingBuf = h.sock.sendingBuf.drop c ∧ h'.sock.haveSendLen = (n - c : ℕ) ∧
      h'.sock.wndSend.ackCnt.toNat =
        h.sock.wndSend.ackCnt.toNat + (getAck pkt - h.sock.wndSend.base).toNat - c ∧
      h'.sock.wndSend.base = getAck pkt ∧ h'.sock.wndSend.nextseq = h.sock.wndSend.nextseq := by
  have hmax' := hmax
  simp only [maxSockBufSize, maxLen] at hmax'
  set w₀ : SenderWindow := { h.sock.wndSend with rwnd := (getAdvertisedWindow pkt).setWidth 32 }
  set w := takeSample now (getAck pkt) (growCwnd { w₀ with sameAckCnt := 0 }).refresh with hw
  have hcur : w.cursors = h.sock.wndSend.cursors := by
    rw [hw, takeSample_cursors, refresh_cursors, growCwnd_cursors]; rfl
  simp only [SenderWindow.cursors, Prod.mk.injEq] at hcur
  obtain ⟨hc1, hc2, hc3⟩ := hcur
  -- the window slides, and the timer is stopped or started again
  set h₁ : Host := { h with sock := { h.sock with wndSend :=
    { w with ackCnt := w.ackCnt + (getAck pkt - w.base), base := getAck pkt } } } with hh₁
  set h₂ : Host := if h₁.sock.wndSend.base = h₁.sock.wndSend.nextseq then
      { stopTimer h₁ with sock := { h₁.sock with isRetransing := false } }
    else { startTimer h₁ with sock := { h₁.sock with isRetransing := true } } with hh₂
  have hack : h₂.sock.wndSend.ackCnt.toNat =
      h.sock.wndSend.ackCnt.toNat + (getAck pkt - h.sock.wndSend.base).toNat := by
    have : h₂.sock.wndSend.ackCnt = h.sock.wndSend.ackCnt + (getAck pkt - h.sock.wndSend.base) := by
      rw [← hc1, ← hc2, hh₂]; split_ifs <;> rfl
    rw [this]; bv_omega
  have hbuf : h₂.sock.sendingBuf = h.sock.sendingBuf := by rw [hh₂]; split_ifs <;> rfl
  have hhave : h₂.sock.haveSendLen = n := by rw [← hn, hh₂]; split_ifs <;> rfl
  have hrest : SameRest h.sock h₂.sock := by
    rw [hh₂]; split_ifs <;> exact ⟨rfl, rfl, rfl, rfl, rfl, rfl⟩
  have hbase : h₂.sock.wndSend.base = getAck pkt := by rw [hh₂]; split_ifs <;> rfl
  have hnext : h₂.sock.wndSend.nextseq = h.sock.wndSend.nextseq := by
    rw [← hc3, hh₂]; split_ifs <;> rfl
  have hclose : h₂.closeAck = h.closeAck := by rw [hh₂]; split_ifs <;> rfl
  obtain ⟨sock', c, hcl, hr, hcc, hb', hh', ha', hbs', hns'⟩ := cleanSendBuf_spec hhave
    (by omega) (by rw [hbuf]; exact hlen) (by rw [hbuf]; exact hmax)
  obtain ⟨z1, z2, z3⟩ := zeroWindow_same { h₂ with sock := sock' }
  refine ⟨zeroWindow { h₂ with sock := sock' }, c, ?_, (hrest.trans hr).trans z1,
    z3.trans hclose, by rw [hcc, hbuf, hack], ?_, ?_, ?_, ?_, ?_⟩
  · unfold handleAck newAck
    simp only [Option.bind_eq_bind]
    rw [if_neg (show ¬ getAck pkt < h.sock.wndSend.base by bv_omega),
      if_neg (show ¬ getAck pkt = h.sock.wndSend.base by bv_omega)]
    show (Option.bind ((cleanSendBuf h₂.sock).bind fun sock => some { h₂ with sock := sock })
      fun h => some (zeroWindow h)) = _
    rw [hcl]; rfl
  · rw [z2.sendingBuf]; exact hb'.trans (by rw [hbuf])
  · rw [z2.haveSendLen]; exact hh'
  · rw [z2.ackCnt]; exact ha'.trans (by rw [hack])
  · rw [z2.base]; exact hbs'.trans hbase
  · rw [z2.nextseq]; exact hns'.trans hnext

end Tju
