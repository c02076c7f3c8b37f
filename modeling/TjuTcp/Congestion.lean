/-
  The congestion control of a sender, in every run.

  Of a step of the process the congestion control sees an ACK (`ackWindow`), a
  timeout (`timeoutWindow`), or nothing (`WndStep`); so what these two keep holds
  of every window that is reached (`window_inv`).

  * `CongInv`: the window is the smaller one of `cwnd` and `rwnd`, and the status
    is one of the three that the handler tells apart;
  * `SlowStartInv`: in slow start `cwnd` is one segment, or below the threshold;
  * `cwnd_grows`: when an ACK for new data does not lower `cwnd`.
-/
import TjuTcp.SendCursors
import TjuTcp.Window

namespace Tju

open Lib

/-! ## ACKs and timeouts -/

/-- `dupAck`, on the send window. -/
def dupWindow (w : SenderWindow) : SenderWindow :=
  let w := countDup w
  if w.sameAckCnt = 3 ∧ w.windowStatus ≠ .fastRecovery then
    { w with
      ssthresh := w.cwnd >>> 1
      cwnd := w.cwnd >>> 1
      windowStatus := .fastRecovery }.refresh
  else w.refresh

/-- An ACK with the number `ack` that advertises `adv`, on the send window, as far as it concerns
    the congestion control. -/
def ackWindow (w : SenderWindow) (ack : BitVec 32) (adv : BitVec 16) : SenderWindow :=
  let w := { w with rwnd := adv.setWidth 32 }
  if ack < w.base then w.refresh
  else if ack = w.base then dupWindow w
  else (growCwnd { w with sameAckCnt := 0 }).refresh

/-- The ACK that is handled in a step. -/
def ackOf (h : Host) : SockEv → Option Buf
  | .packet _ pkt =>
    if h.sock.state = .established ∧ getFlags pkt = ackFlagMask then some pkt else none
  | _ => none

/-- What a step leaves of the send window `w`. -/
inductive WndStep (h : Host) (e : SockEv) (w' : SenderWindow) : Prop
  | ack (pkt : Buf) : ackOf h e = some pkt →
      SameWindow (ackWindow h.sock.wndSend (getAck pkt) (getAdvertisedWindow pkt)) w' →
      WndStep h e w'
  | timeout : ackOf h e = none → SameWindow (timeoutWindow h.sock.wndSend) w' → WndStep h e w'
  | same : ackOf h e = none → SameWindow h.sock.wndSend w' → WndStep h e w'

variable {h h' : Host} {e : SockEv} {pkt : Buf} {now : ℕ} {v w : SenderWindow}

theorem dupAck_wndSend (h : Host) : (dupAck h).sock.wndSend = dupWindow h.sock.wndSend := by
  unfold dupAck dupWindow
  dsimp only
  split_ifs <;> rfl

section
variable (hfr : w.windowStatus ≠ .fastRecovery) (hst : w.windowStatus ≠ .timeout)

include hfr hst in
theorem countDup_counts : countDup w = { w with sameAckCnt := w.sameAckCnt + 1 } := by
  unfold countDup
  cases hs : w.windowStatus with
  | slowStart => rfl
  | congestionAvoidance => rfl
  | fastRecovery => exact absurd hs hfr
  | timeout => exact absurd hs hst

include hfr hst in
/-- An ACK that is not the third one for `base` is counted. -/
theorem dupWindow_counts (hcnt : w.sameAckCnt ≠ 2) :
    dupWindow w = ({ w with sameAckCnt := w.sameAckCnt + 1 } : SenderWindow).refresh := by
  unfold dupWindow
  rw [countDup_counts hfr hst]
  refine if_neg fun h => hcnt ?_
  have h3 : w.sameAckCnt + 1 = 3 := h.1
  bv_omega

include hfr hst in
/-- The third one starts a fast retransmission. -/
theorem dupWindow_third (hcnt : w.sameAckCnt = 2) : dupWindow w =
    ({ w with
      sameAckCnt := w.sameAckCnt + 1
      ssthresh := w.cwnd >>> 1
      cwnd := w.cwnd >>> 1
      windowStatus := .fastRecovery } : SenderWindow).refresh := by
  unfold dupWindow
  rw [countDup_counts hfr hst]
  refine if_pos ⟨?_, hfr⟩
  show w.sameAckCnt + 1 = 3
  rw [hcnt]
  rfl

end

/-- In fast recovery an ACK for `base` opens the congestion window. -/
theorem dupWindow_recovery (hfr : w.windowStatus = .fastRecovery) : dupWindow w =
    ({ w with cwnd := w.cwnd + BitVec.ofNat 32 maxDlen } : SenderWindow).refresh := by
  have hcount : countDup w = { w with cwnd := w.cwnd + BitVec.ofNat 32 maxDlen } := by
    unfold countDup
    rw [hfr]
  unfold dupWindow
  rw [hcount]
  exact if_neg fun h => h.2 hfr

/-- **The handler on an ACK** does to the congestion control what `ackWindow` does. -/
theorem handleAck_window (he : handleAck now h pkt = some h') :
    SameWindow (ackWindow h.sock.wndSend (getAck pkt) (getAdvertisedWindow pkt))
      h'.sock.wndSend := by
  unfold handleAck at he
  unfold ackWindow
  simp only [Option.bind_eq_bind, Option.bind_some] at he
  dsimp only at he ⊢
  split_ifs at he ⊢ with hlt heq
  · cases he
    rw [zeroWindow_wndSend]
    exact SameWindow.refl _
  · cases he
    rw [zeroWindow_wndSend, dupAck_wndSend]
    exact SameWindow.refl _
  · obtain ⟨h₁, ha, he⟩ := Option.bind_eq_some_iff.1 he
    cases he
    rw [zeroWindow_wndSend]
    exact (newAck_window ha).1

theorem retransThread_window {out : List Buf} (he : retransThread h = some (h', out)) :
    h'.sock.wndSend = timeoutWindow h.sock.wndSend ∨ h'.sock.wndSend = h.sock.wndSend := by
  unfold retransThread at he
  split_ifs at he
  · cases he; exact Or.inr rfl
  · cases he; exact Or.inr rfl
  · cases he; exact Or.inr rfl
  · rw [retransmit_wndSend he]
    split_ifs
    · exact Or.inl rfl
    · exact Or.inr rfl
  · cases he; exact Or.inr rfl

theorem sendingThread_window (now : ℕ) (h : Host) :
    SameWindow h.sock.wndSend (sendingThread now h).1.sock.wndSend := by
  unfold sendingThread
  split
  · exact sendBatch_window ..
  · exact SameWindow.refl _

/-- **One step.** -/
theorem sockStep_window (he : sockStep h e = some h') : WndStep h e h'.sock.wndSend := by
  cases e with
  | append data =>
    obtain ⟨sock', ha, rfl⟩ := Option.map_eq_some_iff.1 he
    obtain ⟨-, rfl⟩ := appendData_eq_some ha
    exact .same rfl (SameWindow.refl _)
  | sendPass now => cases he; exact .same rfl (sendingThread_window now h)
  | retransPass =>
    obtain ⟨⟨t, out⟩, ht, rfl⟩ := Option.map_eq_some_iff.1 he
    rcases retransThread_window ht with hw | hw
    · exact .timeout rfl (hw ▸ SameWindow.refl _)
    · exact .same rfl (hw ▸ SameWindow.refl _)
  | alarm => cases he; exact .same rfl (SameWindow.refl _)
  | packet now pkt =>
    obtain ⟨⟨t, out⟩, ht, rfl⟩ := Option.map_eq_some_iff.1 he
    by_cases hack : h.sock.state = .established ∧ getFlags pkt = ackFlagMask
    · rw [handle_ack hack.1 hack.2] at ht
      obtain ⟨t', ha, hr⟩ := Option.map_eq_some_iff.1 ht
      cases hr
      exact .ack pkt (if_pos hack) (handleAck_window ha)
    · rcases handle_sending ht with ⟨-, hsame⟩ | ⟨hs, hf, -⟩
      · exact .same (if_neg hack) (hsame ▸ SameWindow.refl _)
      · exact absurd ⟨hs, hf⟩ hack
  | recv len =>
    simp only [sockStep] at he
    split_ifs at he
    obtain ⟨⟨sock', bytes⟩, hr, rfl⟩ := Option.map_eq_some_iff.1 he
    obtain ⟨-, rfl, -⟩ := tjuRecv_eq_some hr
    exact .same rfl (SameWindow.refl _)

/-- **The invariant rule.**  What ACKs and timeouts keep holds of every window reached. -/
theorem window_inv {I : SenderWindow → Prop} {a b : TjuSockAddr}
    (hcongr : ∀ {v w}, I v → SameWindow v w → I w) (hinit : I .init)
    (hack : ∀ w ack adv, I w → I (ackWindow w ack adv)) (htimeout : ∀ w, I w → I (timeoutWindow w))
    (hr : Reach sockStep (establishedHost a b) h) : I h.sock.wndSend := by
  refine hr.inv (I := fun h => I h.sock.wndSend) hinit fun h e h' hi _ he => ?_
  cases sockStep_window he with
  | ack pkt _ hw => exact hcongr (hack _ _ _ hi) hw
  | timeout _ hw => exact hcongr (htimeout _ hi) hw
  | same _ hw => exact hcongr hi hw

/-! ## The size and the status -/

structure CongInv (w : SenderWindow) : Prop where
  windowSize : w.windowSize = cmin w.cwnd w.rwnd
  windowStatus : w.windowStatus ≠ .timeout

theorem CongInv.congr (hv : CongInv v) (hs : SameWindow v w) : CongInv w := by
  refine ⟨?_, ?_⟩
  · rw [hs.windowSize, hs.cwnd, hs.rwnd]; exact hv.windowSize
  · rw [hs.windowStatus]; exact hv.windowStatus

theorem dupWindow_size (w : SenderWindow) :
    (dupWindow w).windowSize = cmin (dupWindow w).cwnd (dupWindow w).rwnd := by
  unfold dupWindow
  dsimp only
  split_ifs <;> rfl

theorem dupWindow_rwnd (w : SenderWindow) : (dupWindow w).rwnd = w.rwnd := by
  have hc := countDup_rwnd w
  unfold dupWindow
  dsimp only
  split_ifs <;> exact hc

theorem dupWindow_status (hw : w.windowStatus ≠ .timeout) :
    (dupWindow w).windowStatus ≠ .timeout := by
  have hc := countDup_status w
  unfold dupWindow
  dsimp only
  split_ifs
  · exact WindowStatus.noConfusion
  · rw [← hc] at hw; exact hw

theorem ackWindow_size (w : SenderWindow) (ack : BitVec 32) (adv : BitVec 16) :
    (ackWindow w ack adv).windowSize = cmin (ackWindow w ack adv).cwnd (ackWindow w ack adv).rwnd := by
  unfold ackWindow
  dsimp only
  split_ifs
  · rfl
  · exact dupWindow_size _
  · rfl

/-- Every ACK, whatever its number, leaves the window that it advertises. -/
theorem ackWindow_rwnd (w : SenderWindow) (ack : BitVec 32) (adv : BitVec 16) :
    (ackWindow w ack adv).rwnd = adv.setWidth 32 := by
  unfold ackWindow
  dsimp only
  split_ifs
  · rfl
  · exact dupWindow_rwnd _
  · exact growCwnd_rwnd _

theorem CongInv.ack (hw : CongInv w) (ack : BitVec 32) (adv : BitVec 16) :
    CongInv (ackWindow w ack adv) := by
  refine ⟨ackWindow_size w ack adv, ?_⟩
  have hst : ({ w with rwnd := adv.setWidth 32 } : SenderWindow).windowStatus ≠ .timeout :=
    hw.windowStatus
  unfold ackWindow
  dsimp only
  split_ifs
  · exact hst
  · exact dupWindow_status hst
  · exact growCwnd_status (w := { w with rwnd := adv.setWidth 32, sameAckCnt := 0 }) hst

theorem timeoutWindow_congInv (w : SenderWindow) : CongInv (timeoutWindow w) :=
  ⟨rfl, WindowStatus.noConfusion⟩

theorem init_congInv : CongInv .init := ⟨by decide, WindowStatus.noConfusion⟩

theorem congInv_reached {a b : TjuSockAddr} (hr : Reach sockStep (establishedHost a b) h) :
    CongInv h.sock.wndSend :=
  window_inv CongInv.congr init_congInv (fun _ ack adv hw => hw.ack ack adv)
    (fun w _ => timeoutWindow_congInv w) hr

/-! ## Slow start -/

/-- The threshold is half of some `cwnd`, and slow start is left before it is passed. -/
structure SlowStartInv (w : SenderWindow) : Prop where
  ssthresh : w.ssthresh.toNat < 2 ^ 31
  cwnd : w.windowStatus = .slowStart → w.cwnd = .ofNat 32 maxDlen ∨ w.cwnd < w.ssthresh

theorem SlowStartInv.congr (hv : SlowStartInv v) (hs : SameWindow v w) : SlowStartInv w := by
  refine ⟨?_, ?_⟩
  · rw [hs.ssthresh]; exact hv.ssthresh
  · rw [hs.windowStatus, hs.cwnd, hs.ssthresh]; exact hv.cwnd

theorem half_lt (c : BitVec 32) : (c >>> 1).toNat < 2 ^ 31 := by
  rw [BitVec.toNat_ushiftRight, Nat.shiftRight_eq_div_pow]
  omega

theorem SlowStartInv.dup (hw : SlowStartInv w) : SlowStartInv (dupWindow w) := by
  unfold dupWindow
  dsimp only
  split_ifs
  · exact ⟨half_lt _, fun h => by cases h⟩
  · unfold countDup
    split
    · exact ⟨hw.ssthresh, hw.cwnd⟩
    · exact ⟨hw.ssthresh, hw.cwnd⟩
    · next hst => exact ⟨hw.ssthresh, fun h => absurd (hst.symm.trans h) (by decide)⟩
    · exact ⟨hw.ssthresh, hw.cwnd⟩

theorem SlowStartInv.grow (hw : SlowStartInv w) : SlowStartInv (growCwnd w) := by
  unfold growCwnd
  split
  · split_ifs with hge
    · exact ⟨hw.ssthresh, fun h => by cases h⟩
    · exact ⟨hw.ssthresh, fun _ => Or.inr (by simpa using hge)⟩
  · next hst => exact ⟨hw.ssthresh, fun h => absurd (hst.symm.trans h) (by decide)⟩
  · exact ⟨hw.ssthresh, fun h => by cases h⟩
  · exact hw

theorem SlowStartInv.ack (hw : SlowStartInv w) (ack : BitVec 32) (adv : BitVec 16) :
    SlowStartInv (ackWindow w ack adv) := by
  have hadv : SlowStartInv { w with rwnd := adv.setWidth 32 } := ⟨hw.ssthresh, hw.cwnd⟩
  have hnew : SlowStartInv { w with rwnd := adv.setWidth 32, sameAckCnt := 0 } :=
    ⟨hw.ssthresh, hw.cwnd⟩
  unfold ackWindow
  dsimp only
  split_ifs
  · exact ⟨hw.ssthresh, hw.cwnd⟩
  · exact hadv.dup
  · exact ⟨hnew.grow.ssthresh, hnew.grow.cwnd⟩

theorem timeoutWindow_slowStartInv (w : SenderWindow) : SlowStartInv (timeoutWindow w) :=
  ⟨half_lt w.cwnd, fun _ => Or.inl rfl⟩

theorem init_slowStartInv : SlowStartInv .init := ⟨by decide, fun _ => Or.inl rfl⟩

theorem slowStartInv_reached {a b : TjuSockAddr} (hr : Reach sockStep (establishedHost a b) h) :
    SlowStartInv h.sock.wndSend :=
  window_inv SlowStartInv.congr init_slowStartInv (fun _ ack adv hw => hw.ack ack adv)
    (fun w _ => timeoutWindow_slowStartInv w) hr

/-! ## ACKs for new data -/

/-- Slow start has not begun above the threshold, and congestion avoidance is not about to wrap. -/
structure Grows (w : SenderWindow) : Prop where
  slowStart : w.windowStatus = .slowStart → w.cwnd ≤ w.ssthresh
  congestionAvoidance : w.windowStatus = .congestionAvoidance → w.cwnd.toNat + maxDlen < 2 ^ 32

theorem growCwnd_grows_iff (hw : SlowStartInv w) (hst : w.windowStatus ≠ .timeout) :
    w.cwnd ≤ (growCwnd w).cwnd ↔ Grows w := by
  have hth := hw.ssthresh
  unfold growCwnd
  split
  · next hs =>
    have hca : w.windowStatus ≠ .congestionAvoidance := by rw [hs]; decide
    split_ifs with hge
    · exact ⟨fun h => ⟨fun _ => h, fun h' => absurd h' hca⟩, fun h => h.slowStart hs⟩
    · -- below the threshold, doubling does not wrap
      have hcwnd := hw.cwnd hs
      have hlt : w.cwnd * 2 < w.ssthresh := by simpa using hge
      simp only [maxDlen] at hcwnd
      have h1 : w.cwnd ≤ w.cwnd * 2 := by bv_omega
      have h2 : w.cwnd ≤ w.ssthresh := by bv_omega
      exact ⟨fun _ => ⟨fun _ => h2, fun h' => absurd h' hca⟩, fun _ => h1⟩
  · next hs =>
    have hss : w.windowStatus ≠ .slowStart := by rw [hs]; decide
    have hadd : w.cwnd ≤ w.cwnd + .ofNat 32 maxDlen ↔ w.cwnd.toNat + maxDlen < 2 ^ 32 := by
      simp only [maxDlen]
      bv_omega
    exact ⟨fun h => ⟨fun h' => absurd h' hss, fun _ => hadd.1 h⟩,
      fun h => hadd.2 (h.congestionAvoidance hs)⟩
  · next hs =>
    refine ⟨fun _ => ⟨fun h' => ?_, fun h' => ?_⟩, fun _ => BitVec.le_refl _⟩
    · exact absurd (hs.symm.trans h') (by decide)
    · exact absurd (hs.symm.trans h') (by decide)
  · next hs => exact absurd hs hst

/-- **The congestion window under ACKs for new data.**  In every state that the process can reach,
    an ACK for new data leaves `cwnd` at least as large as it was if and only if `Grows` holds: it
    is not in slow start with `cwnd` above the threshold, and not at the end of the 32 bits. -/
theorem cwnd_grows {a b : TjuSockAddr} {out : List Buf}
    (hr : Reach sockStep (establishedHost a b) h) (hs : h.sock.state = .established)
    (hf : getFlags pkt = ackFlagMask) (hlt : h.sock.wndSend.base < getAck pkt)
    (he : tjuHandlePacket now h pkt = some (h', out)) :
    h.sock.wndSend.cwnd ≤ h'.sock.wndSend.cwnd ↔ Grows h.sock.wndSend := by
  have hw := slowStartInv_reached hr
  have hst := (congInv_reached hr).windowStatus
  rw [handle_ack hs hf] at he
  obtain ⟨t, ha, hr⟩ := Option.map_eq_some_iff.1 he
  cases hr
  have hcwnd := (handleAck_window ha).cwnd
  unfold ackWindow at hcwnd
  dsimp only at hcwnd
  rw [if_neg (show ¬ getAck pkt < h.sock.wndSend.base by bv_omega),
    if_neg (show ¬ getAck pkt = h.sock.wndSend.base by bv_omega)] at hcwnd
  rw [hcwnd]
  let w : SenderWindow :=
    { h.sock.wndSend with rwnd := (getAdvertisedWindow pkt).setWidth 32, sameAckCnt := 0 }
  exact (growCwnd_grows_iff (w := w) ⟨hw.ssthresh, hw.cwnd⟩ hst).trans
    ⟨fun h => ⟨h.slowStart, h.congestionAvoidance⟩, fun h => ⟨h.slowStart, h.congestionAvoidance⟩⟩

/-- A process that has sent a byte, and has not waited for its ACK. -/
def sentByte : List SockEv := [.append [1], .sendPass 0]

theorem cwnd_grows_first : ∃ h h', exec sockStep clientHost sentByte = some h ∧
    tjuHandlePacket 0 h (bareAck 2) = some (h', []) ∧
    (h.sock.wndSend.cwnd ≤ h'.sock.wndSend.cwnd ↔ Grows h.sock.wndSend) := by
  obtain ⟨h, hh⟩ : ∃ h, exec sockStep clientHost sentByte = some h := ⟨_, rfl⟩
  obtain ⟨h', hh'⟩ : ∃ h', (exec sockStep clientHost sentByte).bind
    (fun h => tjuHandlePacket 0 h (bareAck 2)) = some (h', []) := ⟨_, rfl⟩
  have hs : (exec sockStep clientHost sentByte).map (fun h => h.sock.state) = some .established := by
    decide
  have hb : (exec sockStep clientHost sentByte).map (fun h => h.sock.wndSend.base) = some 1 := by
    decide
  rw [hh, Option.map_some, Option.some.injEq] at hs hb
  rw [hh, Option.bind_some] at hh'
  exact ⟨h, h', hh, hh', cwnd_grows (ReachBy.of_exec sentByte hh) hs rfl (by rw [hb]; decide) hh'⟩

/-- **The first ACK after a timeout** leaves half a segment of the window. -/
theorem cwnd_shrinks : ∃ h h',
    exec sockStep clientHost (sentByte ++ [.alarm, .retransPass]) = some h ∧
      h.sock.state = .established ∧ h.sock.wndSend.base < getAck (bareAck 2) ∧
      tjuHandlePacket 0 h (bareAck 2) = some (h', []) ∧
      ¬ h.sock.wndSend.cwnd ≤ h'.sock.wndSend.cwnd := by
  obtain ⟨h, hh⟩ : ∃ h, exec sockStep clientHost (sentByte ++ [.alarm, .retransPass]) = some h :=
    ⟨_, rfl⟩
  obtain ⟨h', hh'⟩ : ∃ h', (exec sockStep clientHost (sentByte ++ [.alarm, .retransPass])).bind
    (fun h => tjuHandlePacket 0 h (bareAck 2)) = some (h', []) := ⟨_, rfl⟩
  have hbefore : (exec sockStep clientHost (sentByte ++ [.alarm, .retransPass])).map
      (fun h => (h.sock.state, h.sock.wndSend.base, h.sock.wndSend.cwnd)) =
        some (.established, 1, 1375) := by decide
  have hafter : ((exec sockStep clientHost (sentByte ++ [.alarm, .retransPass])).bind
      (fun h => tjuHandlePacket 0 h (bareAck 2))).map (fun r => r.1.sock.wndSend.cwnd) =
        some 687 := by decide
  rw [hh', Option.map_some, Option.some.injEq] at hafter
  rw [hh, Option.map_some, Option.some.injEq, Prod.mk.injEq, Prod.mk.injEq] at hbefore
  rw [hh, Option.bind_some] at hh'
  obtain ⟨hs, hb, hc⟩ := hbefore
  exact ⟨h, h', hh, hs, by rw [hb]; decide, hh', by rw [hc, hafter]; decide⟩

end Tju
