/-
  The round trip measurement of a sender.

  `SameEstimate v w`: the windows agree in the two estimators and the timeout;
  `SameRtt v w`: also in the measurement that is running.  An ACK for new data
  ends a measurement, with a sample if it is the ACK that the measurement waits
  for (`handleAck_rtt`); a batch can only start one (`sendBatch_measures`); and
  `retrans_thread` does not touch it (`retransThread_rtt`).

  * `sampleOf`: the sample that is taken in a step;
  * `sockStep_estimate`: a step changes the timeout by such a sample only.
-/
import TjuTcp.Congestion

namespace Tju

open Lib

variable {h h' : Host} {e : SockEv} {pkt : Buf} {now : ℕ} {u v w : SenderWindow}

/-- The windows agree in what `CalTimeout` sets. -/
structure SameEstimate (v w : SenderWindow) : Prop where
  estmatedRtt : w.estmatedRtt = v.estmatedRtt
  devRtt : w.devRtt = v.devRtt
  timeout : w.timeout = v.timeout

/-- The windows agree in the whole measurement. -/
structure SameRtt (v w : SenderWindow) : Prop extends SameEstimate v w where
  isEstimatingRtt : w.isEstimatingRtt = v.isEstimatingRtt
  rttExpectAck : w.rttExpectAck = v.rttExpectAck
  sendTime : w.sendTime = v.sendTime

theorem SameEstimate.refl (w : SenderWindow) : SameEstimate w w := ⟨rfl, rfl, rfl⟩

theorem SameEstimate.trans (h : SameEstimate u v) (h' : SameEstimate v w) : SameEstimate u w :=
  ⟨h'.estmatedRtt.trans h.estmatedRtt, h'.devRtt.trans h.devRtt, h'.timeout.trans h.timeout⟩

theorem SameRtt.refl (w : SenderWindow) : SameRtt w w := ⟨.refl w, rfl, rfl, rfl⟩

theorem SameRtt.trans (h : SameRtt u v) (h' : SameRtt v w) : SameRtt u w :=
  ⟨h.toSameEstimate.trans h'.toSameEstimate, h'.isEstimatingRtt.trans h.isEstimatingRtt,
    h'.rttExpectAck.trans h.rttExpectAck, h'.sendTime.trans h.sendTime⟩

/-! ## ACKs -/

theorem growCwnd_rtt (w : SenderWindow) : SameRtt w (growCwnd w) := by
  unfold growCwnd
  split
  · split_ifs <;> exact ⟨⟨rfl, rfl, rfl⟩, rfl, rfl, rfl⟩
  all_goals exact ⟨⟨rfl, rfl, rfl⟩, rfl, rfl, rfl⟩

theorem dupWindow_rtt (w : SenderWindow) : SameRtt w (dupWindow w) := by
  have hc : SameRtt w (countDup w) := by
    unfold countDup
    split <;> exact ⟨⟨rfl, rfl, rfl⟩, rfl, rfl, rfl⟩
  refine hc.trans ?_
  unfold dupWindow
  dsimp only
  split_ifs <;> exact ⟨⟨rfl, rfl, rfl⟩, rfl, rfl, rfl⟩

theorem cleanSendBuf_rtt {sock sock' : TjuTcp} (he : cleanSendBuf sock = some sock') :
    SameRtt sock.wndSend sock'.wndSend := by
  unfold cleanSendBuf at he
  dsimp only at he
  split_ifs at he <;> cases he <;> exact ⟨⟨rfl, rfl, rfl⟩, rfl, rfl, rfl⟩

theorem SameRtt.takeSample (hs : SameRtt v w) (now : ℕ) (ack : BitVec 32) :
    SameRtt (takeSample now ack v) (takeSample now ack w) := by
  obtain ⟨⟨h1, h2, h3⟩, h4, h5, h6⟩ := hs
  cases v
  cases w
  dsimp only at h1 h2 h3 h4 h5 h6
  subst h1 h2 h3 h4 h5 h6
  unfold Tju.takeSample calTimeout
  dsimp only
  split_ifs <;> exact ⟨⟨rfl, rfl, rfl⟩, rfl, rfl, rfl⟩

/-- **An ACK** ends a measurement if it is above `base`. -/
theorem handleAck_rtt (he : handleAck now h pkt = some h') :
    SameRtt (if h.sock.wndSend.base < getAck pkt then takeSample now (getAck pkt) h.sock.wndSend
      else h.sock.wndSend) h'.sock.wndSend := by
  unfold handleAck at he
  simp only [Option.bind_eq_bind, Option.bind_some] at he
  split_ifs at he with hlt heq
  · cases he
    rw [zeroWindow_wndSend, if_neg (by bv_omega)]
    exact ⟨⟨rfl, rfl, rfl⟩, rfl, rfl, rfl⟩
  · cases he
    rw [zeroWindow_wndSend, dupAck_wndSend, if_neg (by bv_omega)]
    let v : SenderWindow := { h.sock.wndSend with rwnd := (getAdvertisedWindow pkt).setWidth 32 }
    exact SameRtt.trans (v := v) ⟨⟨rfl, rfl, rfl⟩, rfl, rfl, rfl⟩ (dupWindow_rtt v)
  · obtain ⟨h₁, ha, he⟩ := Option.bind_eq_some_iff.1 he
    cases he
    rw [zeroWindow_wndSend, if_pos (by bv_omega)]
    unfold newAck at ha
    simp only [Option.bind_eq_bind] at ha
    obtain ⟨sock, hcl, hn⟩ := Option.bind_eq_some_iff.1 ha
    cases hn
    refine SameRtt.trans ?_ (cleanSendBuf_rtt hcl)
    let v : SenderWindow :=
      { h.sock.wndSend with rwnd := (getAdvertisedWindow pkt).setWidth 32, sameAckCnt := 0 }
    have hv : SameRtt h.sock.wndSend (growCwnd v).refresh :=
      SameRtt.trans (v := v) ⟨⟨rfl, rfl, rfl⟩, rfl, rfl, rfl⟩
        ((growCwnd_rtt v).trans ⟨⟨rfl, rfl, rfl⟩, rfl, rfl, rfl⟩)
    refine (hv.takeSample now (getAck pkt)).trans ?_
    split_ifs <;> exact ⟨⟨rfl, rfl, rfl⟩, rfl, rfl, rfl⟩

/-! ## The two threads -/

theorem retransThread_rtt {out : List Buf} (he : retransThread h = some (h', out)) :
    SameRtt h.sock.wndSend h'.sock.wndSend := by
  rcases retransThread_window he with hw | hw
  · rw [hw]
    exact ⟨⟨rfl, rfl, rfl⟩, rfl, rfl, rfl⟩
  · rw [hw]
    exact SameRtt.refl _

/-- What a batch at the time `now` with the numbers from `seq` on leaves of the measurement of `v`,
    once `len` bytes have been sent: it is as it was, or it has begun with one of these. -/
inductive Measures (now : ℕ) (seq : BitVec 32) (v : SenderWindow) (len : ℕ) (w : SenderWindow) : Prop
  | same : SameRtt v w → (v.isEstimatingRtt = false → len = 0) → Measures now seq v len w
  | started (d : ℕ) : v.isEstimatingRtt = false → 1 ≤ d → d ≤ len → SameEstimate v w →
      w.isEstimatingRtt = true → w.rttExpectAck = seq + .ofNat 32 d → w.sendTime = now →
      Measures now seq v len w

theorem startSample_estimate (now : ℕ) (e : BitVec 32) (w : SenderWindow) :
    SameEstimate w (startSample now e w) := by
  unfold startSample
  split_ifs <;> exact ⟨rfl, rfl, rfl⟩

theorem sendRound_wndSend (now : ℕ) (tmpLen wndBase : BitVec 32) (st : SendLoop) :
    (sendRound now tmpLen wndBase st).host.sock.wndSend =
      startSample now (st.wndNextseq + nextDlen (tmpLen - .ofInt 32 st.host.sock.haveSendLen))
        st.host.sock.wndSend := by
  unfold sendRound
  dsimp only
  split_ifs <;> rfl

theorem sendingThread_estimate (now : ℕ) (h : Host) :
    SameEstimate h.sock.wndSend (sendingThread now h).1.sock.wndSend := by
  unfold sendingThread
  split
  · next smp _ =>
    let tmpLen := cmin (.ofNat 32 h.sock.sendingBuf.length) (smp.ackCnt + smp.windowSize)
    have hl : SameEstimate h.sock.wndSend (loop (fun st : SendLoop =>
        .ofInt 32 st.host.sock.haveSendLen < tmpLen) (sendRound now tmpLen smp.base) tmpLen.toNat
        ⟨h, smp.nextseq, []⟩).host.sock.wndSend :=
      loop_inv (I := fun st : SendLoop => SameEstimate h.sock.wndSend st.host.sock.wndSend)
        (fun st hi _ => by rw [sendRound_wndSend]; exact hi.trans (startSample_estimate ..))
        tmpLen.toNat (SameEstimate.refl _)
    exact ⟨hl.1, hl.2, hl.3⟩
  · exact SameEstimate.refl _

/-- A round of the batch sends a segment, and starts a measurement with it if none is running. -/
theorem Measures.round {seq e : BitVec 32} {len d : ℕ} (hm : Measures now seq v len w) (hd : 1 ≤ d)
    (he : e = seq + .ofNat 32 (len + d)) : Measures now seq v (len + d) (startSample now e w) := by
  cases hm with
  | same hs hlen =>
    unfold startSample
    split_ifs with hidle
    · have hv : v.isEstimatingRtt = false := hs.isEstimatingRtt.symm.trans hidle
      have h0 := hlen hv
      exact .started (len + d) hv (by omega) le_rfl ⟨hs.1.1, hs.1.2, hs.1.3⟩ rfl he rfl
    · exact .same hs fun hv => absurd (hs.isEstimatingRtt.trans hv) hidle
  | started c hv h1 h2 hs hw hexp htime =>
    unfold startSample
    rw [if_neg (by rw [hw]; decide)]
    exact .started c hv h1 (by omega) hs hw hexp htime

/-- **A batch** starts a measurement with its first segment, if none is running. -/
theorem sendBatch_measures (now : ℕ) (smp : Sample) {n₀ : ℕ} (hn : h.sock.haveSendLen = n₀)
    (hn₀ : n₀ ≤ h.sock.sendingBuf.length) (hbuf : h.sock.sendingBuf.length ≤ maxSockBufSize) :
    Measures now smp.nextseq h.sock.wndSend ((sendBatch now smp h).1.sock.haveSendLen.toNat - n₀)
      (sendBatch now smp h).1.sock.wndSend := by
  unfold sendBatch
  dsimp only
  have hm : (cmin (.ofNat 32 h.sock.sendingBuf.length) (smp.ackCnt + smp.windowSize)).toNat ≤
      h.sock.sendingBuf.length := by
    simp only [maxSockBufSize, maxLen] at hbuf
    rw [cmin_toNat, BitVec.toNat_ofNat, Nat.mod_eq_of_lt (by omega)]
    omega
  generalize cmin (.ofNat 32 h.sock.sendingBuf.length) (smp.ackCnt + smp.windowSize) = tmpLen at *
  let I : SendLoop → Prop := fun st => ∃ n, SendLoopInv smp h n₀ tmpLen.toNat st n ∧
    Measures now smp.nextseq h.sock.wndSend (n - n₀) st.host.sock.wndSend
  have hstart : I ⟨h, smp.nextseq, []⟩ :=
    ⟨n₀, ⟨hn, le_rfl, by omega, by simp, .nil, SameRest.refl _, rfl, rfl, rfl, rfl⟩,
      .same (SameRtt.refl _) fun _ => by omega⟩
  obtain ⟨n, hi, hmeas⟩ := loop_inv (I := I) (fun st ⟨n, hi, hmeas⟩ hg => by
    obtain ⟨n', hlt, hi'⟩ := sendRound_inv now hn₀ hm hbuf hi (of_decide_eq_true hg)
    refine ⟨n', hi', ?_⟩
    have hnext : st.wndNextseq + nextDlen (tmpLen - .ofInt 32 st.host.sock.haveSendLen) =
      smp.nextseq + .ofNat 32 (n' - n₀) := hi'.nextseq
    have hle := hi.le
    rw [sendRound_wndSend, hnext, show n' - n₀ = n - n₀ + (n' - n) by omega]
    exact hmeas.round (by omega) rfl) tmpLen.toNat hstart
  rw [hi.have_eq, Int.toNat_natCast]
  cases hmeas with
  | same hs hlen => exact .same ⟨⟨hs.1.1, hs.1.2, hs.1.3⟩, hs.2, hs.3, hs.4⟩ hlen
  | started d hv h1 h2 hs hw hexp htime =>
    exact .started d hv h1 h2 ⟨hs.1, hs.2, hs.3⟩ hw hexp htime

/-! ## One step -/

/-- The sample that is taken in a step: the time since `send_time`, on the ACK that the measurement
    waits for. -/
def sampleOf (h : Host) : SockEv → Option ℕ
  | .packet now pkt =>
    if h.sock.state = .established ∧ getFlags pkt = ackFlagMask ∧
        h.sock.wndSend.base < getAck pkt ∧ h.sock.wndSend.isEstimatingRtt = true ∧
        h.sock.wndSend.rttExpectAck = getAck pkt then
      some (now - h.sock.wndSend.sendTime)
    else none
  | _ => none

/-- The window after `CalTimeout` with the sample `s`. -/
def SenderWindow.sampled (w : SenderWindow) (s : ℕ) : SenderWindow := calTimeout (w.sendTime + s) w

theorem calTimeout_eq (now : ℕ) (w : SenderWindow) :
    calTimeout now w = w.sampled (now - w.sendTime) := by
  unfold SenderWindow.sampled calTimeout
  rw [Nat.add_sub_cancel_left]

theorem sampleOf_packet (now : ℕ) (hack : h.sock.state = .established ∧ getFlags pkt = ackFlagMask) :
    sampleOf h (.packet now pkt) =
      if h.sock.wndSend.base < getAck pkt ∧ h.sock.wndSend.isEstimatingRtt = true ∧
        h.sock.wndSend.rttExpectAck = getAck pkt then some (now - h.sock.wndSend.sendTime)
      else none := by
  unfold sampleOf
  simp only [hack.1, hack.2, true_and]

theorem takeSample_estimate (now : ℕ) (ack : BitVec 32) (w : SenderWindow) :
    SameEstimate (if w.isEstimatingRtt = true ∧ w.rttExpectAck = ack then
      w.sampled (now - w.sendTime) else w) (takeSample now ack w) := by
  rw [← calTimeout_eq]
  unfold takeSample
  by_cases hm : w.isEstimatingRtt = true
  · by_cases ha : w.rttExpectAck = ack
    · rw [if_pos ⟨hm, ha⟩, if_pos hm, if_pos ha]
      exact ⟨rfl, rfl, rfl⟩
    · rw [if_neg fun h => ha h.2, if_pos hm, if_neg ha]
      exact ⟨rfl, rfl, rfl⟩
  · rw [if_neg fun h => hm h.1, if_neg hm]
    exact SameEstimate.refl _

/-- **One step** changes the timeout by the sample that it takes, if it takes one. -/
theorem sockStep_estimate (he : sockStep h e = some h') :
    (∃ s, sampleOf h e = some s ∧ SameEstimate (h.sock.wndSend.sampled s) h'.sock.wndSend) ∨
      sampleOf h e = none ∧ SameEstimate h.sock.wndSend h'.sock.wndSend := by
  cases e with
  | append data =>
    obtain ⟨sock', ha, rfl⟩ := Option.map_eq_some_iff.1 he
    obtain ⟨-, rfl⟩ := appendData_eq_some ha
    exact Or.inr ⟨rfl, SameEstimate.refl _⟩
  | sendPass now => cases he; exact Or.inr ⟨rfl, sendingThread_estimate now h⟩
  | retransPass =>
    obtain ⟨⟨t, out⟩, ht, rfl⟩ := Option.map_eq_some_iff.1 he
    exact Or.inr ⟨rfl, (retransThread_rtt ht).toSameEstimate⟩
  | alarm => cases he; exact Or.inr ⟨rfl, SameEstimate.refl _⟩
  | recv len =>
    simp only [sockStep] at he
    split_ifs at he
    obtain ⟨⟨sock', bytes⟩, hr, rfl⟩ := Option.map_eq_some_iff.1 he
    obtain ⟨-, rfl, -⟩ := tjuRecv_eq_some hr
    exact Or.inr ⟨rfl, SameEstimate.refl _⟩
  | packet now pkt =>
    obtain ⟨⟨t, out⟩, ht, rfl⟩ := Option.map_eq_some_iff.1 he
    by_cases hack : h.sock.state = .established ∧ getFlags pkt = ackFlagMask
    · rw [handle_ack hack.1 hack.2] at ht
      obtain ⟨t', ha, hr⟩ := Option.map_eq_some_iff.1 ht
      cases hr
      have hrtt := (handleAck_rtt ha).toSameEstimate
      rw [sampleOf_packet now hack]
      by_cases hlt : h.sock.wndSend.base < getAck pkt
      · have hsmp := takeSample_estimate now (getAck pkt) h.sock.wndSend
        rw [if_pos hlt] at hrtt
        simp only [hlt, true_and]
        split_ifs at hsmp ⊢
        · exact Or.inl ⟨_, rfl, hsmp.trans hrtt⟩
        · exact Or.inr ⟨rfl, hsmp.trans hrtt⟩
      · rw [if_neg hlt] at hrtt
        rw [if_neg fun h => hlt h.1]
        exact Or.inr ⟨rfl, hrtt⟩
    · have hno : sampleOf h (.packet now pkt) = none := if_neg fun h => hack ⟨h.1, h.2.1⟩
      rcases handle_sending ht with ⟨-, hsame⟩ | ⟨hs, hf, -⟩
      · exact Or.inr ⟨hno, by rw [hsame]; exact SameEstimate.refl _⟩
      · exact absurd ⟨hs, hf⟩ hack

end Tju
