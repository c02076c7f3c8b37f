/-
  The timer of a connection, pass by pass.

  With a pass of a thread as one step, whatever has to wait for the timer has
  it: bytes in flight, a sender that waits for a retransmission
  (`is_retransing`), and a window that is closed.  The timer is armed then, or
  it has run out and `RETRANS` is TRUE (`Armed`), as long as `setitimer` takes
  every timeout that `CalTimeout` sets (`SampleFires`) and the peer never
  advertises an empty window.

  * `armed_step`: every step of a socket keeps `Armed`;
  * `armed_reached`: so it holds of both sides in every run of a connection.
-/
import TjuTcp.Endpoints
import TjuTcp.Timing

namespace Tju

open Lib

/-- `setitimer` takes the timeout, and the timer runs. -/
def Fires (w : SenderWindow) : Prop := 0 < w.timeout ∧ w.timeout < 1000000

instance (w : SenderWindow) : Decidable (Fires w) := inferInstanceAs (Decidable (_ ∧ _))

/-- The guard on a step of a socket: a sample that is taken leaves such a timeout. -/
def SampleFires (h : Host) (e : SockEv) : Prop :=
  ∀ s ∈ sampleOf h e, Fires (h.sock.wndSend.sampled s)

instance (h : Host) : DecidablePred (SampleFires h) := fun e =>
  inferInstanceAs (Decidable (∀ s ∈ sampleOf h e, Fires (h.sock.wndSend.sampled s)))

/-- What only a retransmission or a probe resolves. -/
def NeedsTimer (sock : TjuTcp) : Prop :=
  sock.wndSend.windowSize = 0 ∨ sock.isRetransing = true ∨
    sock.wndSend.base ≠ sock.wndSend.nextseq

/-- The timer is armed where it is needed, or has run out. -/
def Armed (h : Host) : Prop := NeedsTimer h.sock → h.timer = true ∨ h.retrans = true

variable {h h' : Host} {e : SockEv} {s s' : Conn} {pkt : Buf} {now : ℕ} {v w : SenderWindow}

theorem Fires.congr (hv : Fires v) (hs : SameEstimate v w) : Fires w := by
  unfold Fires
  rw [hs.timeout]
  exact hv

theorem startTimer_fires (hf : Fires h.sock.wndSend) : (startTimer h).timer = true := by
  unfold startTimer
  dsimp only
  rw [if_pos hf.2, bne_iff_ne]
  exact hf.1.ne'

/-- What leaves the window, the numbers and the flags as they are. -/
theorem Armed.congr (ha : Armed h) (hw : h'.sock.wndSend = h.sock.wndSend)
    (hr : h'.sock.isRetransing = h.sock.isRetransing) (ht : h'.timer = h.timer)
    (hre : h'.retrans = h.retrans) : Armed h' := by
  unfold Armed NeedsTimer
  rw [hw, hr, ht, hre]
  exact ha

/-! ## `sending_thread` -/

/-- A round of the loop keeps a timer that is armed, or starts one. -/
theorem sendRound_timer (now : ℕ) (tmpLen wndBase : BitVec 32) (st : SendLoop)
    (hf : Fires st.host.sock.wndSend) :
    let st' := sendRound now tmpLen wndBase st
    Fires st'.host.sock.wndSend ∧ ((wndBase = st.wndNextseq ∧ st'.host.timer = true) ∨
      wndBase ≠ st.wndNextseq ∧ st'.host.timer = st.host.timer ∧
        st'.host.retrans = st.host.retrans) := by
  have hs : ∀ e, Fires (startSample now e st.host.sock.wndSend) := fun e =>
    hf.congr (startSample_estimate now e _)
  unfold sendRound
  dsimp only
  split_ifs with hb
  · exact ⟨hs _, Or.inl ⟨hb, startTimer_fires (h := { st.host with sock := { st.host.sock with
      wndSend := startSample now _ st.host.sock.wndSend } }) (hs _)⟩⟩
  · exact ⟨hs _, Or.inr ⟨hb, rfl, rfl⟩⟩

/-- The loop keeps a timer that is armed. -/
theorem sendLoop_timer (tmpLen wndBase : BitVec 32) (n : ℕ) {st : SendLoop}
    (hf : Fires st.host.sock.wndSend) (ht : st.host.timer = true ∨ st.host.retrans = true) :
    let st' := loop (fun st : SendLoop => .ofInt 32 st.host.sock.haveSendLen < tmpLen)
      (sendRound now tmpLen wndBase) n st
    st'.host.timer = true ∨ st'.host.retrans = true := by
  refine (loop_inv (I := fun st : SendLoop => Fires st.host.sock.wndSend ∧
    (st.host.timer = true ∨ st.host.retrans = true)) (fun st hi _ => ?_) n ⟨hf, ht⟩).2
  obtain ⟨hf', ⟨-, ht'⟩ | ⟨-, ht', hr'⟩⟩ :=
    sendRound_timer now tmpLen wndBase st hi.1
  · exact ⟨hf', Or.inl ht'⟩
  · exact ⟨hf', by rw [ht', hr']; exact hi.2⟩

/-- **A batch** leaves the timer armed: the first segment of an empty window starts it. -/
theorem sendBatch_timer {smp : Sample} (hf : Fires h.sock.wndSend)
    (hlt : BitVec.ofInt 32 h.sock.haveSendLen <
      cmin (.ofNat 32 h.sock.sendingBuf.length) (smp.ackCnt + smp.windowSize))
    (ha : smp.base ≠ smp.nextseq → h.timer = true ∨ h.retrans = true) :
    (sendBatch now smp h).1.timer = true ∨ (sendBatch now smp h).1.retrans = true := by
  unfold sendBatch
  dsimp only
  generalize cmin (.ofNat 32 h.sock.sendingBuf.length) (smp.ackCnt + smp.windowSize) = tmpLen at *
  obtain ⟨n, hn⟩ : ∃ n, tmpLen.toNat = n + 1 := ⟨tmpLen.toNat - 1, by bv_omega⟩
  have hfirst := sendRound_timer now tmpLen smp.base ⟨h, smp.nextseq, []⟩ hf
  dsimp only at hfirst
  rw [hn]
  unfold loop
  rw [if_pos (decide_eq_true hlt)]
  refine sendLoop_timer tmpLen smp.base n hfirst.1 ?_
  rcases hfirst.2 with ⟨-, ht⟩ | ⟨hne, ht, hr⟩
  · exact Or.inl ht
  · rw [ht, hr]
    exact ha hne

/-- **A pass of `sending_thread`**. -/
theorem sendingThread_armed (ha : Armed h) (hc : Cursors h.sock) (hf : Fires h.sock.wndSend)
    (now : ℕ) : Armed (sendingThread now h).1 := by
  unfold sendingThread
  split
  · next smp hsmp =>
    obtain ⟨-, hlen, hwin, -, rfl⟩ := sendSample_eq_some_iff.1 hsmp
    have hlt : BitVec.ofInt 32 h.sock.haveSendLen < cmin (.ofNat 32 h.sock.sendingBuf.length)
        (h.sock.wndSend.ackCnt + h.sock.wndSend.windowSize) := by
      have h1 := hc.ack_le
      have h2 := hc.len_le
      simp only [maxSockBufSize, maxLen] at h2
      unfold cmin
      split_ifs
      · bv_omega
      · exact hwin
    exact fun _ => sendBatch_timer hf hlt fun hne => ha (Or.inr (Or.inr hne))
  · exact ha

/-! ## `retrans_thread` -/

/-- Nothing is in flight just if all that was sent is acknowledged. -/
theorem Cursors.flight_iff {sock : TjuTcp} (hc : Cursors sock) :
    sock.wndSend.ackCnt < .ofInt 32 sock.haveSendLen ↔ sock.wndSend.base ≠ sock.wndSend.nextseq := by
  have h1 := hc.ack_le
  have h2 := hc.have_le
  have h3 := hc.len_le
  have hfl := hc.flight
  simp only [maxSockBufSize, maxLen] at h3
  constructor
  · intro hlt heq
    rw [heq] at hfl
    bv_omega
  · intro hne
    by_contra hno
    have heq : sock.wndSend.nextseq - sock.wndSend.base = 0 := by
      rw [hfl]
      bv_omega
    exact hne (by bv_omega)

theorem cmin_maxDlen_ne {r : BitVec 32} (hr : r ≠ 0) : cmin (.ofNat 32 maxDlen) r ≠ 0 :=
  (cmin_ne_zero _ _).2 ⟨by decide, hr⟩

/-- **A retransmission** starts the timer, unless nothing is in flight. -/
theorem retransmit_armed {out : List Buf} (hc : Cursors h.sock) (hf : Fires h.sock.wndSend)
    (hr : h.sock.wndSend.rwnd ≠ 0) (hw : h.sock.wndSend.windowSize ≠ 0)
    (he : retransmit h = some (h', out)) : Armed h' := by
  have hwnd := retransmit_wndSend he
  obtain ⟨h₁, hh₁, rfl⟩ := retransmit_host he
  have hf₁ : Fires h₁.sock.wndSend := by
    rw [hh₁]
    dsimp only
    split_ifs <;> exact hf
  dsimp only at hwnd ⊢
  split_ifs with hlt
  · exact fun _ => Or.inl (startTimer_fires hf₁)
  · intro hneed
    exfalso
    rw [hc.flight_iff, not_not] at hlt
    unfold NeedsTimer at hneed
    rw [hwnd] at hneed
    rcases hneed with h0 | h0 | hne
    · split_ifs at h0
      · exact cmin_maxDlen_ne hr h0
      · exact hw h0
    · cases h0
    · refine hne ?_
      split_ifs <;> exact hlt

/-- **A pass of `retrans_thread`**. -/
theorem retransThread_armed {out : List Buf} (ha : Armed h) (hc : Cursors h.sock)
    (hf : Fires h.sock.wndSend) (hr : h.sock.wndSend.rwnd ≠ 0)
    (he : retransThread h = some (h', out)) : Armed h' := by
  unfold retransThread at he
  split_ifs at he with hre hw hret hlt
  · cases he
    exact fun _ => Or.inl (startTimer_fires hf)
  · cases he
    exact fun _ => Or.inr rfl
  · -- the window is open, and nothing is in flight
    cases he
    rintro (h0 | h0 | hne)
    · exact absurd h0 hw
    · exact absurd (hret.symm.trans h0) Bool.false_ne_true
    · exact absurd (hc.flight_iff.2 hne) hlt
  · exact retransmit_armed hc hf hr hw he
  · cases he
    exact ha

/-! ## `tju_handle_packet` -/

/-- The end of the handler starts the timer of a closed window. -/
theorem zeroWindow_armed (hf : Fires h.sock.wndSend)
    (ha : h.sock.wndSend.windowSize ≠ 0 → Armed h) : Armed (zeroWindow h) := by
  unfold zeroWindow
  split_ifs with h0
  · exact fun _ => Or.inl (startTimer_fires hf)
  · exact ha h0

theorem dupAck_armed (hopen : (dupAck h).sock.wndSend.windowSize ≠ 0)
    (ha : h.sock.isRetransing = true ∨ h.sock.wndSend.base ≠ h.sock.wndSend.nextseq →
      h.timer = true ∨ h.retrans = true) : Armed (dupAck h) := by
  have hcur := (dupAck_same h).2.1
  rintro (h0 | hflag | hne)
  · exact absurd h0 hopen
  · unfold dupAck at hflag ⊢
    dsimp only at hflag ⊢
    split_ifs at hflag ⊢
    · exact Or.inr rfl
    · exact ha (Or.inl hflag)
  · rw [hcur.base, hcur.nextseq] at hne
    unfold dupAck
    dsimp only
    split_ifs
    · exact Or.inr rfl
    · exact ha (Or.inr hne)

theorem cleanSendBuf_ends {sock sock' : TjuTcp} (he : cleanSendBuf sock = some sock') :
    sock'.wndSend.base = sock.wndSend.base ∧ sock'.wndSend.nextseq = sock.wndSend.nextseq := by
  unfold cleanSendBuf at he
  dsimp only at he
  split_ifs at he <;> cases he <;> exact ⟨rfl, rfl⟩

/-- An ACK for new data stops the timer only if nothing is in flight any more. -/
theorem newAck_armed {ack : BitVec 32}
    (hf : Fires (takeSample now ack (growCwnd { h.sock.wndSend with sameAckCnt := 0 }).refresh))
    (he : newAck now h ack = some h') :
    Fires h'.sock.wndSend ∧ (h'.sock.wndSend.windowSize ≠ 0 → Armed h') := by
  unfold newAck at he
  simp only [Option.bind_eq_bind] at he
  obtain ⟨sock, hcl, hn⟩ := Option.bind_eq_some_iff.1 he
  cases hn
  have hrtt := (cleanSendBuf_rtt hcl).toSameEstimate
  have hret := (cleanSendBuf_window hcl).2
  have hcur := cleanSendBuf_ends hcl
  generalize takeSample now ack (growCwnd { h.sock.wndSend with sameAckCnt := 0 }).refresh = w at *
  by_cases hend : ack = w.nextseq
  · rw [if_pos hend] at hrtt hret hcur ⊢
    refine ⟨hf.congr ⟨hrtt.1, hrtt.2, hrtt.3⟩, fun hopen => ?_⟩
    rintro (h0 | hflag | hne)
    · exact absurd h0 hopen
    · exact absurd (hret.symm.trans hflag) Bool.false_ne_true
    · exact absurd (hcur.1.trans (hend.trans hcur.2.symm)) hne
  · rw [if_neg hend] at hrtt ⊢
    refine ⟨hf.congr ⟨hrtt.1, hrtt.2, hrtt.3⟩, fun _ _ => Or.inl ?_⟩
    exact startTimer_fires hf

/-- **An ACK**. -/
theorem handleAck_armed (ha : Armed h) (hf : Fires h.sock.wndSend)
    (hnew : h.sock.wndSend.base < getAck pkt → Fires (takeSample now (getAck pkt) h.sock.wndSend))
    (he : handleAck now h pkt = some h') : Armed h' := by
  unfold handleAck at he
  simp only [Option.bind_eq_bind, Option.bind_some] at he
  set v : SenderWindow :=
    { h.sock.wndSend with rwnd := (getAdvertisedWindow pkt).setWidth 32 } with hv
  have hrtt : SameRtt h.sock.wndSend v := ⟨⟨rfl, rfl, rfl⟩, rfl, rfl, rfl⟩
  split_ifs at he with hlt heq
  · -- below `base`: only the size of the window is set again
    cases he
    refine zeroWindow_armed hf fun hopen => ?_
    rintro (h0 | hneed)
    · exact absurd h0 hopen
    · exact ha (Or.inr hneed)
  · cases he
    refine zeroWindow_armed ?_ fun hopen => dupAck_armed hopen fun hneed => ha (Or.inr hneed)
    rw [dupAck_wndSend]
    exact hf.congr (hrtt.trans (dupWindow_rtt v)).toSameEstimate
  · obtain ⟨h₁, hn, he⟩ := Option.bind_eq_some_iff.1 he
    cases he
    have hgrow : SameRtt h.sock.wndSend (growCwnd { v with sameAckCnt := 0 }).refresh :=
      SameRtt.trans (v := { v with sameAckCnt := 0 }) ⟨⟨rfl, rfl, rfl⟩, rfl, rfl, rfl⟩
        ((growCwnd_rtt _).trans ⟨⟨rfl, rfl, rfl⟩, rfl, rfl, rfl⟩)
    obtain ⟨hf₁, ha₁⟩ := newAck_armed
      ((hnew (by bv_omega)).congr (hgrow.takeSample now (getAck pkt)).toSameEstimate) hn
    exact zeroWindow_armed hf₁ ha₁

/-! ## One step -/

/-- A step leaves a timeout that `setitimer` takes. -/
theorem sockStep_fires (hf : Fires h.sock.wndSend) (hG : SampleFires h e)
    (he : sockStep h e = some h') : Fires h'.sock.wndSend := by
  rcases sockStep_estimate he with ⟨s, hs, hsame⟩ | ⟨-, hsame⟩
  · exact (hG s hs).congr hsame
  · exact hf.congr hsame

/-- **One step of a socket** leaves the timer armed where it is needed. -/
theorem armed_step (ha : Armed h) (hf : Fires h.sock.wndSend) (hc : Cursors h.sock)
    (hr : h.sock.wndSend.rwnd ≠ 0) (hG : SampleFires h e) (he : sockStep h e = some h') :
    Armed h' := by
  cases e with
  | append data =>
    obtain ⟨sock', happ, rfl⟩ := Option.map_eq_some_iff.1 he
    obtain ⟨-, rfl⟩ := appendData_eq_some happ
    exact ha
  | sendPass now =>
    cases he
    exact sendingThread_armed ha hc hf now
  | retransPass =>
    obtain ⟨⟨t, out⟩, ht, rfl⟩ := Option.map_eq_some_iff.1 he
    exact retransThread_armed ha hc hf hr ht
  | alarm =>
    cases he
    exact fun _ => Or.inr rfl
  | packet now pkt =>
    obtain ⟨⟨t, out⟩, ht, rfl⟩ := Option.map_eq_some_iff.1 he
    cases tjuHandlePacket_cases ht with
    | fin => exact ha
    | data _ _ hd =>
      obtain ⟨hsock, -⟩ := handleData_frame hd
      refine ha.congr ?_ ?_ rfl rfl
      · rw [hsock]
      · rw [hsock]
    | ack hs hfl hack =>
      refine handleAck_armed ha hf (fun hlt => ?_) hack
      have hsmp := takeSample_estimate now (getAck pkt) h.sock.wndSend
      have hof := sampleOf_packet now ⟨hs, hfl⟩
      simp only [hlt, true_and] at hof
      split_ifs at hsmp hof
      · exact (hG _ hof).congr hsmp
      · exact hf.congr hsmp
    | ignored => exact ha
    | closing => exact ha
  | recv len =>
    simp only [sockStep] at he
    split_ifs at he
    obtain ⟨⟨sock', bytes⟩, hrecv, rfl⟩ := Option.map_eq_some_iff.1 he
    obtain ⟨-, rfl, -⟩ := tjuRecv_eq_some hrecv
    exact ha

/-! ## Runs -/

/-- The timeout is one that `setitimer` takes, the estimators leave room for such a one, and the
    timer is armed where it is needed. -/
structure TimerOk (h : Host) : Prop where
  fires : Fires h.sock.wndSend
  estimate : h.sock.wndSend.estmatedRtt + 4 * h.sock.wndSend.devRtt < 1000000
  armed : Armed h

theorem init_fires : Fires .init := ⟨by decide, by decide⟩

theorem establishedHost_timerOk (a b : TjuSockAddr) : TimerOk (establishedHost a b) where
  fires := init_fires
  estimate := show SenderWindow.init.estmatedRtt + 4 * SenderWindow.init.devRtt < 1000000 by decide
  armed := by
    rintro (h0 | hflag | hne)
    · exact absurd h0 (show SenderWindow.init.windowSize ≠ 0 by decide)
    · cases hflag
    · exact absurd rfl hne

theorem TimerOk.step (ht : TimerOk h) (hc : Cursors h.sock) (hr : h.sock.wndSend.rwnd ≠ 0)
    (hG : SampleFires h e) (he : sockStep h e = some h') : TimerOk h' where
  fires := sockStep_fires ht.fires hG he
  estimate := by
    rcases sockStep_estimate he with ⟨s, hs, hsame⟩ | ⟨-, hsame⟩
    · rw [hsame.estmatedRtt, hsame.devRtt]
      exact (hG s hs).2
    · rw [hsame.estmatedRtt, hsame.devRtt]
      exact ht.estimate
  armed := armed_step ht.armed ht.fires hc hr hG he

theorem ClosingOnly.timerOk (ht : TimerOk h) (hc : ClosingOnly h h') : TimerOk h' := by
  obtain ⟨_, _, _, rfl⟩ := hc
  exact ⟨ht.fires, ht.estimate, ht.armed⟩

/-- The timers of both sides are in order, in every run whose samples leave timeouts that
    `setitimer` takes. -/
theorem timerOk_reached (client server : TjuSockAddr)
    (hr : ReachBy connStep (OnMove SampleFires) (.start client server (handshake client server)) s)
    (hS : ShortAll s) (x : Side) : TimerOk (s.ep x) := by
  have hall : Reach connStep (.start client server (handshake client server)) s ∧
      (ShortAll s → ∀ x, TimerOk (s.ep x)) := by
    refine hr.inv (I := fun s => Reach connStep (.start client server (handshake client server)) s ∧
      (ShortAll s → ∀ x, TimerOk (s.ep x)))
      ⟨ReachBy.refl, fun _ => start_hosts establishedHost_timerOk⟩ ?_
    rintro s e s' ⟨hr, ht⟩ hG he
    refine ⟨hr.tail trivial he, fun hS y => ?_⟩
    have hS₀ := hS.back he
    cases connStep_hosts he with
    | closes _ hc => exact (hc y).timerOk (ht hS₀ y)
    | sock x f hmove hf hpeer =>
      rcases Side.eq_or_peer x y with rfl | rfl
      · have hadv := (windowsOk_reached client server hr).rwnd y
        refine (ht hS₀ y).step ((flowAll_reached hr).2 hS₀ y).send.cursors ?_ (hG _ hmove) hf
        intro h0
        rw [h0] at hadv
        exact absurd hadv.1 (by decide)
      · rw [hpeer]
        exact ht hS₀ _
  exact hall.2 hS x

/-- **The timer of a connection.**  In every run of a connection whose samples all leave a timeout
    that `setitimer` takes, and whose streams are short, a side that has bytes in flight, that waits
    for a retransmission or whose window is closed has its timer armed, or the timer has run out and
    `RETRANS` is TRUE; and a timer that is started there is armed. -/
theorem armed_reached (client server : TjuSockAddr)
    (hr : ReachBy connStep (OnMove SampleFires) (.start client server (handshake client server)) s)
    (hS : ShortAll s) (x : Side) : Armed (s.ep x) ∧ (startTimer (s.ep x)).timer = true :=
  have ht := timerOk_reached client server hr hS x
  ⟨ht.armed, startTimer_fires ht.fires⟩

/-- The client has sent a byte, and has lost its packet. -/
theorem armed_reached_lost :
    let s := (exec connStep freshConn [.append .client [7], .sendPass .client 0,
      .lose .server (dataPacket clientHost.sock 1 [7])]).getD freshConn
    Armed (s.ep .client) ∧ (startTimer (s.ep .client)).timer = true :=
  armed_reached ⟨clientIp, 5678⟩ ⟨serverIp, 1234⟩
    (.of_along [.append .client [7], .sendPass .client 0,
      .lose .server (dataPacket clientHost.sock 1 [7])] (by decide) rfl)
    (by intro x; cases x <;> decide) .client

end Tju
