/-
  The retransmission timeout.

  `CalTimeout` sets `tv_usec` to the new estimate and four times the new
  deviation, without a limit on either side, and `startTimer` passes that to
  `setitimer`, which refuses a second and more.  `tv_sec` is set to 0 once, by
  `tju_socket`, and `timeout` is `tv_usec`.

  * `sampled_legal_iff`: which samples leave a timeout of at least
    `TCP_RTO_MIN` and of less than a second;
  * `rto_legal`, `timer_armed`: in every run of such samples, and in every run of
    a process that takes such samples only, the timer is always armed;
  * `rto_short`, `rto_long`: a sample below 200 ms, and one of a second.
-/
import TjuTcp.Timing

namespace Tju

open Lib

/-- `setitimer` takes the timeout, and the timer waits for at least `TCP_RTO_MIN`. -/
structure Legal (w : SenderWindow) : Prop where
  lower : tcpRtoMin ≤ w.timeout
  upper : w.timeout < 1000000

/-- A segment was sent at the time `sendTime`, and its ACK has come `sample` microseconds later. -/
structure Measured where
  sendTime : ℕ
  sample : ℕ

/-- `CalTimeout` is called for a measured segment. -/
def sampleStep (w : SenderWindow) (m : Measured) : Option SenderWindow :=
  some (({ w with sendTime := m.sendTime } : SenderWindow).sampled m.sample)

/-- The estimate that follows from the sample `s`. -/
def nextEstimate (est s : ℕ) : ℕ := (7 * est + s) / 8

/-- Three deviations and the sample, turned up at the new estimate if it is below that, lie between
    the bounds.  `nextEstimate _ _ % 4` is what the two divisions lose. -/
structure SampleOk (w : SenderWindow) (s : ℕ) : Prop where
  lower : tcpRtoMin + nextEstimate w.estmatedRtt s % 4 ≤
    3 * w.devRtt + max s (2 * nextEstimate w.estmatedRtt s - s)
  upper : 3 * w.devRtt + max s (2 * nextEstimate w.estmatedRtt s - s) <
    1000000 + nextEstimate w.estmatedRtt s % 4

/-- The guard on a step of the process: the sample that it takes, if it takes one. -/
def SamplesOk (h : Host) (e : SockEv) : Prop :=
  ∀ s, sampleOf h e = some s → SampleOk h.sock.wndSend s

variable {h h' : Host} {v w w' : SenderWindow} {m : Measured}

theorem Legal.congr (hv : Legal v) (hs : SameEstimate v w) : Legal w :=
  ⟨by rw [hs.timeout]; exact hv.lower, by rw [hs.timeout]; exact hv.upper⟩

/-! ## One sample -/

theorem sampled_estimate (w : SenderWindow) (s : ℕ) :
    (w.sampled s).estmatedRtt = nextEstimate w.estmatedRtt s := by
  unfold SenderWindow.sampled calTimeout nextEstimate
  rw [Nat.add_sub_cancel_left]

/-- The deviation of the sample `s` from the estimate `est`. -/
def deviation (est s : ℕ) : ℕ := if s < est then est - s else s - est

theorem sampled_devRtt (w : SenderWindow) (s : ℕ) : (w.sampled s).devRtt =
    (3 * w.devRtt + deviation (nextEstimate w.estmatedRtt s) s) / 4 := by
  unfold SenderWindow.sampled calTimeout nextEstimate deviation
  rw [Nat.add_sub_cancel_left]

theorem sampled_timeout (w : SenderWindow) (s : ℕ) :
    (w.sampled s).timeout = (w.sampled s).estmatedRtt + 4 * (w.sampled s).devRtt := rfl

theorem add_deviation (est s : ℕ) : est + deviation est s = max s (2 * est - s) := by
  unfold deviation
  split_ifs <;> omega

/-- **One sample.** -/
theorem sampled_legal_iff (w : SenderWindow) (s : ℕ) : Legal (w.sampled s) ↔ SampleOk w s := by
  have hdev := add_deviation (nextEstimate w.estmatedRtt s) s
  have hto := sampled_timeout w s
  rw [sampled_estimate, sampled_devRtt] at hto
  -- four quarters of the sum lose what the estimate has above a multiple of four
  constructor
  · rintro ⟨h1, h2⟩
    simp only [tcpRtoMin] at h1
    refine ⟨?_, ?_⟩
    · rw [← hdev]
      simp only [tcpRtoMin]
      omega
    · rw [← hdev]
      omega
  · rintro ⟨h1, h2⟩
    rw [← hdev] at h1 h2
    simp only [tcpRtoMin] at h1
    refine ⟨?_, ?_⟩
    · simp only [tcpRtoMin]
      omega
    · omega

/-! ## Runs -/

theorem init_legal : Legal .init := ⟨by decide, by decide⟩

/-- A timeout that is not legal is not taken by the timer, or runs out too early. -/
theorem startTimer_armed (hw : Legal h.sock.wndSend) : (startTimer h).timer = true := by
  have hmin := hw.lower
  simp only [tcpRtoMin] at hmin
  unfold startTimer
  dsimp only
  rw [if_pos hw.upper, bne_iff_ne]
  omega

theorem sampleStep_legal_iff (he : sampleStep w m = some w') : Legal w' ↔ SampleOk w m.sample := by
  cases he
  have hone := sampled_legal_iff { w with sendTime := m.sendTime } m.sample
  exact hone.trans ⟨fun h => ⟨h.lower, h.upper⟩, fun h => ⟨h.lower, h.upper⟩⟩

/-- **The timeout.**  From what `tju_socket` sets, in every run of samples that all meet `SampleOk`,
    the timeout is legal and every `startTimer` arms the timer; and in each state of such a run the
    samples that leave a legal timeout are exactly those that meet `SampleOk`. -/
theorem rto_legal (hr : ReachBy sampleStep (fun w m => SampleOk w m.sample) .init w) :
    Legal w ∧ (∀ h : Host, h.sock.wndSend = w → (startTimer h).timer = true) ∧
      ∀ m w', sampleStep w m = some w' → (Legal w' ↔ SampleOk w m.sample) := by
  have hw : Legal w := hr.inv init_legal fun _ _ _ _ hok he => (sampleStep_legal_iff he).2 hok
  exact ⟨hw, fun h hh => startTimer_armed (hh ▸ hw), fun m w' he => sampleStep_legal_iff he⟩

/-- **The timer of a process** is armed by every `startTimer`, in every run whose samples meet
    `SampleOk`. -/
theorem timer_armed {a b : TjuSockAddr} (hr : ReachBy sockStep SamplesOk (establishedHost a b) h) :
    Legal h.sock.wndSend ∧ (startTimer h).timer = true := by
  have hw : Legal h.sock.wndSend := hr.inv (I := fun h => Legal h.sock.wndSend) init_legal
    fun h e h' hi hok he => by
      rcases sockStep_estimate he with ⟨s, hs, hsame⟩ | ⟨-, hsame⟩
      · exact ((sampled_legal_iff _ _).2 (hok s hs)).congr hsame
      · exact hi.congr hsame
  exact ⟨hw, startTimer_armed hw⟩

/-- Samples from 200 to 360 ms keep the estimators so that the timeout is legal. -/
theorem rto_legal_range
    (hr : ReachBy sampleStep (fun _ m => 200000 ≤ m.sample ∧ m.sample < 360000) .init w) :
    Legal w := by
  let I : SenderWindow → Prop := fun w =>
    200000 ≤ w.estmatedRtt ∧ w.estmatedRtt < 360000 ∧ w.devRtt ≤ 160000 ∧ Legal w
  have hI : I w := hr.inv ⟨by decide, by decide, by decide, init_legal⟩ fun w m w' hi hm he => by
    obtain ⟨h1, h2, h3, -⟩ := hi
    obtain ⟨hm1, hm2⟩ := hm
    cases he
    set v : SenderWindow := { w with sendTime := m.sendTime } with hv
    have hest : (v.sampled m.sample).estmatedRtt = (7 * w.estmatedRtt + m.sample) / 8 :=
      sampled_estimate v m.sample
    have hdev := sampled_devRtt v m.sample
    have hto := sampled_timeout v m.sample
    rw [← sampled_estimate] at hdev
    unfold deviation at hdev
    have hw : v.devRtt = w.devRtt := rfl
    rw [hw] at hdev
    refine ⟨by omega, by omega, ?_, ?_, ?_⟩
    · split_ifs at hdev <;> omega
    · simp only [tcpRtoMin]
      omega
    · split_ifs at hdev <;> omega
  exact hI.2.2.2

theorem rto_legal_first : ∃ w, sampleStep .init ⟨0, 300000⟩ = some w ∧
    Legal w ∧ (∀ h : Host, h.sock.wndSend = w → (startTimer h).timer = true) ∧
      ∀ m w', sampleStep w m = some w' → (Legal w' ↔ SampleOk w m.sample) :=
  ⟨_, rfl, rto_legal (ReachBy.one (e := ⟨0, 300000⟩) ⟨by decide, by decide⟩ rfl)⟩

/-- A sample just below 200 ms leaves a timeout below `TCP_RTO_MIN`. -/
theorem rto_short : ∃ w, sampleStep .init ⟨0, 199999⟩ = some w ∧ w.timeout = 199999 := ⟨_, rfl, rfl⟩

/-- **A sample of a second** leaves a timeout with which the timer is not armed any more. -/
theorem rto_long : ∃ w, sampleStep .init ⟨0, 1000000⟩ = some w ∧ w.timeout = 1000000 ∧
    ∀ h : Host, h.sock.wndSend = w → h.timer = false → (startTimer h).timer = false := by
  refine ⟨_, rfl, rfl, fun h hh ht => ?_⟩
  unfold startTimer
  dsimp only
  rw [hh, ht]
  rfl

end Tju
