/-
  The retransmission timeout on a path with a bounded round trip time.

  `samplesOf h es`: the samples that a replayed run of a process takes.  The
  estimate is their average with a share of 1/8 for each, the deviation that of
  their distances to the estimate with a share of 1/4, both in whole numbers.

  * `exec_estimate`: a run changes the timeout by these samples only;
  * `IntSized.sampledAll`: below `2 ^ 31` the arithmetic of the machine is exact;
  * `devSamples_le`: the distances, while the estimate is still out of the band;
  * `rto_settles`: samples in a band bring the timeout into one, from any state,
    and the timer is armed if that band is below a second.
-/
import TjuTcp.Rto
import TjuTcp.LostTimer
import TjuTcp.Lib.Simulation
import TjuTcp.Lib.Smooth

namespace Tju

open Lib

/-- The samples that are taken in the run with the events `es`. -/
def samplesOf (h : Host) (es : List SockEv) : List ℕ :=
  shown sockStep (fun h e => (sampleOf h e).toList) h es

/-- The distances of the samples to the estimates that `CalTimeout` compares them with. -/
def devSamples : ℕ → List ℕ → List ℕ
  | _, [] => []
  | est, s :: ss => deviation (nextEstimate est s) s :: devSamples (nextEstimate est s) ss

/-- `CalTimeout` is called with each of the samples. -/
def SenderWindow.sampledAll (w : SenderWindow) (ss : List ℕ) : SenderWindow :=
  ss.foldl SenderWindow.sampled w

/-- `abs` of `sampleRTT - estmated_rtt`: it takes an `int`, the low 32 bits of the difference. -/
def absInt (s est : ℕ) : ℕ := ((BitVec.ofNat 64 s - BitVec.ofNat 64 est).setWidth 32).toInt.natAbs

/-- `CalTimeout` with a sample, and with that `abs`. -/
def SenderWindow.sampledInt (w : SenderWindow) (s : ℕ) : SenderWindow :=
  let est := nextEstimate w.estmatedRtt s
  let dev := (3 * w.devRtt + absInt s est) / 4
  { w with estmatedRtt := est, devRtt := dev, timeout := est + 4 * dev }

variable {h h' : Host} {v w : SenderWindow} {es : List SockEv} {ss tt : List ℕ}
  {est lo hi s n m : ℕ}

/-! ## A run and its samples -/

theorem SameEstimate.sampled (hs : SameEstimate v w) (s : ℕ) :
    SameEstimate (v.sampled s) (w.sampled s) := by
  have hest : (w.sampled s).estmatedRtt = (v.sampled s).estmatedRtt := by
    rw [sampled_estimate, sampled_estimate, hs.estmatedRtt]
  have hdev : (w.sampled s).devRtt = (v.sampled s).devRtt := by
    rw [sampled_devRtt, sampled_devRtt, hs.devRtt, hs.estmatedRtt]
  refine ⟨hest, hdev, ?_⟩
  rw [sampled_timeout, sampled_timeout, hest, hdev]

theorem SameEstimate.sampledAll (hs : SameEstimate v w) (ss : List ℕ) :
    SameEstimate (v.sampledAll ss) (w.sampledAll ss) := by
  induction ss generalizing v w with
  | nil => exact hs
  | cons s ss ih => exact ih (hs.sampled s)

/-- **A run** leaves the timeout that its samples leave. -/
theorem exec_estimate (he : exec sockStep h es = some h') :
    SameEstimate (h.sock.wndSend.sampledAll (samplesOf h es)) h'.sock.wndSend := by
  induction es generalizing h with
  | nil => cases he; exact SameEstimate.refl _
  | cons e es ih =>
    obtain ⟨t, ht, he⟩ := Option.bind_eq_some_iff.1 he
    have hrest := ih he
    unfold samplesOf
    rw [shown_cons ht]
    rcases sockStep_estimate ht with ⟨s, hs, hsame⟩ | ⟨hs, hsame⟩
    · rw [hs]
      exact (hsame.sampledAll _).trans hrest
    · rw [hs]
      exact (hsame.sampledAll _).trans hrest

theorem sampledAll_estimate (w : SenderWindow) (ss : List ℕ) :
    (w.sampledAll ss).estmatedRtt = smoothAll 7 w.estmatedRtt ss := by
  induction ss generalizing w with
  | nil => rfl
  | cons s ss ih =>
    have hone := ih (w.sampled s)
    rw [sampled_estimate] at hone
    exact hone

theorem sampledAll_devRtt (w : SenderWindow) (ss : List ℕ) :
    (w.sampledAll ss).devRtt = smoothAll 3 w.devRtt (devSamples w.estmatedRtt ss) := by
  induction ss generalizing w with
  | nil => rfl
  | cons s ss ih =>
    have hone := ih (w.sampled s)
    rw [sampled_devRtt, sampled_estimate] at hone
    exact hone

theorem sampledAll_timeout (w : SenderWindow) (hss : ss ≠ []) :
    (w.sampledAll ss).timeout = (w.sampledAll ss).estmatedRtt + 4 * (w.sampledAll ss).devRtt := by
  rw [← List.dropLast_append_getLast hss]
  unfold SenderWindow.sampledAll
  rw [List.foldl_append]
  exact sampled_timeout _ _

/-! ## The arithmetic of the machine -/

/-- Below `2 ^ 31` nothing is cut off. -/
theorem absInt_eq (hs : s < 2 ^ 31) (hest : est < 2 ^ 31) : absInt s est = deviation est s := by
  have hdiff : (BitVec.ofNat 64 s - BitVec.ofNat 64 est).setWidth 32 =
      BitVec.ofInt 32 ((s : ℤ) - est) := by
    apply BitVec.eq_of_toNat_eq
    simp only [BitVec.toNat_setWidth, BitVec.toNat_sub, BitVec.toNat_ofNat, BitVec.toNat_ofInt]
    omega
  have hint : (BitVec.ofInt 32 ((s : ℤ) - est)).toInt = (s : ℤ) - est := by
    rw [BitVec.toInt_ofInt]
    exact Int.bmod_eq_of_le_mul_two (by omega) (by omega)
  unfold absInt deviation
  rw [hdiff, hint]
  split_ifs <;> omega

/-- The estimators fit into an `int`. -/
structure IntSized (w : SenderWindow) : Prop where
  estmatedRtt : w.estmatedRtt < 2 ^ 31
  devRtt : w.devRtt < 2 ^ 31

theorem IntSized.sampled (hw : IntSized w) (hs : s < 2 ^ 31) :
    w.sampledInt s = w.sampled s ∧ IntSized (w.sampled s) := by
  have hest : nextEstimate w.estmatedRtt s < 2 ^ 31 := by
    have h1 := hw.estmatedRtt
    unfold nextEstimate
    omega
  have habs := absInt_eq hs hest
  refine ⟨?_, by rw [sampled_estimate]; exact hest, ?_⟩
  · unfold SenderWindow.sampledInt SenderWindow.sampled calTimeout
    dsimp only
    rw [habs, Nat.add_sub_cancel_left]
    rfl
  · have h1 := hw.devRtt
    rw [sampled_devRtt]
    unfold deviation
    split_ifs <;> omega

/-- **Samples below `2 ^ 31`** leave what the exact arithmetic leaves. -/
theorem IntSized.sampledAll (hw : IntSized w) (hss : ∀ s ∈ ss, s < 2 ^ 31) :
    ss.foldl SenderWindow.sampledInt w = w.sampledAll ss ∧ IntSized (w.sampledAll ss) := by
  induction ss generalizing w with
  | nil => exact ⟨rfl, hw⟩
  | cons s ss ih =>
    obtain ⟨hs, hss⟩ := List.forall_mem_cons.1 hss
    obtain ⟨hone, hw'⟩ := hw.sampled hs
    obtain ⟨hrest, hend⟩ := ih hw' hss
    refine ⟨?_, hend⟩
    rw [List.foldl_cons, hone]
    exact hrest

/-! ## Samples in a band -/

theorem devSamples_append (est : ℕ) (ss tt : List ℕ) :
    devSamples est (ss ++ tt) = devSamples est ss ++ devSamples (smoothAll 7 est ss) tt := by
  induction ss generalizing est with
  | nil => rfl
  | cons s ss ih => exact congrArg (_ :: ·) (ih _)

theorem length_devSamples (est : ℕ) (ss : List ℕ) : (devSamples est ss).length = ss.length := by
  induction ss generalizing est with
  | nil => rfl
  | cons s ss ih => exact congrArg Nat.succ (ih _)

/-- The width of the band of the estimate.  A division by 8 loses 7 at most. -/
def spread (lo hi : ℕ) : ℕ := hi - lo + 7

theorem deviation_le (hs : lo ≤ s ∧ s ≤ hi) : deviation est s ≤ spread lo hi + gap 7 lo hi est := by
  unfold deviation spread gap
  split_ifs <;> omega

/-- **The distances** exceed the width by what the first estimate is away from the band. -/
theorem devSamples_le (hss : ∀ s ∈ ss, lo ≤ s ∧ s ≤ hi) (est : ℕ) :
    ∀ d ∈ devSamples est ss, d ≤ spread lo hi + gap 7 lo hi est := by
  induction ss generalizing est with
  | nil => intro d hd; cases hd
  | cons s ss ih =>
    obtain ⟨hs, hss⟩ := List.forall_mem_cons.1 hss
    have hgap : gap 7 lo hi (nextEstimate est s) ≤ gap 7 lo hi est := gap_smooth_le hs
    intro d hd
    rcases List.mem_cons.1 hd with rfl | hd
    · exact (deviation_le hs).trans (Nat.add_le_add_left hgap _)
    · exact (ih hss _ d hd).trans (Nat.add_le_add_left hgap _)

/-- The distances average to the width, once the estimate has settled. -/
theorem dev_settles (hss : ∀ s ∈ ss ++ tt, lo ≤ s ∧ s ≤ hi) (dev : ℕ)
    (hn : gap 7 lo hi est * 7 ^ ss.length < 8 ^ ss.length)
    (hm : max (gap 7 lo hi est) (dev - spread lo hi) * 3 ^ m < 4 ^ m) (hlen : m ≤ tt.length) :
    smoothAll 3 dev (devSamples est (ss ++ tt)) ≤ spread lo hi := by
  have hs : ∀ s ∈ ss, lo ≤ s ∧ s ≤ hi := fun s h => hss s (List.mem_append_left tt h)
  have ht : ∀ s ∈ tt, lo ≤ s ∧ s ≤ hi := fun s h => hss s (List.mem_append_right ss h)
  have hzero : gap 7 lo hi (smoothAll 7 est ss) = 0 :=
    gap_eq_zero_iff.2 (gap_settles hs hn le_rfl)
  have hdist := devSamples_le ht (smoothAll 7 est ss)
  rw [hzero, Nat.add_zero] at hdist
  -- up to here the deviation is bounded by what the estimate is away from the band
  have hfirst : smoothAll 3 dev (devSamples est ss) ≤
      max dev (spread lo hi + gap 7 lo hi est) :=
    smoothAll_le (fun d hd => (devSamples_le hs est d hd).trans (le_max_right _ _))
      (le_max_left _ _)
  rw [devSamples_append, smoothAll_append]
  have hband : ∀ d ∈ devSamples (smoothAll 7 est ss) tt, 0 ≤ d ∧ d ≤ spread lo hi :=
    fun d hd => ⟨Nat.zero_le d, hdist d hd⟩
  refine (gap_settles (n := m) hband ?_ ?_).2
  · refine lt_of_le_of_lt (Nat.mul_le_mul_right _ ?_) hm
    rw [gap_zero_left]
    omega
  · rw [length_devSamples]
    exact hlen

/-- The timeout of a path whose round trip times lie between the bounds. -/
structure InBand (lo hi : ℕ) (w : SenderWindow) : Prop where
  lower : lo ≤ w.estmatedRtt + 7
  upper : w.estmatedRtt ≤ hi
  devRtt : w.devRtt ≤ spread lo hi
  timeout : w.timeout = w.estmatedRtt + 4 * w.devRtt

/-- **Samples of a band.** -/
theorem sampledAll_inBand (w : SenderWindow) (hss : ∀ s ∈ ss, lo ≤ s ∧ s ≤ hi)
    (hn : gap 7 lo hi w.estmatedRtt * 7 ^ n < 8 ^ n)
    (hm : max (gap 7 lo hi w.estmatedRtt) (w.devRtt - spread lo hi) * 3 ^ m < 4 ^ m)
    (hlen : n + m < ss.length) : InBand lo hi (w.sampledAll ss) := by
  have hest := gap_settles hss hn (by omega)
  have htake : (ss.take n).length = n := List.length_take_of_le (by omega)
  have hdev : smoothAll 3 w.devRtt (devSamples w.estmatedRtt (ss.take n ++ ss.drop n)) ≤
      spread lo hi := by
    refine dev_settles ?_ w.devRtt ?_ hm ?_
    · rwa [List.take_append_drop]
    · rwa [htake]
    · rw [List.length_drop]
      omega
  rw [List.take_append_drop] at hdev
  refine ⟨?_, ?_, ?_, sampledAll_timeout w ?_⟩
  · rw [sampledAll_estimate]
    exact hest.1
  · rw [sampledAll_estimate]
    exact hest.2
  · rw [sampledAll_devRtt]
    exact hdev
  · rintro rfl
    exact absurd hlen (Nat.not_lt_zero _)

theorem InBand.congr (hv : InBand lo hi v) (hs : SameEstimate v w) : InBand lo hi w := by
  obtain ⟨h1, h2, h3, h4⟩ := hv
  refine ⟨?_, ?_, ?_, ?_⟩
  · rwa [hs.estmatedRtt]
  · rwa [hs.estmatedRtt]
  · rwa [hs.devRtt]
  · rw [hs.timeout, hs.estmatedRtt, hs.devRtt, h4]

/-- The timer refuses a second and more, and goes on as before. -/
theorem startTimer_refused (hge : 1000000 ≤ h.sock.wndSend.timeout) :
    (startTimer h).timer = h.timer := by
  unfold startTimer
  exact if_neg (Nat.not_lt.2 hge)

/-- **The timeout settles.**  Take a state of a process whose estimators fit into an `int`, and any
    run from it in which every sample lies between `lo` and `hi` and does so too.  The estimators
    are those of the machine, with its `abs`.  After `n` samples for the estimate, `m` for the
    deviation and one more, the estimate lies between `lo - 7` and `hi` and the deviation is not
    above the width.  If `lo` is at least 8 and such a timeout below a second, `startTimer` arms the
    timer; if the round trip takes a second, it leaves the timer as it is. -/
theorem rto_settles (he : exec sockStep h es = some h')
    (hint : IntSized h.sock.wndSend) (hhi : hi < 2 ^ 31)
    (hss : ∀ s ∈ samplesOf h es, lo ≤ s ∧ s ≤ hi)
    (hn : gap 7 lo hi h.sock.wndSend.estmatedRtt * 7 ^ n < 8 ^ n)
    (hm : max (gap 7 lo hi h.sock.wndSend.estmatedRtt) (h.sock.wndSend.devRtt - spread lo hi) *
      3 ^ m < 4 ^ m)
    (hlen : n + m < (samplesOf h es).length) :
    SameEstimate ((samplesOf h es).foldl SenderWindow.sampledInt h.sock.wndSend) h'.sock.wndSend ∧
      IntSized h'.sock.wndSend ∧ InBand lo hi h'.sock.wndSend ∧
      (8 ≤ lo → hi + 4 * spread lo hi < 1000000 → (startTimer h').timer = true) ∧
      (1000007 ≤ lo → (startTimer h').timer = h'.timer) := by
  have hrun := exec_estimate he
  obtain ⟨hsame, hsized⟩ := hint.sampledAll fun s hs => (hss s hs).2.trans_lt hhi
  obtain ⟨h1, h2, h3, h4⟩ := (sampledAll_inBand _ hss hn hm hlen).congr hrun
  refine ⟨?_, ⟨?_, ?_⟩, ⟨h1, h2, h3, h4⟩, fun hlo hhi => ?_, fun hlo => startTimer_refused ?_⟩
  · rw [hsame]
    exact hrun
  · rw [hrun.estmatedRtt]
    exact hsized.estmatedRtt
  · rw [hrun.devRtt]
    exact hsized.devRtt
  · exact startTimer_timer ⟨by omega, by omega⟩
  · omega

/-- Ten bytes one by one, each acknowledged after 199998 microseconds. -/
def tenRounds : List SockEv :=
  (List.range 10).flatMap fun k : ℕ => [.append [7], .sendPass (1000000 * k),
    .packet (1000000 * k + 199998) (bareAck (.ofNat 32 (k + 2)))]

/-- The first estimate is 2 microseconds above the band. -/
theorem rto_settles_ten : ∃ h', exec sockStep clientHost tenRounds = some h' ∧
    InBand 199990 199998 h'.sock.wndSend ∧ (startTimer h').timer = true := by
  have hdef : (exec sockStep clientHost tenRounds).isSome := by decide +kernel
  have hrun := exec_getD hdef clientHost
  have hss : ∀ s ∈ samplesOf clientHost tenRounds, 199990 ≤ s ∧ s ≤ 199998 := by decide +kernel
  obtain ⟨-, -, h1, h2, -⟩ := rto_settles (n := 6) (m := 3) hrun ⟨by decide, by decide⟩
    (by decide) hss (by decide) (by decide) (by decide +kernel)
  exact ⟨_, hrun, h1, h2 (by decide) (by decide)⟩

end Tju
