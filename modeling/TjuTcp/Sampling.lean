/-
  What `sending_thread` has sampled, and what it sends.

  The pass reads the send window without `send_lock`, and sends its batch under
  the lock.  In between ACKs may be handled, and their clean-up moves
  `have_send_len` and `sending_len` down, but not the limit that the pass takes
  from its sample.  `splitStep` has the two halves of the pass as two steps.

  * `SplitInv`: what a sample says about the state in which it is used;
  * `first_transmissions`: the batch stays inside the sampled window just if
    nothing was cleaned up in between, or the stream ends inside the window.
-/
import TjuTcp.SendCursors
import TjuTcp.Window

namespace Tju

open Lib

/-- A process, and what `sending_thread` has read in front of the lock.  The history: how many
    bytes were cleaned off `sending_buf` since then, and the largest window advertised so far. -/
structure SplitSend where
  host : Host
  sample : Option Sample
  dropped : ℕ
  maxAdv : ℕ

/-- The steps of a process whose `sending_thread` samples and sends in two steps. -/
inductive SplitEv where
  | sock (e : SockEv)
  | sample
  | batch (now : ℕ)

/-- The window that an event advertises. -/
def advertises : SockEv → ℕ
  | .packet _ pkt => (getAdvertisedWindow pkt).toNat
  | _ => 0

/-- A whole pass of `sending_thread`. -/
def isSendPass : SockEv → Bool
  | .sendPass _ => true
  | _ => false

def splitStep (s : SplitSend) : SplitEv → Option SplitSend
  | .sock e =>
    if isSendPass e then none
    else (sockStep s.host e).map fun h =>
      { s with
        host := h
        dropped := s.dropped + (s.host.sock.sendingBuf.length - h.sock.sendingBuf.length)
        maxAdv := max s.maxAdv (advertises e) }
  | .sample =>
    if s.sample.isNone then
      (sendSample s.host).map fun smp => { s with sample := some smp, dropped := 0 }
    else none
  | .batch now =>
    s.sample.map fun smp => { s with host := (sendBatch now smp s.host).1, sample := none }

def SplitSend.start (a b : TjuSockAddr) : SplitSend := ⟨establishedHost a b, none, 0, 0⟩

/-- The guard on a step: the ACKs are genuine. -/
def SplitAcksOk (s : SplitSend) : SplitEv → Prop
  | .sock e => AcksOk s.host e
  | _ => True

/-- Every byte of the packets `out` is less than `len` behind the number `base`. -/
def Within (base : BitVec 32) (len : ℕ) (out : List Buf) : Prop :=
  ∀ p ∈ out, ∀ i < p.length - 20, (getSeq p + .ofNat 32 i - base).toNat < len

variable {h h' : Host} {e : SockEv} {s s' : SplitSend} {smp : Sample} {sock : TjuTcp}
  {off off' : ℕ} {seq base : BitVec 32} {out : List Buf}

/-! ## The bytes of a batch -/

/-- The bytes of the packets are those of the range, one by one. -/
theorem Emits.within (he : Emits sock off seq out off') (hlt : off' - off < 2 ^ 31) {d : BitVec 32}
    (hd : d.toNat < 2 ^ 31) (hseq : seq = base + d) {len : ℕ} :
    Within base len out ↔ ∀ k, off ≤ k → k < off' → d.toNat + (k - off) < len := by
  have hmem : ∀ {mid l : ℕ}, mid + l ≤ sock.sendingBuf.length →
      ((sock.sendingBuf.drop mid).take l).length = l := by
    intro mid l hl
    simp only [List.length_take, List.length_drop]
    omega
  constructor
  · intro hin
    induction he with
    | nil => intro k h1 h2; omega
    | @snoc out mid l hprev h1 h2 h3 ih =>
      have hle := hprev.le
      intro k hk1 hk2
      by_cases hk : k < mid
      · exact ih (by omega) (fun p hp => hin p (List.mem_append_left _ hp)) k hk1 hk
      · -- the byte is in the last segment
        have hl := hmem h3
        have hle' : ((sock.sendingBuf.drop mid).take l).length ≤ maxDlen := by rw [hl]; exact h2
        have hb := hin _ (List.mem_append_right _ (List.mem_singleton.2 rfl)) (k - mid)
          (by rw [dataPacket_length hle', hl]; omega)
        rw [dataPacket_seq hle', hseq] at hb
        bv_omega
  · intro hall p hp i hi
    obtain ⟨mid, l, h1, h2, h3, h4, h5, rfl⟩ := he.mem p hp
    have hl := hmem h5
    have hle : ((sock.sendingBuf.drop mid).take l).length ≤ maxDlen := by rw [hl]; exact h3
    rw [dataPacket_length hle, hl] at hi
    have hb := hall (mid + i) (by omega) (by omega)
    rw [dataPacket_seq hle, hseq]
    bv_omega

/-! ## What can happen in between -/

/-- The step moves `base` inside the window, and takes `c` bytes off the front of `sending_buf`. -/
structure Moved (h h' : Host) (c : ℕ) : Prop where
  haveSendLen : h'.sock.haveSendLen + c = h.sock.haveSendLen
  length : h.sock.sendingBuf.length ≤ h'.sock.sendingBuf.length + c
  cut : h.sock.sendingBuf.length - h'.sock.sendingBuf.length = c
  nextseq : h'.sock.wndSend.nextseq = h.sock.wndSend.nextseq
  base : h'.sock.wndSend.base - h.sock.wndSend.base ≤ h.sock.wndSend.nextseq - h.sock.wndSend.base

theorem Moved.same (hs : SameCursors h.sock h'.sock) : Moved h h' 0 where
  haveSendLen := by rw [hs.haveSendLen, Nat.cast_zero, add_zero]
  length := by rw [hs.sendingBuf, Nat.add_zero]
  cut := by rw [hs.sendingBuf, Nat.sub_self]
  nextseq := hs.nextseq
  base := by rw [hs.base, BitVec.sub_self]; exact Nat.zero_le _

/-- An ACK that is not above the window. -/
theorem handleAck_moved {now : ℕ} {pkt : Buf} (hc : Cursors h.sock) (hok : AckOk h.sock (getAck pkt))
    (he : handleAck now h pkt = some h') : ∃ c, Moved h h' c := by
  have hfl := hc.flight_toNat
  have h1 := hc.ack_le
  have h2 := hc.have_le
  have h3 := hc.len_le
  by_cases hle : getAck pkt ≤ h.sock.wndSend.base
  · obtain ⟨h'', he', -, hsame, -⟩ := handleAck_old now hle
    rw [he] at he'
    cases he'
    exact ⟨0, .same hsame⟩
  · have hin : (getAck pkt - h.sock.wndSend.base).toNat ≤
        (h.sock.wndSend.nextseq - h.sock.wndSend.base).toNat := by
      rcases hok with hlow | hin
      · exact absurd hlow (by bv_omega)
      · exact hin
    obtain ⟨h'', c, he', -, -, hcc, hbuf, hhave, -, hbase, hnext⟩ := handleAck_new now
      (show h.sock.wndSend.base < getAck pkt by bv_omega)
      (show h.sock.haveSendLen = (h.sock.haveSendLen.toNat : ℕ) by omega) (by omega) (by omega) h3
    rw [he] at he'
    cases he'
    have hcl := hcc.le.trans (cleaned_le ..)
    refine ⟨c, ?_, ?_, ?_, hnext, by rw [hbase]; exact hin⟩
    · rw [hhave]; omega
    · rw [hbuf, List.length_drop]; omega
    · rw [hbuf, List.length_drop]; omega

/-- **Every step that is no pass of `sending_thread`** takes bytes off the front at most. -/
theorem sockStep_moved (hc : Cursors h.sock) (hok : AcksOk h e) (hne : isSendPass e = false)
    (he : sockStep h e = some h') : ∃ c, Moved h h' c := by
  cases e with
  | append data =>
    obtain ⟨sock', ha, rfl⟩ := Option.map_eq_some_iff.1 he
    obtain ⟨-, rfl⟩ := appendData_eq_some ha
    refine ⟨0, by simp, ?_, ?_, rfl, by rw [BitVec.sub_self]; exact Nat.zero_le _⟩
    · simp
    · simp
  | sendPass now => cases hne
  | retransPass =>
    obtain ⟨t, out, ht, -, hsame, -⟩ := retransThread_spec hc
    simp only [sockStep, ht, Option.map_some, Option.some.injEq] at he
    exact ⟨0, he ▸ .same hsame⟩
  | alarm => cases he; exact ⟨0, .same (SameCursors.refl _)⟩
  | packet now pkt =>
    obtain ⟨⟨t, out⟩, ht, rfl⟩ := Option.map_eq_some_iff.1 he
    rcases handle_sending ht with ⟨hsame, -⟩ | ⟨hs, hf, ha⟩
    · exact ⟨0, .same hsame⟩
    · exact handleAck_moved hc (hok hs hf) ha
  | recv len =>
    simp only [sockStep] at he
    split_ifs at he
    obtain ⟨⟨sock', bytes⟩, hr, rfl⟩ := Option.map_eq_some_iff.1 he
    obtain ⟨-, rfl, -⟩ := tjuRecv_eq_some hr
    exact ⟨0, .same ⟨rfl, rfl, rfl, rfl, rfl⟩⟩

/-! ## The size of the window -/

/-- The window, and the one that the peer has advertised, are at most `len`. -/
def WindowLe (w : SenderWindow) (len : ℕ) : Prop := w.windowSize.toNat ≤ len ∧ w.rwnd.toNat ≤ len

theorem WindowLe.mono {w : SenderWindow} {m n : ℕ} (hw : WindowLe w m) (hmn : m ≤ n) : WindowLe w n :=
  ⟨hw.1.trans hmn, hw.2.trans hmn⟩

theorem refresh_windowLe (w : SenderWindow) : WindowLe w.refresh w.rwnd.toNat := by
  refine ⟨?_, le_rfl⟩
  rw [SenderWindow.refresh, cmin_toNat]
  exact min_le_right _ _

theorem WindowLe.congr {v w : SenderWindow} {len : ℕ} (hv : WindowLe v len) (hs : SameWindow v w) :
    WindowLe w len := by
  rw [WindowLe, hs.windowSize, hs.rwnd]
  exact hv

theorem dupAck_windowLe (h : Host) : WindowLe (dupAck h).sock.wndSend h.sock.wndSend.rwnd.toNat := by
  rw [← countDup_rwnd]
  unfold dupAck
  dsimp only
  split_ifs <;> exact refresh_windowLe _

theorem newAck_windowLe {now : ℕ} {ack : BitVec 32} (he : newAck now h ack = some h') :
    WindowLe h'.sock.wndSend h.sock.wndSend.rwnd.toNat := by
  have hle := refresh_windowLe (growCwnd { h.sock.wndSend with sameAckCnt := 0 })
  rw [growCwnd_rwnd] at hle
  exact hle.congr (newAck_window he).1

/-- After an ACK the window is at most the one that it advertises. -/
theorem handleAck_windowLe {now : ℕ} {pkt : Buf} (he : handleAck now h pkt = some h') :
    WindowLe h'.sock.wndSend (getAdvertisedWindow pkt).toNat := by
  have hadv : ((getAdvertisedWindow pkt).setWidth 32).toNat = (getAdvertisedWindow pkt).toNat := by
    have := (getAdvertisedWindow pkt).isLt
    rw [BitVec.toNat_setWidth]
    omega
  rw [← hadv]
  unfold handleAck at he
  simp only [Option.bind_eq_bind, Option.bind_some] at he
  split_ifs at he
  · cases he
    rw [zeroWindow_wndSend]
    exact refresh_windowLe _
  · cases he
    rw [zeroWindow_wndSend]
    exact dupAck_windowLe _
  · obtain ⟨h₁, ha, he⟩ := Option.bind_eq_some_iff.1 he
    cases he
    rw [zeroWindow_wndSend]
    exact newAck_windowLe ha

theorem timeoutWindow_windowLe (w : SenderWindow) : WindowLe (timeoutWindow w) w.rwnd.toNat := by
  refine ⟨?_, le_rfl⟩
  rw [timeoutWindow, cmin_toNat]
  exact min_le_right _ _

theorem retransThread_windowLe {len : ℕ} {out : List Buf} (hw : WindowLe h.sock.wndSend len)
    (he : retransThread h = some (h', out)) : WindowLe h'.sock.wndSend len := by
  unfold retransThread at he
  split_ifs at he
  · cases he; exact hw
  · cases he; exact hw
  · cases he; exact hw
  · rw [retransmit_wndSend he]
    split_ifs
    · exact (timeoutWindow_windowLe _).mono hw.2
    · exact hw
  · cases he; exact hw

/-- A step that advertises a window of `m` bytes leaves one of at most the largest so far. -/
theorem sockStep_windowLe {len : ℕ} (hw : WindowLe h.sock.wndSend len) (hne : isSendPass e = false)
    (he : sockStep h e = some h') : WindowLe h'.sock.wndSend (max len (advertises e)) := by
  have hmax : len ≤ max len (advertises e) := le_max_left _ _
  cases e with
  | append data =>
    obtain ⟨sock', ha, rfl⟩ := Option.map_eq_some_iff.1 he
    obtain ⟨-, rfl⟩ := appendData_eq_some ha
    exact hw.mono hmax
  | sendPass now => cases hne
  | retransPass =>
    obtain ⟨⟨t, out⟩, ht, rfl⟩ := Option.map_eq_some_iff.1 he
    exact (retransThread_windowLe hw ht).mono hmax
  | alarm => cases he; exact hw.mono hmax
  | packet now pkt =>
    obtain ⟨⟨t, out⟩, ht, rfl⟩ := Option.map_eq_some_iff.1 he
    rcases handle_sending ht with ⟨-, hsame⟩ | ⟨-, -, ha⟩
    · rw [hsame]
      exact hw.mono hmax
    · exact (handleAck_windowLe ha).mono (le_max_right _ _)
  | recv n =>
    simp only [sockStep] at he
    split_ifs at he
    obtain ⟨⟨sock', bytes⟩, hr, rfl⟩ := Option.map_eq_some_iff.1 he
    obtain ⟨-, rfl, -⟩ := tjuRecv_eq_some hr
    exact hw.mono hmax

/-! ## What a sample says -/

/-- What holds of a sample until it is used. -/
structure Sampled (s : SplitSend) (smp : Sample) : Prop where
  nextseq : smp.nextseq = s.host.sock.wndSend.nextseq
  haveSendLen : s.host.sock.haveSendLen + s.dropped =
    smp.ackCnt.toNat + (smp.nextseq - smp.base).toNat
  unsent : s.host.sock.haveSendLen < s.host.sock.sendingBuf.length
  room : s.host.sock.haveSendLen + s.dropped < smp.ackCnt.toNat + smp.windowSize.toNat
  ackCnt : smp.ackCnt.toNat ≤ maxSockBufSize
  window : smp.windowSize.toNat ≤ max maxRwindowSize s.maxAdv
  base : s.host.sock.wndSend.base - smp.base ≤ smp.nextseq - smp.base

structure SplitInv (s : SplitSend) : Prop where
  cursors : Cursors s.host.sock
  window : WindowLe s.host.sock.wndSend (max maxRwindowSize s.maxAdv)
  maxAdv : s.maxAdv < 2 ^ 16
  sampled : ∀ smp, s.sample = some smp → Sampled s smp

theorem splitInv_start (a b : TjuSockAddr) : SplitInv (.start a b) where
  cursors := establishedHost_cursors a b
  window := by
    constructor <;> simp [SplitSend.start, establishedHost, tjuSocket, SenderWindow.init]
  maxAdv := by simp [SplitSend.start]
  sampled _ h := by cases h

/-! ## One step -/

/-- What was sampled is kept by every step that is no pass of `sending_thread`. -/
theorem sampled_sock (hi : SplitInv s) (hok : AcksOk s.host e) (hne : isSendPass e = false)
    (he : sockStep s.host e = some h') (hs : Sampled s smp) :
    Sampled { s with
      host := h'
      dropped := s.dropped + (s.host.sock.sendingBuf.length - h'.sock.sendingBuf.length)
      maxAdv := max s.maxAdv (advertises e) } smp := by
  obtain ⟨c, hm⟩ := sockStep_moved hi.cursors hok hne he
  have hhave := hm.haveSendLen
  have hlen := hm.length
  have hbase := hm.base
  have hb := hs.base
  refine ⟨hs.nextseq.trans hm.nextseq.symm, ?_, ?_, ?_, hs.ackCnt, ?_, ?_⟩
  · rw [← hs.haveSendLen, hm.cut, ← hhave]
    push_cast
    ring
  · have := hs.unsent
    show h'.sock.haveSendLen < h'.sock.sendingBuf.length
    omega
  · have := hs.room
    show h'.sock.haveSendLen + ((s.dropped + _ : ℕ) : ℤ) < _
    rw [hm.cut]
    push_cast
    omega
  · have := hs.window
    show smp.windowSize.toNat ≤ max maxRwindowSize (max s.maxAdv (advertises e))
    omega
  · show h'.sock.wndSend.base - smp.base ≤ smp.nextseq - smp.base
    rw [hs.nextseq] at hb ⊢
    bv_omega

/-- A sample says what its test has found. -/
theorem sampled_sample (hi : SplitInv s) (he : sendSample s.host = some smp) :
    Sampled { s with sample := some smp, dropped := 0 } smp := by
  obtain ⟨-, hlt, hroom, -, rfl⟩ := sendSample_eq_some_iff.1 he
  have h1 := hi.cursors.ack_le
  have h2 := hi.cursors.have_le
  have h3 := hi.cursors.len_le
  have hfl := hi.cursors.flight_toNat
  have hw := hi.window.1
  have hadv := hi.maxAdv
  simp only [maxSockBufSize, maxLen] at h3
  simp only [maxRwindowSize, maxDlen] at hw
  refine ⟨rfl, ?_, hlt, ?_, ?_, hi.window.1, ?_⟩
  · show s.host.sock.haveSendLen + ((0 : ℕ) : ℤ) = (s.host.sock.wndSend.ackCnt.toNat : ℤ) +
      (s.host.sock.wndSend.nextseq - s.host.sock.wndSend.base).toNat
    omega
  · -- the sum of the test does not wrap around
    show s.host.sock.haveSendLen + ((0 : ℕ) : ℤ) < _
    bv_omega
  · show s.host.sock.wndSend.ackCnt.toNat ≤ maxSockBufSize
    simp only [maxSockBufSize, maxLen]
    omega
  · show s.host.sock.wndSend.base - s.host.sock.wndSend.base ≤ _
    rw [BitVec.sub_self]
    exact Nat.zero_le _

theorem advertises_lt (e : SockEv) : advertises e < 2 ^ 16 := by
  cases e with
  | packet now pkt => exact (getAdvertisedWindow pkt).isLt
  | _ => exact Nat.two_pow_pos _

theorem splitInv_step {e : SplitEv} (hi : SplitInv s) (hok : SplitAcksOk s e)
    (he : splitStep s e = some s') : SplitInv s' := by
  cases e with
  | sock e =>
    simp only [splitStep] at he
    split_ifs at he with hp
    obtain ⟨h', hk, rfl⟩ := Option.map_eq_some_iff.1 he
    have hne : isSendPass e = false := by simpa using hp
    refine ⟨cursors_step hi.cursors hok hk, ?_, ?_, ?_⟩
    · exact (sockStep_windowLe hi.window hne hk).mono (max_assoc ..).le
    · exact max_lt hi.maxAdv (advertises_lt e)
    · exact fun smp hsmp => sampled_sock hi hok hne hk (hi.sampled smp hsmp)
  | sample =>
    simp only [splitStep] at he
    split_ifs at he
    obtain ⟨smp, hs, rfl⟩ := Option.map_eq_some_iff.1 he
    refine ⟨hi.cursors, hi.window, hi.maxAdv, fun smp' hsmp => ?_⟩
    cases hsmp
    exact sampled_sample hi hs
  | batch now =>
    obtain ⟨smp, hs, rfl⟩ := Option.map_eq_some_iff.1 he
    exact ⟨hi.cursors.sendBatch now (hi.sampled smp hs).nextseq, hi.window.congr (sendBatch_window ..),
      hi.maxAdv, fun smp' hsmp => by cases hsmp⟩

theorem splitInv_reached {a b : TjuSockAddr} (hr : ReachBy splitStep SplitAcksOk (.start a b) s) :
    SplitInv s :=
  hr.inv (splitInv_start a b) fun _ _ _ => splitInv_step

/-! ## The bytes of the batch -/

/-- Nothing was cleaned up since the sample, or the stream ends inside the sampled window. -/
def FitsSample (s : SplitSend) (smp : Sample) : Prop :=
  s.dropped = 0 ∨
    s.host.sock.sendingBuf.length + s.dropped ≤ smp.ackCnt.toNat + smp.windowSize.toNat

/-- The packets of the batch, and the numbers of their bytes counted from any `base`. -/
theorem sendBatch_within (now : ℕ) (hi : SplitInv s) (hs : Sampled s smp) {d : BitVec 32}
    (hd : d.toNat < 2 ^ 31) (hseq : smp.nextseq = base + d) (len : ℕ) :
    Within base len (sendBatch now smp s.host).2 ↔
      d.toNat + min s.host.sock.sendingBuf.length (smp.ackCnt.toNat + smp.windowSize.toNat) ≤
        len + s.host.sock.haveSendLen := by
  have h1 := hi.cursors.ack_le
  have h3 := hi.cursors.len_le
  have hroom := hs.room
  have hun := hs.unsent
  have hack := hs.ackCnt
  have hw := hs.window
  have hadv := hi.maxAdv
  obtain ⟨n, hn, -, -, hem, -⟩ := sendBatch_spec now smp
    (show s.host.sock.haveSendLen = (s.host.sock.haveSendLen.toNat : ℕ) by omega) (by omega) h3
  simp only [maxSockBufSize, maxLen] at h3 hack
  simp only [maxRwindowSize, maxDlen] at hw
  have hsum : (smp.ackCnt + smp.windowSize).toNat = smp.ackCnt.toNat + smp.windowSize.toNat := by
    bv_omega
  rw [hsum] at hn
  rw [hem.within (by omega) hd hseq]
  constructor
  · intro hall
    have hlast := hall (n - 1) (by omega) (by omega)
    omega
  · intro hle k hk1 hk2
    omega

/-- The batch stays inside the sampled window just if the sample fits. -/
theorem sendBatch_sampled (now : ℕ) (hi : SplitInv s) (hs : Sampled s smp) :
    Within smp.base smp.windowSize.toNat (sendBatch now smp s.host).2 ↔ FitsSample s smp := by
  have h1 := hi.cursors.ack_le
  have h3 := hi.cursors.have_le.trans (Int.ofNat_le.2 hi.cursors.len_le)
  have hroom := hs.room
  have hhave := hs.haveSendLen
  have hw := hs.window
  have hadv := hi.maxAdv
  simp only [maxRwindowSize, maxDlen] at hw
  rw [sendBatch_within now hi hs (d := smp.nextseq - smp.base) (by omega) (by bv_omega), FitsSample]
  omega

/-! ## A run up to the clean-up -/

/-- A send window that is not smaller than one segment, after `n` bytes in whole segments. -/
structure OpenWindow (n : ℕ) (w : SenderWindow) : Prop where
  windowSize : w.windowSize = 1375
  ssthresh : w.ssthresh = 22000
  cwnd_ge : 1375 ≤ w.cwnd.toNat
  cwnd_le : w.cwnd.toNat ≤ 22000 + n
  status : w.windowStatus = .slowStart ∨ w.windowStatus = .congestionAvoidance
  rwnd : 1375 ≤ w.rwnd.toNat

/-- The first `n` of `len` bytes are sent and acknowledged, and the others are not sent. -/
structure Quiet (len n : ℕ) (h : Host) : Prop where
  state : h.sock.state = .established
  length : h.sock.sendingBuf.length = len
  haveSendLen : h.sock.haveSendLen = n
  ackCnt : h.sock.wndSend.ackCnt.toNat = n
  base : h.sock.wndSend.base = .ofNat 32 (1 + n)
  nextseq : h.sock.wndSend.nextseq = .ofNat 32 (1 + n)
  window : OpenWindow n h.sock.wndSend
  isRetransing : h.sock.isRetransing = false

theorem OpenWindow.congr {v w : SenderWindow} {n : ℕ} (hv : OpenWindow n v) (hs : SameWindow v w) :
    OpenWindow n w := by
  refine ⟨?_, ?_, ?_, ?_, ?_, ?_⟩
  · rw [hs.windowSize]; exact hv.windowSize
  · rw [hs.ssthresh]; exact hv.ssthresh
  · rw [hs.cwnd]; exact hv.cwnd_ge
  · rw [hs.cwnd]; exact hv.cwnd_le
  · rw [hs.windowStatus]; exact hv.status
  · rw [hs.rwnd]; exact hv.rwnd

/-- An ACK for one more segment that advertises a window of one segment. -/
theorem OpenWindow.ack {w : SenderWindow} {n : ℕ} (hw : OpenWindow n w) (hn : n < 2 ^ 23) :
    OpenWindow (n + 1375) (growCwnd { w with rwnd := 1375, sameAckCnt := 0 }).refresh := by
  have h1 := hw.cwnd_ge
  have h2 := hw.cwnd_le
  have hs := hw.ssthresh
  have hs' : w.ssthresh.toNat = 22000 := by simp [hs]
  have hwin : ∀ c : BitVec 32, 1375 ≤ c.toNat → cmin c 1375 = 1375 := fun c hc => by
    unfold cmin
    rw [if_neg (by bv_omega)]
  rcases hw.status with hst | hst
  · by_cases hgrow : w.cwnd * 2 ≥ w.ssthresh
    · have hg : growCwnd { w with rwnd := 1375, sameAckCnt := 0 } =
          { w with
            rwnd := 1375
            sameAckCnt := 0
            cwnd := w.ssthresh
            windowStatus := .congestionAvoidance } := by
        simp only [growCwnd, hst, if_pos hgrow]
      rw [hg]
      refine ⟨?_, hs, ?_, ?_, Or.inr rfl, le_rfl⟩
      · exact hwin w.ssthresh (by omega)
      · show 1375 ≤ w.ssthresh.toNat
        omega
      · show w.ssthresh.toNat ≤ _
        omega
    · have hg : growCwnd { w with rwnd := 1375, sameAckCnt := 0 } =
          { w with rwnd := 1375, sameAckCnt := 0, cwnd := w.cwnd * 2 } := by
        simp only [growCwnd, hst, if_neg hgrow]
      rw [hs] at hgrow
      have hdouble : (w.cwnd * 2).toNat = w.cwnd.toNat * 2 := by bv_omega
      rw [hg]
      refine ⟨hwin (w.cwnd * 2) (by omega), hs, ?_, ?_, Or.inl hst, le_rfl⟩
      · show 1375 ≤ (w.cwnd * 2).toNat
        omega
      · show (w.cwnd * 2).toNat ≤ _
        bv_omega
  · have hg : growCwnd { w with rwnd := 1375, sameAckCnt := 0 } =
        { w with rwnd := 1375, sameAckCnt := 0, cwnd := w.cwnd + .ofNat 32 maxDlen } := by
      simp only [growCwnd, hst]
    have hadd : (w.cwnd + .ofNat 32 maxDlen).toNat = w.cwnd.toNat + 1375 := by
      simp only [maxDlen]; bv_omega
    rw [hg]
    generalize w.cwnd + .ofNat 32 maxDlen = c at hadd
    refine ⟨hwin c (by omega), hs, ?_, ?_, Or.inr hst, le_rfl⟩
    · show 1375 ≤ c.toNat
      omega
    · show c.toNat ≤ _
      omega

/-- An ACK with the number `ack` that advertises a window of one segment. -/
def segmentAck (ack : BitVec 32) : Buf := wire ⟨1234, 5678, 1, ack, 20, 20, ackFlagMask, 1375, 0⟩ []

theorem segmentAck_ack (ack : BitVec 32) : getAck (segmentAck ack) = ack := getAck_wire ..

theorem segmentAck_flags (ack : BitVec 32) : getFlags (segmentAck ack) = ackFlagMask :=
  getFlags_wire ..

theorem segmentAck_window (ack : BitVec 32) : getAdvertisedWindow (segmentAck ack) = 1375 :=
  getAdvertisedWindow_wire ..

/-- An ACK above `base`, one segment wide. -/
theorem handleAck_segment {now : ℕ} {ack : BitVec 32} (hlt : h.sock.wndSend.base < ack)
    (he : handleAck now h (segmentAck ack) = some h') :
    SameWindow (growCwnd { h.sock.wndSend with rwnd := 1375, sameAckCnt := 0 }).refresh
        h'.sock.wndSend ∧
      (ack = h.sock.wndSend.nextseq → h'.sock.isRetransing = false) := by
  unfold handleAck at he
  simp only [Option.bind_eq_bind, segmentAck_ack, segmentAck_window] at he
  rw [if_neg (show ¬ ack < h.sock.wndSend.base by bv_omega),
    if_neg (show ¬ ack = h.sock.wndSend.base by bv_omega)] at he
  obtain ⟨h₁, hn, he⟩ := Option.bind_eq_some_iff.1 he
  cases he
  obtain ⟨hw, hr⟩ := newAck_window hn
  rw [zeroWindow_wndSend]
  refine ⟨hw, fun hack => ?_⟩
  unfold zeroWindow
  split_ifs
  · rfl
  · exact hr hack

variable {a b : TjuSockAddr} {len n : ℕ}

/-- A state of a run between two passes of `sending_thread`. -/
structure Idle (a b : TjuSockAddr) (s : SplitSend) : Prop where
  run : ReachBy splitStep SplitAcksOk (.start a b) s
  sample : s.sample = none

/-- A step other than a sample or a batch. -/
theorem Idle.step (hi : Idle a b s) (hne : isSendPass e = false) (hok : AcksOk s.host e)
    (he : sockStep s.host e = some h') : ∃ s', Idle a b s' ∧ s'.host = h' := by
  refine ⟨{ s with
    host := h'
    dropped := s.dropped + (s.host.sock.sendingBuf.length - h'.sock.sendingBuf.length)
    maxAdv := max s.maxAdv (advertises e) }, ⟨hi.run.tail (e := .sock e) hok ?_, hi.sample⟩, rfl⟩
  simp only [splitStep, hne, he]
  rfl

/-- `tju_send` copies some bytes. -/
theorem Idle.append (hi : Idle a b s) {m : ℕ}
    (hfit : s.host.sock.sendingBuf.length + m ≤ maxSockBufSize) :
    ∃ s' data, Idle a b s' ∧ data.length = m ∧ s'.host = { s.host with sock :=
      { s.host.sock with sendingBuf := s.host.sock.sendingBuf ++ data } } := by
  obtain ⟨data, rfl⟩ : ∃ data : List Byte, data.length = m :=
    ⟨List.replicate m 0, List.length_replicate⟩
  have happ : appendData s.host.sock data =
      some { s.host.sock with sendingBuf := s.host.sock.sendingBuf ++ data } := if_pos hfit
  obtain ⟨s', hi', hs'⟩ := hi.step (e := .append data) rfl trivial (congrArg (Option.map _) happ)
  exact ⟨s', data, hi', rfl, hs'⟩

/-- A sample and its batch. -/
theorem Idle.pass (hi : Idle a b s) (hs : sendSample s.host = some smp) :
    ∃ s', Idle a b s' ∧ s'.host = (sendBatch 0 smp s.host).1 := by
  have h1 : splitStep s .sample = some { s with sample := some smp, dropped := 0 } := by
    simp only [splitStep, hi.sample, hs]
    rfl
  exact ⟨_, ⟨(hi.run.tail (e := SplitEv.sample) trivial h1).tail (e := SplitEv.batch 0) trivial rfl, rfl⟩, rfl⟩

theorem Quiet.sample (hq : Quiet len n h) (hlt : n < len) (hn : n < 2 ^ 23) :
    sendSample h = some ⟨h.sock.wndSend.windowSize, h.sock.wndSend.ackCnt, h.sock.wndSend.base,
      h.sock.wndSend.nextseq⟩ := by
  have hw := hq.window.windowSize
  have hack := hq.ackCnt
  have hhave := hq.haveSendLen
  have hlen := hq.length
  exact sendSample_eq_some_iff.2 ⟨by rw [hw]; decide, by omega, by rw [hw, hhave]; bv_omega,
    hq.isRetransing, rfl⟩

/-- What a pass of `sending_thread` does in a quiet state. -/
theorem Quiet.batch (hq : Quiet len n h) (hlt : n < len) (hlen : len ≤ maxSockBufSize) {m : ℕ}
    (hm : m = min len (n + 1375)) :
    let t := (sendBatch 0 ⟨h.sock.wndSend.windowSize, h.sock.wndSend.ackCnt, h.sock.wndSend.base,
      h.sock.wndSend.nextseq⟩ h).1
    t.sock.state = .established ∧ t.sock.sendingBuf = h.sock.sendingBuf ∧ t.sock.haveSendLen = m ∧
      t.sock.wndSend.ackCnt = h.sock.wndSend.ackCnt ∧
      t.sock.wndSend.base = .ofNat 32 (1 + n) ∧ t.sock.wndSend.nextseq = .ofNat 32 (1 + m) ∧
      OpenWindow n t.sock.wndSend := by
  have hack := hq.ackCnt
  have hbl := hq.length
  have hw := hq.window.windowSize
  obtain ⟨k, hk, hhave, hnext, -, hrest, hbuf, hackt, hbase, -⟩ := sendBatch_spec 0
    ⟨h.sock.wndSend.windowSize, h.sock.wndSend.ackCnt, h.sock.wndSend.base, h.sock.wndSend.nextseq⟩
    hq.haveSendLen (by omega) (by rw [hbl]; exact hlen)
  simp only [maxSockBufSize, maxLen] at hlen
  have hsum : (h.sock.wndSend.ackCnt + h.sock.wndSend.windowSize).toNat = n + 1375 := by
    rw [hw]; bv_omega
  simp only [hsum, hbl] at hk
  have hkm : k = m := by omega
  refine ⟨hrest.state.trans hq.state, hbuf, hkm ▸ hhave, hackt, hbase.trans hq.base, ?_,
    hq.window.congr (sendBatch_window ..)⟩
  rw [hnext, hkm]
  show h.sock.wndSend.nextseq + _ = _
  rw [hq.nextseq]
  bv_omega

/-- **One round**: a segment is sent, and acknowledged. -/
theorem quiet_round (hi : Idle a b s) (hq : Quiet len n s.host) (hlt : n + 1375 < len)
    (hn : n + 1375 ≤ 6720000) (hlen : len ≤ maxSockBufSize) :
    ∃ s', Idle a b s' ∧ Quiet len (n + 1375) s'.host := by
  have hack := hq.ackCnt
  have hbl := hq.length
  obtain ⟨s₁, hi₁, hs₁⟩ := hi.pass (hq.sample (by omega) (by omega))
  obtain ⟨hst, hbuf, hhave, hackt, hbase, hnext, hw⟩ := hq.batch (by omega) hlen
    (show n + 1375 = min len (n + 1375) by omega)
  rw [← hs₁] at hst hbuf hhave hackt hbase hnext hw
  have hdiff : (BitVec.ofNat 32 (1 + (n + 1375)) - s₁.host.sock.wndSend.base).toNat = 1375 := by
    rw [hbase]; bv_omega
  obtain ⟨h₂, c, he, hrest, -, hcc, hbuf₂, hhave₂, hack₂, hbase₂, hnext₂⟩ := handleAck_new 0
    (show s₁.host.sock.wndSend.base < getAck (segmentAck (.ofNat 32 (1 + (n + 1375)))) by
      rw [segmentAck_ack, hbase]; bv_omega) hhave
    (by rw [segmentAck_ack, hdiff, hackt]; omega) (by rw [hbuf]; omega) (by rw [hbuf]; omega)
  rw [segmentAck_ack] at hcc hack₂ hbase₂
  rw [hdiff, hackt, hack] at hcc hack₂
  -- nothing is cleaned up yet
  have hc : c = 0 := by
    rw [hcc, hbuf, hbl]
    refine if_neg ?_
    simp only [maxSockBufSize, maxLen]
    omega
  subst hc
  obtain ⟨hwin, hret⟩ := handleAck_segment (by rw [hbase]; bv_omega) he
  obtain ⟨s₂, hi₂, hs₂⟩ := hi₁.step (e := .packet 0 (segmentAck (.ofNat 32 (1 + (n + 1375))))) rfl
    (fun _ _ => Or.inr (by
      rw [AckInWindow, segmentAck_ack, hnext]
      exact BitVec.le_refl _))
    (show (tjuHandlePacket 0 s₁.host _).map Prod.fst = some h₂ by
      rw [handle_ack hst (segmentAck_flags _), he]; rfl)
  refine ⟨s₂, hi₂, ?_⟩
  rw [hs₂]
  exact ⟨hrest.state.trans hst, by rw [hbuf₂, hbuf]; exact hbl, hhave₂, hack₂, hbase₂,
    hnext₂.trans hnext, (hw.ack (by omega)).congr hwin, hret hnext.symm⟩

/-- **The rounds**: any number of segments is sent and acknowledged, below the clean-up. -/
theorem quiet_rounds (hi : Idle a b s) (hq : Quiet len 0 s.host) (hlen : len ≤ maxSockBufSize)
    (i : ℕ) (h1 : 1375 * i < len) (h2 : 1375 * i ≤ 6720000) :
    ∃ s', Idle a b s' ∧ Quiet len (1375 * i) s'.host := by
  induction i with
  | zero => exact ⟨s, hi, hq⟩
  | succ i ih =>
    obtain ⟨s', hi', hq'⟩ := ih (by omega) (by omega)
    exact quiet_round hi' hq' (by omega) (by omega) hlen

/-- A timeout, and the retransmission that it starts, end with `is_retransing` FALSE. -/
theorem retransmit_done {out : List Buf} (he : retransmit h = some (h', out)) :
    h'.sock.isRetransing = false := by
  unfold retransmit at he
  dsimp only at he
  split_ifs at he <;> cases he <;> rfl

theorem timeout_pass (hi : Idle a b s) (hw : OpenWindow n s.host.sock.wndSend) :
    ∃ s', Idle a b s' ∧ SameCursors s.host.sock s'.host.sock ∧
      s'.host.sock.state = s.host.sock.state ∧ s'.host.sock.isRetransing = false ∧
      s'.host.sock.wndSend.windowSize = 1375 := by
  by_cases hr : s.host.sock.isRetransing = false
  · exact ⟨s, hi, SameCursors.refl _, rfl, hr, hw.windowSize⟩
  · obtain ⟨s₁, hi₁, hs₁⟩ := hi.step (e := .alarm) rfl trivial rfl
    have hc := (splitInv_reached hi₁.run).cursors
    obtain ⟨t, out, ht, hrest, hsame, -⟩ := retransThread_spec hc
    obtain ⟨s₂, hi₂, hs₂⟩ := hi₁.step (e := .retransPass) rfl trivial
      (show (retransThread s₁.host).map Prod.fst = some t by rw [ht]; rfl)
    have hre : retransmit s₁.host = some (t, out) := by
      rw [← ht, hs₁]
      unfold retransThread timeoutHandler
      rw [if_pos rfl, if_neg (by show ¬ s.host.sock.wndSend.windowSize = 0; rw [hw.windowSize]; decide),
        if_neg hr]
    have hwnd : t.sock.wndSend = timeoutWindow s.host.sock.wndSend := by
      rw [retransmit_wndSend hre, hs₁]; rfl
    rw [hs₁] at hrest hsame
    refine ⟨s₂, hi₂, ?_, ?_, ?_, ?_⟩
    · rw [hs₂]; exact hsame
    · rw [hs₂]; exact hrest.state
    · rw [hs₂]; exact retransmit_done hre
    · have h1 := hw.rwnd
      rw [hs₂, hwnd]
      show cmin (.ofNat 32 maxDlen) s.host.sock.wndSend.rwnd = 1375
      have h2 : (cmin (.ofNat 32 maxDlen) s.host.sock.wndSend.rwnd).toNat = 1375 := by
        rw [cmin_toNat]; simp only [maxDlen, BitVec.toNat_ofNat]; omega
      exact BitVec.eq_of_toNat_eq h2

/-- A stream that ends in the middle of a segment, just above the bound of the clean-up. -/
def longLen : ℕ := 6720001

/-- The last bytes of a long stream are in flight, and `is_retransing` is FALSE again. -/
theorem long_inflight (a b : TjuSockAddr) : ∃ s, Idle a b s ∧ s.host.sock.state = .established ∧
    s.host.sock.sendingBuf.length = longLen ∧ s.host.sock.haveSendLen = longLen ∧
    s.host.sock.wndSend.ackCnt.toNat = 6719625 ∧ s.host.sock.wndSend.base = .ofNat 32 6719626 ∧
    s.host.sock.wndSend.nextseq = .ofNat 32 6720002 ∧ s.host.sock.isRetransing = false ∧
    s.host.sock.wndSend.windowSize = 1375 := by
  have hfit : longLen ≤ maxSockBufSize := by decide
  -- `tju_send` copies the whole stream
  obtain ⟨s₀, data, hi₀, hdata, hs₀⟩ := (show Idle a b (.start a b) from ⟨ReachBy.refl, rfl⟩).append
    (m := longLen) ((Nat.zero_add _).le.trans hfit)
  have hq₀ : Quiet longLen 0 s₀.host := by
    rw [hs₀]
    refine ⟨rfl, hdata, rfl, rfl, rfl, rfl, ⟨rfl, rfl, ?_, ?_, Or.inl rfl, ?_⟩, rfl⟩
    all_goals simp [SplitSend.start, establishedHost, tjuSocket, SenderWindow.init]
  obtain ⟨s₁, hi₁, hq₁⟩ := quiet_rounds hi₀ hq₀ hfit 4887 (by decide) (by decide)
  obtain ⟨s₂, hi₂, hs₂⟩ := hi₁.pass (hq₁.sample (by decide) (by decide))
  obtain ⟨hst, hbuf, hhave, hack, hbase, hnext, hw⟩ := hq₁.batch (by decide) hfit
    (show longLen = min longLen (1375 * 4887 + 1375) by decide)
  rw [← hs₂] at hst hbuf hhave hack hbase hnext hw
  obtain ⟨s₃, hi₃, hsame, hst₃, hret, hwin⟩ := timeout_pass hi₂ hw
  refine ⟨s₃, hi₃, hst₃.trans hst, ?_, hsame.haveSendLen.trans hhave, ?_, hsame.base.trans hbase,
    hsame.nextseq.trans hnext, hret, hwin⟩
  · rw [hsame.sendingBuf, hbuf]; exact hq₁.length
  · rw [hsame.ackCnt, hack]; exact hq₁.ackCnt

/-- The clean-up comes between the sample and the batch, and 2000 more bytes are there to send. -/
theorem long_cleaned (a b : TjuSockAddr) : ∃ s smp, ReachBy splitStep SplitAcksOk (.start a b) s ∧
    s.sample = some smp ∧ ¬ FitsSample s smp := by
  obtain ⟨s, hi, hst, hlen, hhave, hack, hbase, hnext, hret, hwin⟩ := long_inflight a b
  obtain ⟨s₁, data, hi₁, hdata, hs₁⟩ := hi.append (m := 2000) (by rw [hlen]; decide)
  have hlen₁ : s₁.host.sock.sendingBuf.length = longLen + 2000 := by
    rw [hs₁, ← hlen, ← hdata]
    exact List.length_append
  have hst₁ : s₁.host.sock.state = .established := by rw [hs₁]; exact hst
  have hhave₁ : s₁.host.sock.haveSendLen = longLen := by rw [hs₁]; exact hhave
  have hwnd₁ : s₁.host.sock.wndSend = s.host.sock.wndSend := by rw [hs₁]
  have hret₁ : s₁.host.sock.isRetransing = false := by rw [hs₁]; exact hret
  have hsmp := sendSample_eq_some_iff (h := s₁.host).2 ⟨by rw [hwnd₁, hwin]; decide,
    by rw [hhave₁, hlen₁]; decide, by rw [hhave₁, hwnd₁, hwin, longLen]; bv_omega, hret₁, rfl⟩
  obtain ⟨h₂, c, he, -, -, hcc, hbuf₂, -⟩ := handleAck_new 0
    (show s₁.host.sock.wndSend.base < getAck (segmentAck (.ofNat 32 6720002)) by
      rw [segmentAck_ack, hwnd₁, hbase]; decide) hhave₁
    (by rw [segmentAck_ack, hwnd₁, hbase, hack]; decide) (by rw [hlen₁]; decide)
    (by rw [hlen₁]; decide)
  have hc : c = longLen := by
    rw [hcc, segmentAck_ack, hwnd₁, hbase, hack, hlen₁]
    decide
  have hsock : sockStep s₁.host (.packet 0 (segmentAck (.ofNat 32 6720002))) = some h₂ := by
    show (tjuHandlePacket 0 s₁.host _).map Prod.fst = _
    rw [handle_ack hst₁ (segmentAck_flags _), he]
    rfl
  have hrun := (hi₁.run.tail (e := SplitEv.sample) trivial (show splitStep s₁ .sample = some _ by
    simp only [splitStep, hi₁.sample, hsmp]; rfl)).tail
    (e := SplitEv.sock (.packet 0 (segmentAck (.ofNat 32 6720002))))
    (fun _ _ => Or.inr (by
      show getAck (segmentAck (.ofNat 32 6720002)) - s₁.host.sock.wndSend.base ≤ _
      rw [segmentAck_ack, hwnd₁, hbase, hnext]
      decide))
    (by simp only [splitStep, isSendPass, hsock]; rfl)
  refine ⟨_, _, hrun, rfl, ?_⟩
  have hlen₂ : h₂.sock.sendingBuf.length = 2000 := by
    rw [hbuf₂, List.length_drop, hlen₁, hc]; decide
  simp only [FitsSample, hlen₁, hlen₂, hwnd₁, hack, hwin]
  decide

/-- **First transmissions.**  In every run with genuine ACKs, `sending_thread` sends new bytes
    inside the window that it has sampled, and with the advertised windows in their range at most
    `MAX_SWINDOW_SIZE` above `base`, if and only if no clean-up came in between or the stream ends
    in that window. -/
theorem first_transmissions {a b : TjuSockAddr}
    (hr : ReachBy splitStep SplitAcksOk (.start a b) s) (hsmp : s.sample = some smp) (now : ℕ) :
    (Within smp.base smp.windowSize.toNat (sendBatch now smp s.host).2 ∧
      (s.maxAdv ≤ maxRwindowSize →
        Within s.host.sock.wndSend.base maxSwindowSize (sendBatch now smp s.host).2)) ↔
      FitsSample s smp := by
  have hi := splitInv_reached hr
  have hs := hi.sampled smp hsmp
  have h3 := hi.cursors.have_le.trans (Int.ofNat_le.2 hi.cursors.len_le)
  have hhave := hs.haveSendLen
  have hw := hs.window
  have hb := hs.base
  have hroom := hs.room
  have hadv := hi.maxAdv
  have hfl := hi.cursors.flight_toNat
  rw [← hs.nextseq] at hfl
  simp only [maxSockBufSize, maxLen] at h3
  simp only [maxRwindowSize, maxDlen] at hw
  have hsample := sendBatch_sampled now hi hs
  refine ⟨fun h => hsample.1 h.1, fun h => ⟨hsample.2 h, fun hmax => ?_⟩⟩
  -- `base` has moved up from the sampled one
  rw [sendBatch_within now hi hs (d := smp.nextseq - s.host.sock.wndSend.base) (by omega)
    (by bv_omega)]
  have hfit := hsample.2 h
  rw [sendBatch_within now hi hs (d := smp.nextseq - smp.base) (by omega) (by bv_omega)] at hfit
  simp only [maxRwindowSize, maxSwindowSize, maxDlen] at hmax ⊢
  bv_omega

/-- The client, with one byte to send. -/
def byteHost : Host := { clientHost with sock := { clientHost.sock with sendingBuf := [7] } }

/-- One byte is sampled, and sent. -/
theorem first_transmissions_byte :
    (Within 1 1375 (sendBatch 0 ⟨1375, 0, 1, 1⟩ byteHost).2 ∧
      (0 ≤ maxRwindowSize → Within 1 maxSwindowSize (sendBatch 0 ⟨1375, 0, 1, 1⟩ byteHost).2)) ↔
      FitsSample ⟨byteHost, some ⟨1375, 0, 1, 1⟩, 0, 0⟩ ⟨1375, 0, 1, 1⟩ :=
  have h1 : ReachBy splitStep SplitAcksOk (.start ⟨clientIp, 5678⟩ ⟨serverIp, 1234⟩)
      ⟨byteHost, none, 0, 0⟩ := ReachBy.one (e := SplitEv.sock (.append [7])) trivial rfl
  have h2 : splitStep ⟨byteHost, none, 0, 0⟩ .sample =
      some ⟨byteHost, some ⟨1375, 0, 1, 1⟩, 0, 0⟩ := rfl
  first_transmissions (h1.tail (e := SplitEv.sample) trivial h2) rfl 0

/-- A batch can leave the window that was sampled for it. -/
theorem first_transmissions_beyond : ¬ ∀ s smp now,
    ReachBy splitStep SplitAcksOk (.start ⟨clientIp, 5678⟩ ⟨serverIp, 1234⟩) s → s.sample = some smp →
    Within smp.base smp.windowSize.toNat (sendBatch now smp s.host).2 ∧
      (s.maxAdv ≤ maxRwindowSize →
        Within s.host.sock.wndSend.base maxSwindowSize (sendBatch now smp s.host).2) := by
  intro hall
  obtain ⟨s, smp, hr, hsmp, hno⟩ := long_cleaned ⟨clientIp, 5678⟩ ⟨serverIp, 1234⟩
  have hi := splitInv_reached hr
  exact hno ((sendBatch_sampled 0 hi (hi.sampled smp hsmp)).1 (hall s smp 0 hr hsmp).1)

end Tju
