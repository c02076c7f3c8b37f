/-
  Windows that close without the peer's request.

  `advStep` runs a process and remembers what the last ACK that was handled has
  advertised.  The window is the smaller one of `cwnd` and of that; so it is 0
  on the peer's request only, as long as `cwnd` is not 0.  Nothing in the
  congestion control keeps `cwnd` from 0: every fast retransmission halves it,
  and an ACK that ends the recovery does not raise it.

  * `ackWindow_open_iff`: which ACKs leave `cwnd` above 0;
  * `cwnd_open`: in every run of such ACKs the window is 0 on the peer's request
    only, and the ACKs that keep it so are exactly these;
  * `cwnd_halved_away`: eleven recoveries in a row close the window.
-/
import TjuTcp.Congestion
import TjuTcp.Lib.Simulation

namespace Tju

open Lib

/-- A process, and what the last ACK that it has handled advertised. -/
structure Advised where
  host : Host
  adv : Option (BitVec 16)

def Advised.start (a b : TjuSockAddr) : Advised := ⟨establishedHost a b, none⟩

def advStep (s : Advised) (e : SockEv) : Option Advised :=
  (sockStep s.host e).map fun h =>
    ⟨h, ((ackOf s.host e).map getAdvertisedWindow).or s.adv⟩

/-- The ACK with the number `ack` does not bring `cwnd` to 0: it starts no recovery with less than
    two bytes, no congestion avoidance with the threshold 0, and adds no segment that makes the
    32 bits wrap to 0. -/
structure AckOpen (w : SenderWindow) (ack : BitVec 32) : Prop where
  halve : ack = w.base → w.windowStatus ≠ .fastRecovery → w.sameAckCnt = 2 → 2 ≤ w.cwnd.toNat
  inflate : ack = w.base → w.windowStatus = .fastRecovery → w.cwnd.toNat + maxDlen ≠ 2 ^ 32
  slowStart : w.base < ack → w.windowStatus = .slowStart → w.ssthresh ≠ 0
  avoidance : w.base < ack → w.windowStatus = .congestionAvoidance →
    w.cwnd.toNat + maxDlen ≠ 2 ^ 32

/-- The guard on a step: an ACK that is handled does not bring `cwnd` to 0. -/
def KeepsOpen (s : Advised) (e : SockEv) : Prop :=
  ∀ pkt, ackOf s.host e = some pkt → AckOpen s.host.sock.wndSend (getAck pkt)

instance (w : SenderWindow) (ack : BitVec 32) : Decidable (AckOpen w ack) :=
  decidable_of_iff
    ((ack = w.base → w.windowStatus ≠ .fastRecovery → w.sameAckCnt = 2 → 2 ≤ w.cwnd.toNat) ∧
      (ack = w.base → w.windowStatus = .fastRecovery → w.cwnd.toNat + maxDlen ≠ 2 ^ 32) ∧
      (w.base < ack → w.windowStatus = .slowStart → w.ssthresh ≠ 0) ∧
      (w.base < ack → w.windowStatus = .congestionAvoidance → w.cwnd.toNat + maxDlen ≠ 2 ^ 32))
    ⟨fun ⟨h1, h2, h3, h4⟩ => ⟨h1, h2, h3, h4⟩, fun h => ⟨h.1, h.2, h.3, h.4⟩⟩

instance (s : Advised) : DecidablePred (KeepsOpen s) := fun e =>
  inferInstanceAs (Decidable (∀ pkt ∈ ackOf s.host e, AckOpen s.host.sock.wndSend (getAck pkt)))

variable {s s' : Advised} {e : SockEv} {v w : SenderWindow}

/-! ## One ACK -/

theorem add_maxDlen_ne (c : BitVec 32) :
    c + BitVec.ofNat 32 maxDlen ≠ 0 ↔ c.toNat + maxDlen ≠ 2 ^ 32 := by
  simp only [maxDlen]
  constructor <;> intro h <;> bv_omega

theorem half_ne (c : BitVec 32) : c >>> 1 ≠ 0 ↔ 2 ≤ c.toNat := by
  rw [Ne, ← BitVec.toNat_inj, BitVec.toNat_ushiftRight, Nat.shiftRight_eq_div_pow]
  have h0 : (0 : BitVec 32).toNat = 0 := rfl
  omega

theorem dupWindow_open_iff (hst : w.windowStatus ≠ .timeout) (h0 : w.cwnd ≠ 0) :
    (dupWindow w).cwnd ≠ 0 ↔
      (w.windowStatus ≠ .fastRecovery → w.sameAckCnt = 2 → 2 ≤ w.cwnd.toNat) ∧
        (w.windowStatus = .fastRecovery → w.cwnd.toNat + maxDlen ≠ 2 ^ 32) := by
  by_cases hfr : w.windowStatus = .fastRecovery
  · rw [dupWindow_recovery hfr]
    refine (add_maxDlen_ne w.cwnd).trans ⟨fun h => ⟨fun h' => absurd hfr h', fun _ => h⟩, fun h => ?_⟩
    exact h.2 hfr
  · by_cases hcnt : w.sameAckCnt = 2
    · rw [dupWindow_third hfr hst hcnt]
      refine (half_ne w.cwnd).trans ⟨fun h => ⟨fun _ _ => h, fun h' => absurd h' hfr⟩, fun h => ?_⟩
      exact h.1 hfr hcnt
    · rw [dupWindow_counts hfr hst hcnt]
      exact ⟨fun _ => ⟨fun _ h => absurd h hcnt, fun h' => absurd h' hfr⟩, fun _ => h0⟩

theorem growCwnd_open_iff (hw : SlowStartInv w) (h0 : w.cwnd ≠ 0) : (growCwnd w).cwnd ≠ 0 ↔
    (w.windowStatus = .slowStart → w.ssthresh ≠ 0) ∧
      (w.windowStatus = .congestionAvoidance → w.cwnd.toNat + maxDlen ≠ 2 ^ 32) := by
  unfold growCwnd
  split
  · next hs =>
    have hca : w.windowStatus ≠ .congestionAvoidance := by rw [hs]; decide
    split_ifs with hge
    · exact ⟨fun h => ⟨fun _ => h, fun h' => absurd h' hca⟩, fun h => h.1 hs⟩
    · -- doubled, it is below the threshold
      have hlt : w.cwnd * 2 < w.ssthresh := by simpa using hge
      have hth := hw.ssthresh
      have hcwnd := hw.cwnd hs
      simp only [maxDlen] at hcwnd
      have hne : w.cwnd * 2 ≠ 0 := by bv_omega
      have hne' : w.ssthresh ≠ 0 := by bv_omega
      exact ⟨fun _ => ⟨fun _ => hne', fun h' => absurd h' hca⟩, fun _ => hne⟩
  · next hs =>
    have hss : w.windowStatus ≠ .slowStart := by rw [hs]; decide
    exact (add_maxDlen_ne w.cwnd).trans ⟨fun h => ⟨fun h' => absurd h' hss, fun _ => h⟩,
      fun h => h.2 hs⟩
  · next hs =>
    refine ⟨fun _ => ⟨fun h' => ?_, fun h' => ?_⟩, fun _ => h0⟩
    · exact absurd (hs.symm.trans h') (by decide)
    · exact absurd (hs.symm.trans h') (by decide)
  · next hs =>
    refine ⟨fun _ => ⟨fun h' => ?_, fun h' => ?_⟩, fun _ => h0⟩
    · exact absurd (hs.symm.trans h') (by decide)
    · exact absurd (hs.symm.trans h') (by decide)

/-- **One ACK.** -/
theorem ackWindow_open_iff (ack : BitVec 32) (adv : BitVec 16) (hw : SlowStartInv w)
    (hst : w.windowStatus ≠ .timeout) (h0 : w.cwnd ≠ 0) :
    (ackWindow w ack adv).cwnd ≠ 0 ↔ AckOpen w ack := by
  unfold ackWindow
  dsimp only
  split_ifs with hlt heq
  · exact ⟨fun _ => ⟨fun h => absurd h (by bv_omega), fun h => absurd h (by bv_omega),
      fun h => absurd h (by bv_omega), fun h => absurd h (by bv_omega)⟩, fun _ => h0⟩
  · have hdup := dupWindow_open_iff (w := { w with rwnd := adv.setWidth 32 }) hst h0
    rw [hdup]
    exact ⟨fun h => ⟨fun _ => h.1, fun _ => h.2, fun h => absurd h (by bv_omega),
      fun h => absurd h (by bv_omega)⟩, fun h => ⟨h.halve heq, h.inflate heq⟩⟩
  · have hgrow := growCwnd_open_iff
      (w := { w with rwnd := adv.setWidth 32, sameAckCnt := 0 }) ⟨hw.ssthresh, hw.cwnd⟩ h0
    have hnew : w.base < ack := by bv_omega
    refine hgrow.trans ⟨fun h => ⟨fun h' => absurd h' heq, fun h' => absurd h' heq, fun _ => h.1,
      fun _ => h.2⟩, fun h => ⟨h.slowStart hnew, h.avoidance hnew⟩⟩

/-! ## Runs -/

/-- `rwnd` is what the last ACK has advertised. -/
def knownRwnd : Option (BitVec 16) → BitVec 32
  | some adv => adv.setWidth 32
  | none => .ofNat 32 maxRwindowSize

structure AdvisedInv (s : Advised) : Prop where
  cong : CongInv s.host.sock.wndSend
  slowStart : SlowStartInv s.host.sock.wndSend
  rwnd : s.host.sock.wndSend.rwnd = knownRwnd s.adv

theorem start_advisedInv (a b : TjuSockAddr) : AdvisedInv (.start a b) where
  cong := init_congInv
  slowStart := init_slowStartInv
  rwnd := rfl

theorem advStep_eq_some (he : advStep s e = some s') : ∃ h, sockStep s.host e = some h ∧
    s' = ⟨h, ((ackOf s.host e).map getAdvertisedWindow).or s.adv⟩ := by
  obtain ⟨h, hh, rfl⟩ := Option.map_eq_some_iff.1 he
  exact ⟨h, hh, rfl⟩

theorem advStep_inv (hi : AdvisedInv s) (he : advStep s e = some s') : AdvisedInv s' := by
  obtain ⟨h, hh, rfl⟩ := advStep_eq_some he
  cases sockStep_window hh with
  | ack pkt hack hw =>
    refine ⟨(hi.cong.ack _ _).congr hw, (hi.slowStart.ack _ _).congr hw, ?_⟩
    rw [hw.rwnd, ackWindow_rwnd, hack]
    rfl
  | timeout hno hw =>
    refine ⟨(timeoutWindow_congInv _).congr hw, (timeoutWindow_slowStartInv _).congr hw, ?_⟩
    rw [hw.rwnd, hno]
    exact hi.rwnd
  | same hno hw =>
    refine ⟨hi.cong.congr hw, hi.slowStart.congr hw, ?_⟩
    rw [hw.rwnd, hno]
    exact hi.rwnd

/-- **One step** keeps `cwnd` above 0 if and only if it meets the guard. -/
theorem keepsOpen_iff (hi : AdvisedInv s) (h0 : s.host.sock.wndSend.cwnd ≠ 0)
    (he : advStep s e = some s') : s'.host.sock.wndSend.cwnd ≠ 0 ↔ KeepsOpen s e := by
  obtain ⟨h, hh, rfl⟩ := advStep_eq_some he
  cases sockStep_window hh with
  | ack pkt hack hw =>
    have hone := ackWindow_open_iff (getAck pkt) (getAdvertisedWindow pkt)
      hi.slowStart hi.cong.windowStatus h0
    rw [hw.cwnd, hone]
    refine ⟨fun h pkt' hp => ?_, fun h => h pkt hack⟩
    cases hack.symm.trans hp
    exact h
  | timeout hno hw =>
    rw [hw.cwnd]
    exact ⟨fun _ pkt hp => absurd (hno.symm.trans hp) (by simp), fun _ =>
      show BitVec.ofNat 32 maxDlen ≠ 0 by decide⟩
  | same hno hw =>
    rw [hw.cwnd]
    exact ⟨fun _ pkt hp => absurd (hno.symm.trans hp) (by simp), fun _ => h0⟩

/-- **Zero-window mode on the peer's request.**  In every run in which no ACK brings `cwnd` to 0,
    the window is 0 only if the last ACK that was handled has advertised 0; and in each state of
    such a run the steps that leave `cwnd` above 0 are exactly those that meet the guard. -/
theorem cwnd_open {a b : TjuSockAddr} (hr : ReachBy advStep KeepsOpen (.start a b) s) :
    s.host.sock.wndSend.cwnd ≠ 0 ∧ (s.host.sock.wndSend.windowSize = 0 → s.adv = some 0) ∧
      ∀ e s', advStep s e = some s' → (s'.host.sock.wndSend.cwnd ≠ 0 ↔ KeepsOpen s e) := by
  obtain ⟨hi, h0⟩ := hr.inv (I := fun s => AdvisedInv s ∧ s.host.sock.wndSend.cwnd ≠ 0)
    ⟨start_advisedInv a b, show BitVec.ofNat 32 maxDlen ≠ 0 by decide⟩ fun s e s' ⟨hi, h0⟩ hok he =>
      ⟨advStep_inv hi he, (keepsOpen_iff hi h0 he).2 hok⟩
  refine ⟨h0, fun hz => ?_, fun e s' he => keepsOpen_iff hi h0 he⟩
  have hrwnd : s.host.sock.wndSend.rwnd = 0 := by
    have hmin := cmin_toNat s.host.sock.wndSend.cwnd s.host.sock.wndSend.rwnd
    rw [← hi.cong.windowSize, hz] at hmin
    bv_omega
  rw [hi.rwnd] at hrwnd
  cases hadv : s.adv with
  | none => rw [hadv] at hrwnd; exact absurd hrwnd (by decide)
  | some adv =>
    rw [hadv] at hrwnd
    have h16 : adv.setWidth 32 = 0 := hrwnd
    exact congrArg some (by bv_omega)

/-- One recovery: three more ACKs for `ack`, and one for the next byte. -/
def recovery (ack : BitVec 32) : List SockEv :=
  List.replicate 3 (.packet 0 (bareAck ack)) ++ [.packet 0 (bareAck (ack + 1))]

/-- Three bytes are sent, the first one is acknowledged, and a recovery follows. -/
def oneRecovery : List SockEv :=
  [.append [7, 8, 9], .sendPass 0, .packet 5 (bareAck 2)] ++ recovery 2

theorem cwnd_open_recovery :
    let s := (exec advStep (.start ⟨clientIp, 5678⟩ ⟨serverIp, 1234⟩) oneRecovery).getD
      (.start ⟨clientIp, 5678⟩ ⟨serverIp, 1234⟩)
    s.host.sock.wndSend.cwnd ≠ 0 ∧ (s.host.sock.wndSend.windowSize = 0 → s.adv = some 0) ∧
      ∀ e s', advStep s e = some s' → (s'.host.sock.wndSend.cwnd ≠ 0 ↔ KeepsOpen s e) :=
  cwnd_open (.of_along oneRecovery (by decide +kernel) (exec_getD (by decide +kernel) _))

/-- Twenty bytes are sent, and eleven recoveries follow. -/
def elevenRecoveries : List SockEv :=
  .append (List.replicate 20 1) :: .sendPass 0 ::
    (List.range 11).flatMap fun i => recovery (.ofNat 32 (i + 1))

/-- **A window that closes by itself.**  The peer advertises its whole window all the time. -/
theorem cwnd_halved_away :
    ∃ s, exec advStep (.start ⟨clientIp, 5678⟩ ⟨serverIp, 1234⟩) elevenRecoveries = some s ∧
      s.host.sock.wndSend.cwnd = 0 ∧ s.host.sock.wndSend.windowSize = 0 ∧ s.adv = some 44000 := by
  obtain ⟨s, hs⟩ : ∃ s, exec advStep (.start ⟨clientIp, 5678⟩ ⟨serverIp, 1234⟩) elevenRecoveries =
    some s := ⟨_, rfl⟩
  have hw : (exec advStep (.start ⟨clientIp, 5678⟩ ⟨serverIp, 1234⟩) elevenRecoveries).map
      (fun s => (s.host.sock.wndSend.cwnd, s.host.sock.wndSend.windowSize, s.adv)) =
        some (0, 0, some 44000) := by decide
  rw [hs, Option.map_some, Option.some.injEq, Prod.mk.injEq, Prod.mk.injEq] at hw
  exact ⟨s, hs, hw⟩

end Tju
