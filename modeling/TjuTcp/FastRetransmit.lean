/-
  When a fast retransmission starts.

  The handler counts the ACKs for `base` without a look at `nextseq`, starts a
  fast retransmission when the count is exactly 3, and sets it back on an ACK
  for new data only.  So the third ACK for `base` starts one also with nothing
  in flight, and with a count that was kept from an earlier recovery none
  starts at all.

  * `enters_iff`: a step enters fast recovery just on the third ACK for `base`;
  * `dupAck_step`, `DupSteps.starts_iff`: what one ACK for `base` leaves, and
    what up to three of them come to;
  * `fast_retransmit`: in every state reached, which steps enter fast recovery
    with nothing in flight, and when three ACKs in a row start one;
  * `fast_retransmit_idle`, `fast_retransmit_stuck`: one that starts with
    nothing in flight, and one that does not start.
-/
import TjuTcp.ZeroWindow

namespace Tju

open Lib

/-- From `h` to `h'` a fast retransmission starts. -/
def Enters (h h' : Host) : Prop :=
  h.sock.wndSend.windowStatus ≠ .fastRecovery ∧ h'.sock.wndSend.windowStatus = .fastRecovery

/-- The third ACK for `base`, by the count of the handler. -/
def ThirdAck (w : SenderWindow) (ack : BitVec 32) : Prop :=
  ack = w.base ∧ w.windowStatus ≠ .fastRecovery ∧ w.sameAckCnt = 2

/-- Something is in flight when the third ACK for `base` is handled. -/
def ThirdInFlight (h : Host) (e : SockEv) : Prop :=
  ∀ pkt, ackOf h e = some pkt → ThirdAck h.sock.wndSend (getAck pkt) →
    h.sock.wndSend.base ≠ h.sock.wndSend.nextseq

/-- The handler has counted at most two ACKs for `base`, half of the window is not empty, and from
    the third ACK for `base` on, none of the following ones, with the windows `advs`, closes it. -/
structure StartsWithin (w : SenderWindow) (advs : List (BitVec 16)) : Prop where
  count : w.sameAckCnt.toNat ≤ 2
  cwnd : 2 ≤ w.cwnd.toNat
  advs : ∀ adv ∈ advs.drop (2 - w.sameAckCnt.toNat), adv ≠ 0

variable {h h' : Host} {e : SockEv} {pkt : Buf} {now : ℕ} {w : SenderWindow}

/-! ## Entering fast recovery -/

theorem growCwnd_recovery (hfr : w.windowStatus ≠ .fastRecovery) :
    (growCwnd w).windowStatus ≠ .fastRecovery := by
  unfold growCwnd
  split
  · split_ifs
    · exact WindowStatus.noConfusion
    · exact hfr
  · exact hfr
  · exact WindowStatus.noConfusion
  · exact hfr

theorem ackWindow_recovery_iff (ack : BitVec 32) (adv : BitVec 16)
    (hfr : w.windowStatus ≠ .fastRecovery) (hst : w.windowStatus ≠ .timeout) :
    (ackWindow w ack adv).windowStatus = .fastRecovery ↔ ack = w.base ∧ w.sameAckCnt = 2 := by
  let v : SenderWindow := { w with rwnd := adv.setWidth 32 }
  have hv : v.windowStatus ≠ .fastRecovery := hfr
  have hv' : v.windowStatus ≠ .timeout := hst
  unfold ackWindow
  dsimp only
  split_ifs with hlt heq
  · exact ⟨fun h => absurd h hfr, fun h => absurd h.1 (by bv_omega)⟩
  · by_cases hcnt : w.sameAckCnt = 2
    · refine iff_of_true ?_ ⟨heq, hcnt⟩
      rw [show dupWindow _ = _ from dupWindow_third hv hv' hcnt]
      rfl
    · refine iff_of_false ?_ fun h => hcnt h.2
      rw [show dupWindow _ = _ from dupWindow_counts hv hv' hcnt]
      exact hfr
  · refine iff_of_false ?_ fun h => heq h.1
    exact growCwnd_recovery (w := { w with rwnd := adv.setWidth 32, sameAckCnt := 0 }) hfr

/-- **A step starts a fast retransmission** just on the third ACK for `base`. -/
theorem enters_iff (hst : h.sock.wndSend.windowStatus ≠ .timeout) (he : sockStep h e = some h') :
    Enters h h' ↔ ∃ pkt, ackOf h e = some pkt ∧ ThirdAck h.sock.wndSend (getAck pkt) := by
  unfold Enters ThirdAck
  cases sockStep_window he with
  | ack pkt hack hw =>
    rw [hw.windowStatus, hack]
    constructor
    · rintro ⟨hfr, hrec⟩
      obtain ⟨heq, hcnt⟩ := (ackWindow_recovery_iff _ _ hfr hst).1 hrec
      exact ⟨pkt, rfl, heq, hfr, hcnt⟩
    · rintro ⟨_, ⟨⟩, heq, hfr, hcnt⟩
      exact ⟨hfr, (ackWindow_recovery_iff _ _ hfr hst).2 ⟨heq, hcnt⟩⟩
  | timeout hno hw =>
    rw [hw.windowStatus, hno]
    exact ⟨fun h => absurd h.2 WindowStatus.noConfusion, fun ⟨_, hp, _⟩ => by cases hp⟩
  | same hno hw =>
    rw [hw.windowStatus, hno]
    exact ⟨fun h => absurd h.2 h.1, fun ⟨_, hp, _⟩ => by cases hp⟩

/-! ## ACKs for `base` -/

/-- What an ACK for `base` that advertises `adv` leaves: the window goes on as in `dupWindow`, and a
    retransmission is called for on the third one, but not with the window closed. -/
structure DupStep (h h' : Host) (adv : BitVec 16) : Prop where
  state : h'.sock.state = .established
  wndSend : h'.sock.wndSend = dupWindow { h.sock.wndSend with rwnd := adv.setWidth 32 }
  retrans : h'.retrans = true ↔ h'.sock.wndSend.windowSize ≠ 0 ∧
    (h.retrans = true ∨ ThirdAck h.sock.wndSend h.sock.wndSend.base)

theorem zeroWindow_retrans (h : Host) :
    (zeroWindow h).retrans = true ↔ h.sock.wndSend.windowSize ≠ 0 ∧ h.retrans = true := by
  unfold zeroWindow
  split_ifs with h0
  · exact iff_of_false Bool.false_ne_true fun h => h.1 h0
  · exact (and_iff_right h0).symm

theorem dupAck_retrans (hst : h.sock.wndSend.windowStatus ≠ .timeout) :
    (dupAck h).retrans = true ↔ h.retrans = true ∨ ThirdAck h.sock.wndSend h.sock.wndSend.base := by
  unfold dupAck ThirdAck
  dsimp only
  by_cases hfr : h.sock.wndSend.windowStatus = .fastRecovery
  · rw [if_neg fun h3 => h3.2 ((countDup_status _).trans hfr)]
    exact ⟨Or.inl, fun hor => hor.elim id fun h3 => absurd hfr h3.2.1⟩
  · rw [countDup_counts hfr hst]
    have h3 : h.sock.wndSend.sameAckCnt + 1 = 3 ↔ h.sock.wndSend.sameAckCnt = 2 := by
      constructor <;> intro h <;> bv_omega
    by_cases hcnt : h.sock.wndSend.sameAckCnt = 2
    · rw [if_pos ⟨h3.2 hcnt, hfr⟩]
      exact iff_of_true rfl (Or.inr ⟨rfl, hfr, hcnt⟩)
    · rw [if_neg fun h => hcnt (h3.1 h.1)]
      exact ⟨Or.inl, fun hor => hor.elim id fun h => absurd h.2.2 hcnt⟩

theorem dupWindow_base (w : SenderWindow) : (dupWindow w).base = w.base := by
  have hc : (countDup w).base = w.base := congrArg (·.2.1) (countDup_cursors w)
  unfold dupWindow
  dsimp only
  split_ifs <;> exact hc

/-- **An ACK for `base`** is handled. -/
theorem dupAck_step (now : ℕ) (hs : h.sock.state = .established) (hf : getFlags pkt = ackFlagMask)
    (hb : getAck pkt = h.sock.wndSend.base) (hst : h.sock.wndSend.windowStatus ≠ .timeout) :
    ∃ h', sockStep h (.packet now pkt) = some h' ∧ DupStep h h' (getAdvertisedWindow pkt) := by
  let h₀ : Host := { h with sock := { h.sock with wndSend :=
    { h.sock.wndSend with rwnd := (getAdvertisedWindow pkt).setWidth 32 } } }
  have hst₀ : h₀.sock.wndSend.windowStatus ≠ .timeout := hst
  have hack : handleAck now h pkt = some (zeroWindow (dupAck h₀)) := by
    unfold handleAck
    simp only [Option.bind_eq_bind]
    rw [if_neg (show ¬ getAck pkt < h.sock.wndSend.base by bv_omega), if_pos hb]
    rfl
  refine ⟨zeroWindow (dupAck h₀), ?_, ?_, ?_, ?_⟩
  · show (tjuHandlePacket now h pkt).map Prod.fst = _
    rw [handle_ack hs hf, hack]
    rfl
  · rw [((dupAck_same h₀).1.trans (zeroWindow_same _).1).state]
    exact hs
  · rw [zeroWindow_wndSend, dupAck_wndSend]
  · rw [zeroWindow_retrans, dupAck_retrans hst₀, zeroWindow_wndSend]
    exact Iff.rfl

theorem cmin_ne_zero (x y : BitVec 32) : cmin x y ≠ 0 ↔ x ≠ 0 ∧ y ≠ 0 := by
  unfold cmin
  split_ifs with h
  · exact ⟨fun hx => ⟨hx, fun hy => hx (by bv_omega)⟩, fun h => h.1⟩
  · exact ⟨fun hy => ⟨fun hx => h (by bv_omega), hy⟩, fun h => h.2⟩

theorem setWidth_ne_zero (adv : BitVec 16) : adv.setWidth 32 ≠ 0 ↔ adv ≠ 0 := by
  constructor <;> intro h h' <;> exact h (by bv_omega)

namespace DupStep
variable {adv : BitVec 16}

theorem base (hd : DupStep h h' adv) : h'.sock.wndSend.base = h.sock.wndSend.base := by
  rw [hd.wndSend, dupWindow_base]

theorem windowStatus (hd : DupStep h h' adv) (hst : h.sock.wndSend.windowStatus ≠ .timeout) :
    h'.sock.wndSend.windowStatus ≠ .timeout := by
  rw [hd.wndSend]
  exact dupWindow_status hst

/-- With a count other than 2 the ACK is counted. -/
theorem counts (hd : DupStep h h' adv) (hfr : h.sock.wndSend.windowStatus ≠ .fastRecovery)
    (hst : h.sock.wndSend.windowStatus ≠ .timeout) (hcnt : h.sock.wndSend.sameAckCnt ≠ 2) :
    h'.sock.wndSend.windowStatus = h.sock.wndSend.windowStatus ∧
      h'.sock.wndSend.cwnd = h.sock.wndSend.cwnd ∧
      h'.sock.wndSend.sameAckCnt = h.sock.wndSend.sameAckCnt + 1 := by
  rw [hd.wndSend.trans (dupWindow_counts hfr hst hcnt)]
  exact ⟨rfl, rfl, rfl⟩

/-- The third one starts the recovery, and the retransmission if the window is left open. -/
theorem third (hd : DupStep h h' adv) (hfr : h.sock.wndSend.windowStatus ≠ .fastRecovery)
    (hst : h.sock.wndSend.windowStatus ≠ .timeout) (hcnt : h.sock.wndSend.sameAckCnt = 2) :
    h'.sock.wndSend.windowStatus = .fastRecovery ∧
      h'.sock.wndSend.cwnd = h.sock.wndSend.cwnd >>> 1 ∧
      (h'.retrans = true ↔ 2 ≤ h.sock.wndSend.cwnd.toNat ∧ adv ≠ 0) := by
  have hw := hd.wndSend.trans (dupWindow_third hfr hst hcnt)
  have hsize : h'.sock.wndSend.windowSize = cmin (h.sock.wndSend.cwnd >>> 1) (adv.setWidth 32) := by
    rw [hw]
    rfl
  refine ⟨by rw [hw]; rfl, by rw [hw]; rfl, ?_⟩
  rw [hd.retrans, hsize, cmin_ne_zero, half_ne, setWidth_ne_zero]
  exact and_iff_left (Or.inr ⟨rfl, hfr, hcnt⟩)

/-- In the recovery a retransmission that is called for stays so, as long as the window does not
    close. -/
theorem recovery (hd : DupStep h h' adv) (hfr : h.sock.wndSend.windowStatus = .fastRecovery)
    (hc : h.sock.wndSend.cwnd.toNat + maxDlen < 2 ^ 32) :
    h'.sock.wndSend.windowStatus = .fastRecovery ∧
      h'.sock.wndSend.cwnd.toNat = h.sock.wndSend.cwnd.toNat + maxDlen ∧
      (h'.retrans = true ↔ adv ≠ 0 ∧ h.retrans = true) := by
  have hw := hd.wndSend.trans (dupWindow_recovery hfr)
  have hadd : (h.sock.wndSend.cwnd + BitVec.ofNat 32 maxDlen).toNat =
      h.sock.wndSend.cwnd.toNat + maxDlen := by
    simp only [maxDlen] at hc ⊢
    bv_omega
  have hne : h.sock.wndSend.cwnd + BitVec.ofNat 32 maxDlen ≠ 0 := by
    simp only [maxDlen] at hadd ⊢
    bv_omega
  have hsize : h'.sock.wndSend.windowSize =
      cmin (h.sock.wndSend.cwnd + BitVec.ofNat 32 maxDlen) (adv.setWidth 32) := by
    rw [hw]
    rfl
  have hno : ¬ ThirdAck h.sock.wndSend h.sock.wndSend.base := fun h3 => h3.2.1 hfr
  refine ⟨by rw [hw]; exact hfr, by rw [hw]; exact hadd, ?_⟩
  rw [hd.retrans, hsize, cmin_ne_zero, setWidth_ne_zero, and_iff_right hne, or_iff_left hno]

end DupStep

/-! ## ACKs for `base` in a row -/

/-- ACKs for `base` with the windows `advs`, and no other event in between. -/
inductive DupSteps : Host → List (BitVec 16) → Host → Prop
  | nil (h : Host) : DupSteps h [] h
  | cons {h h₁ h' : Host} {adv : BitVec 16} {advs : List (BitVec 16)} : DupStep h h₁ adv →
      DupSteps h₁ advs h' → DupSteps h (adv :: advs) h'

/-- The windows that the ACKs advertise. -/
def windows (acks : List (ℕ × Buf)) : List (BitVec 16) := acks.map fun p => getAdvertisedWindow p.2

theorem dupAcks_exec {acks : List (ℕ × Buf)} (hs : h.sock.state = .established)
    (hst : h.sock.wndSend.windowStatus ≠ .timeout)
    (hacks : ∀ p ∈ acks, getFlags p.2 = ackFlagMask ∧ getAck p.2 = h.sock.wndSend.base) :
    ∃ h', exec sockStep h (arrivals acks) = some h' ∧ DupSteps h (windows acks) h' := by
  induction acks generalizing h with
  | nil => exact ⟨h, rfl, .nil h⟩
  | cons p acks ih =>
    obtain ⟨⟨hf, hb⟩, hacks⟩ := List.forall_mem_cons.1 hacks
    obtain ⟨h₁, he, hd⟩ := dupAck_step p.1 hs hf hb hst
    rw [← hd.base] at hacks
    obtain ⟨h', hx, hds⟩ := ih hd.state (hd.windowStatus hst) hacks
    refine ⟨h', ?_, .cons hd hds⟩
    show (sockStep h (.packet p.1 p.2)).bind _ = _
    rw [he]
    exact hx

namespace DupSteps
variable {advs : List (BitVec 16)}

/-- In the recovery. -/
theorem recovery (hds : DupSteps h advs h')
    (hfr : h.sock.wndSend.windowStatus = .fastRecovery)
    (hc : h.sock.wndSend.cwnd.toNat + advs.length * maxDlen < 2 ^ 32) :
    h'.sock.wndSend.windowStatus = .fastRecovery ∧
      (h'.retrans = true ↔ (∀ adv ∈ advs, adv ≠ 0) ∧ h.retrans = true) := by
  induction hds with
  | nil h => exact ⟨hfr, by simp⟩
  | @cons h h₁ h' adv advs hd _ ih =>
    rw [List.length_cons, Nat.succ_mul] at hc
    obtain ⟨hs1, hc1, hr1⟩ := hd.recovery hfr (by omega)
    obtain ⟨hs', hr'⟩ := ih hs1 (by omega)
    refine ⟨hs', ?_⟩
    rw [hr', hr1, List.forall_mem_cons, and_assoc, and_left_comm]

/-- One that is only counted leaves the rest to find the same. -/
theorem startsWithin_cons_iff {w w₁ : SenderWindow} {adv : BitVec 16}
    (hn : w₁.sameAckCnt = w.sameAckCnt + 1) (hc : w₁.cwnd = w.cwnd) (h2 : w.sameAckCnt ≠ 2)
    (hlen : advs.length < 3) :
    3 ≤ w₁.sameAckCnt.toNat + advs.length ∧ StartsWithin w₁ advs ↔
      3 ≤ w.sameAckCnt.toNat + (advs.length + 1) ∧ StartsWithin w (adv :: advs) := by
  have hdrop (hle : w.sameAckCnt.toNat ≤ 1) : (adv :: advs).drop (2 - w.sameAckCnt.toNat) =
      advs.drop (2 - (w.sameAckCnt.toNat + 1)) := by
    rw [show 2 - w.sameAckCnt.toNat = 2 - (w.sameAckCnt.toNat + 1) + 1 by omega,
      List.drop_succ_cons]
  constructor
  · rintro ⟨h3, hcnt, hcwnd, hadvs⟩
    rw [hn] at h3 hcnt hadvs
    rw [hc] at hcwnd
    have hle : w.sameAckCnt.toNat ≤ 1 := by bv_omega
    have hadd : (w.sameAckCnt + 1).toNat = w.sameAckCnt.toNat + 1 := by bv_omega
    rw [hadd] at h3 hadvs
    exact ⟨by omega, by omega, hcwnd, by rw [hdrop hle]; exact hadvs⟩
  · rintro ⟨h3, hcnt, hcwnd, hadvs⟩
    have hle : w.sameAckCnt.toNat ≤ 1 := by bv_omega
    have hadd : w₁.sameAckCnt.toNat = w.sameAckCnt.toNat + 1 := by rw [hn]; bv_omega
    rw [hdrop hle] at hadvs
    rw [hadd]
    exact ⟨by omega, by omega, by rw [hc]; exact hcwnd, by rw [hadd]; exact hadvs⟩

/-- **From outside of the recovery**, `advs` of up to three ACKs start a fast retransmission if and
    only if the count of the handler comes to 3 among them, with the window open. -/
theorem starts_iff (hds : DupSteps h advs h')
    (hfr : h.sock.wndSend.windowStatus ≠ .fastRecovery)
    (hst : h.sock.wndSend.windowStatus ≠ .timeout) (hlen : advs.length ≤ 3) :
    h'.sock.wndSend.windowStatus = .fastRecovery ∧ h'.retrans = true ↔
      3 ≤ h.sock.wndSend.sameAckCnt.toNat + advs.length ∧ StartsWithin h.sock.wndSend advs := by
  induction hds with
  | nil h =>
    refine iff_of_false (fun h => hfr h.1) fun hw => ?_
    have h2 := hw.2.count
    have h3 := hw.1
    simp only [List.length_nil] at h3
    omega
  | @cons h h₁ h' adv advs hd hds ih =>
    simp only [List.length_cons] at hlen ⊢
    by_cases h2 : h.sock.wndSend.sameAckCnt = 2
    · -- this is the third one, and the others find the sender in the recovery
      obtain ⟨hs1, hc1, hr1⟩ := hd.third hfr hst h2
      have hlt := half_lt h.sock.wndSend.cwnd
      rw [← hc1] at hlt
      have hc : h₁.sock.wndSend.cwnd.toNat + advs.length * maxDlen < 2 ^ 32 := by
        simp only [maxDlen]
        omega
      obtain ⟨hs', hr'⟩ := hds.recovery hs1 hc
      have hcnt : h.sock.wndSend.sameAckCnt.toNat = 2 := by rw [h2]; rfl
      rw [and_iff_right hs', hr', hr1, and_iff_right (show 3 ≤ _ by omega)]
      constructor
      · rintro ⟨hadvs, hcwnd, hadv⟩
        refine ⟨by omega, hcwnd, ?_⟩
        rw [hcnt]
        exact List.forall_mem_cons.2 ⟨hadv, hadvs⟩
      · rintro ⟨-, hcwnd, hadvs⟩
        rw [hcnt] at hadvs
        obtain ⟨hadv, hadvs⟩ := List.forall_mem_cons.1 hadvs
        exact ⟨hadvs, hcwnd, hadv⟩
    · obtain ⟨hs1, hc1, hn1⟩ := hd.counts hfr hst h2
      rw [ih (hs1 ▸ hfr) (hs1 ▸ hst) (by omega)]
      exact startsWithin_cons_iff hn1 hc1 h2 hlen

end DupSteps

/-! ## In every state reached -/

theorem enters_half (hst : h.sock.wndSend.windowStatus ≠ .timeout) (he : sockStep h e = some h')
    (hent : Enters h h') : h'.sock.wndSend.cwnd = h.sock.wndSend.cwnd >>> 1 := by
  obtain ⟨pkt, hack, heq, hfr, hcnt⟩ := (enters_iff hst he).1 hent
  cases sockStep_window he with
  | ack pkt' hack' hw =>
    cases hack.symm.trans hack'
    let v : SenderWindow := { h.sock.wndSend with rwnd := (getAdvertisedWindow pkt).setWidth 32 }
    have hthird := dupWindow_third (w := v) hfr hst hcnt
    rw [hw.cwnd]
    unfold ackWindow
    dsimp only
    rw [if_neg (show ¬ getAck pkt < h.sock.wndSend.base by bv_omega), if_pos heq]
    exact congrArg SenderWindow.cwnd hthird
  | timeout hno _ => exact absurd (hno.symm.trans hack) (Option.some_ne_none pkt).symm
  | same hno _ => exact absurd (hno.symm.trans hack) (Option.some_ne_none pkt).symm

/-- **When a fast retransmission starts.**  In every state that the process can reach, a step starts
    one, and halves `cwnd`, with something in flight only, if and only if no ACK that the handler
    counts as the third for `base` comes with nothing in flight.  And of three ACKs for `base` in a
    row, from outside of the recovery, with something in flight, the sender comes to be in the
    recovery, with the retransmission called for, if and only if they start one within `StartsWithin`. -/
theorem fast_retransmit {a b : TjuSockAddr} (hr : Reach sockStep (establishedHost a b) h) :
    (∀ e h', sockStep h e = some h' →
      (Enters h h' → h'.sock.wndSend.cwnd = h.sock.wndSend.cwnd >>> 1) ∧
      ((Enters h h' → h.sock.wndSend.base ≠ h.sock.wndSend.nextseq) ↔ ThirdInFlight h e)) ∧
    ∀ acks : List (ℕ × Buf), acks.length = 3 → h.sock.state = .established →
      h.sock.wndSend.base ≠ h.sock.wndSend.nextseq →
      h.sock.wndSend.windowStatus ≠ .fastRecovery →
      (∀ p ∈ acks, getFlags p.2 = ackFlagMask ∧ getAck p.2 = h.sock.wndSend.base) →
      ∃ h', exec sockStep h (arrivals acks) = some h' ∧
        (h'.sock.wndSend.windowStatus = .fastRecovery ∧ h'.retrans = true ↔
          StartsWithin h.sock.wndSend (windows acks)) := by
  have hst := (congInv_reached hr).windowStatus
  refine ⟨fun e h' he => ⟨enters_half hst he, ?_⟩, fun acks hlen hs _ hfr hacks => ?_⟩
  · rw [enters_iff hst he]
    exact ⟨fun hin pkt hp h3 => hin ⟨pkt, hp, h3⟩, fun hin ⟨pkt, hp, h3⟩ => hin pkt hp h3⟩
  · obtain ⟨h', hx, hds⟩ := dupAcks_exec hs hst hacks
    have hw : (windows acks).length = 3 := (List.length_map _).trans hlen
    refine ⟨h', hx, (hds.starts_iff hfr hst (by omega)).trans (and_iff_right (by omega))⟩

theorem fast_retransmit_first : ∃ h h', exec sockStep clientHost sentByte = some h ∧
    exec sockStep h (arrivals (List.replicate 3 (0, bareAck 1))) = some h' ∧
    (h'.sock.wndSend.windowStatus = .fastRecovery ∧ h'.retrans = true ↔
      StartsWithin h.sock.wndSend (windows (List.replicate 3 (0, bareAck 1)))) := by
  obtain ⟨h, hh⟩ : ∃ h, exec sockStep clientHost sentByte = some h := ⟨_, rfl⟩
  have hw : (exec sockStep clientHost sentByte).map (fun h => (h.sock.state, h.sock.wndSend.base,
      h.sock.wndSend.nextseq, h.sock.wndSend.windowStatus)) =
        some (.established, 1, 2, .slowStart) := by decide
  rw [hh, Option.map_some, Option.some.injEq, Prod.mk.injEq, Prod.mk.injEq, Prod.mk.injEq] at hw
  obtain ⟨hs, hb, hn, hst⟩ := hw
  have hacks : ∀ p ∈ List.replicate 3 (0, bareAck 1),
      getFlags p.2 = ackFlagMask ∧ getAck p.2 = h.sock.wndSend.base := by
    intro p hp
    rw [List.eq_of_mem_replicate hp, hb]
    exact ⟨rfl, rfl⟩
  obtain ⟨h', hx, hiff⟩ := (fast_retransmit (ReachBy.of_exec sentByte hh)).2 _
    List.length_replicate hs (by rw [hb, hn]; decide) (by rw [hst]; decide) hacks
  exact ⟨h, h', hh, hx, hiff⟩

/-- A byte is sent four times, three of them after a timeout, and three ACKs for it have arrived. -/
def sentFourTimes : List SockEv :=
  sentByte ++ (List.replicate 3 [.alarm, .retransPass, .retransPass]).flatten ++
    arrivals (List.replicate 3 (0, bareAck 2))

/-- **A fast retransmission with nothing in flight.**  The ACK for the last copy is the third one
    for `base`. -/
theorem fast_retransmit_idle : ∃ h h', exec sockStep clientHost sentFourTimes = some h ∧
    sockStep h (.packet 0 (bareAck 2)) = some h' ∧ Enters h h' ∧
    h.sock.wndSend.base = h.sock.wndSend.nextseq := by
  obtain ⟨h, hh⟩ : ∃ h, exec sockStep clientHost sentFourTimes = some h := ⟨_, rfl⟩
  obtain ⟨h', hh'⟩ : ∃ h', (exec sockStep clientHost sentFourTimes).bind
    (fun h => sockStep h (.packet 0 (bareAck 2))) = some h' := ⟨_, rfl⟩
  have hbefore : (exec sockStep clientHost sentFourTimes).map (fun h =>
      (h.sock.wndSend.windowStatus, h.sock.wndSend.base, h.sock.wndSend.nextseq)) =
        some (.congestionAvoidance, 2, 2) := by decide
  have hafter : ((exec sockStep clientHost sentFourTimes).bind
      fun h => sockStep h (.packet 0 (bareAck 2))).map (fun h => h.sock.wndSend.windowStatus) =
        some .fastRecovery := by decide
  rw [hh', Option.map_some, Option.some.injEq] at hafter
  rw [hh, Option.map_some, Option.some.injEq, Prod.mk.injEq, Prod.mk.injEq] at hbefore
  rw [hh, Option.bind_some] at hh'
  obtain ⟨hst, hb, hn⟩ := hbefore
  exact ⟨h, h', hh, hh', ⟨by rw [hst]; decide, hafter⟩, hb.trans hn.symm⟩

/-- A recovery that ends in a timeout. -/
def recoveryTimeout : List SockEv :=
  sentByte ++ arrivals (List.replicate 3 (0, bareAck 1)) ++ [.alarm, .retransPass]

/-- **Three ACKs that start nothing.**  After a recovery that ended in a timeout the count is still
    3, and three more ACKs for the byte in flight take it to 6. -/
theorem fast_retransmit_stuck : ∃ h h', exec sockStep clientHost recoveryTimeout = some h ∧
    h.sock.wndSend.base ≠ h.sock.wndSend.nextseq ∧
    h.sock.wndSend.windowStatus ≠ .fastRecovery ∧
    exec sockStep h (arrivals (List.replicate 3 (0, bareAck 1))) = some h' ∧
    h'.sock.wndSend.windowStatus ≠ .fastRecovery ∧ h'.retrans = false := by
  let es : List SockEv := arrivals (List.replicate 3 (0, bareAck 1))
  obtain ⟨h, hh⟩ : ∃ h, exec sockStep clientHost recoveryTimeout = some h := ⟨_, rfl⟩
  obtain ⟨h', hh'⟩ : ∃ h', (exec sockStep clientHost recoveryTimeout).bind
    (fun h => exec sockStep h es) = some h' := ⟨_, rfl⟩
  have hbefore : (exec sockStep clientHost recoveryTimeout).map (fun h =>
      (h.sock.wndSend.windowStatus, h.sock.wndSend.base, h.sock.wndSend.nextseq)) =
        some (.slowStart, 1, 2) := by decide
  have hafter : ((exec sockStep clientHost recoveryTimeout).bind fun h => exec sockStep h es).map
      (fun h => (h.sock.wndSend.windowStatus, h.retrans)) = some (.slowStart, false) := by decide
  rw [hh', Option.map_some, Option.some.injEq, Prod.mk.injEq] at hafter
  rw [hh, Option.map_some, Option.some.injEq, Prod.mk.injEq, Prod.mk.injEq] at hbefore
  rw [hh, Option.bind_some] at hh'
  obtain ⟨hst, hb, hn⟩ := hbefore
  exact ⟨h, h', hh, by rw [hb, hn]; decide, by rw [hst]; decide, hh', by rw [hafter.1]; decide,
    hafter.2⟩

end Tju
