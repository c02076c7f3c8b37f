/-
  The way out of a closed window.

  Halving `cwnd` again and again closes the window, and then only ACKs for
  `base`, the answers to probes, are left to open it.  They do: in fast
  recovery the next one adds a segment, and outside of it the third one starts
  fast recovery.  An older count that has passed 3 would never get there, but
  whatever empties `cwnd` starts a recovery or sets the count back
  (`DupCount`).

  * `sockStep_count`: what a step does to the count;
  * `dupCount_hosts`: `DupCount` holds of both senders in every run;
  * `toOpen_lt`: an ACK for `base` brings a closed window nearer to being open.
-/
import TjuTcp.Endpoints
import TjuTcp.Timing

namespace Tju

open Lib

/-- With `cwnd` empty, the sender is in fast recovery or will get there. -/
def DupCount (w : SenderWindow) : Prop :=
  w.cwnd = 0 → w.windowStatus = .fastRecovery ∨ w.sameAckCnt.toNat ≤ 2

/-- How many ACKs for `base` open the window. -/
def toOpen (w : SenderWindow) : ℕ :=
  if w.windowSize ≠ 0 then 0
  else if w.windowStatus = .fastRecovery then 1
  else 4 - w.sameAckCnt.toNat

variable {h h' : Host} {e : SockEv} {pkt : Buf} {now : ℕ} {v w : SenderWindow} {s : Conn}

/-! ## The count -/

theorem growCwnd_count (w : SenderWindow) : (growCwnd w).sameAckCnt = w.sameAckCnt := by
  unfold growCwnd
  split
  · split_ifs <;> rfl
  all_goals rfl

theorem takeSample_count (now : ℕ) (ack : BitVec 32) (w : SenderWindow) :
    (takeSample now ack w).sameAckCnt = w.sameAckCnt := by
  unfold takeSample calTimeout
  split_ifs <;> rfl

theorem cleanSendBuf_count {sock sock' : TjuTcp} (he : cleanSendBuf sock = some sock') :
    sock'.wndSend.sameAckCnt = sock.wndSend.sameAckCnt := by
  unfold cleanSendBuf at he
  dsimp only at he
  split_ifs at he <;> cases he <;> rfl

theorem newAck_count {ack : BitVec 32} (he : newAck now h ack = some h') :
    h'.sock.wndSend.sameAckCnt = 0 := by
  have hw : (takeSample now ack
      (growCwnd { h.sock.wndSend with sameAckCnt := 0 }).refresh).sameAckCnt = 0 :=
    (takeSample_count ..).trans (growCwnd_count _)
  unfold newAck at he
  simp only [Option.bind_eq_bind] at he
  obtain ⟨sock, hcl, hn⟩ := Option.bind_eq_some_iff.1 he
  cases hn
  refine (cleanSendBuf_count hcl).trans ?_
  split_ifs <;> exact hw

theorem handleAck_count (he : handleAck now h pkt = some h') : h'.sock.wndSend.sameAckCnt =
    (ackWindow h.sock.wndSend (getAck pkt) (getAdvertisedWindow pkt)).sameAckCnt := by
  unfold handleAck at he
  unfold ackWindow
  simp only [Option.bind_eq_bind, Option.bind_some] at he
  dsimp only at he ⊢
  split_ifs at he ⊢ with hlt heq
  · cases he
    rw [zeroWindow_wndSend]
  · cases he
    rw [zeroWindow_wndSend, dupAck_wndSend]
  · obtain ⟨h₁, ha, he⟩ := Option.bind_eq_some_iff.1 he
    cases he
    rw [zeroWindow_wndSend, newAck_count ha]
    show 0 = (growCwnd _).sameAckCnt
    rw [growCwnd_count]

theorem sendingThread_count (now : ℕ) (h : Host) :
    (sendingThread now h).1.sock.wndSend.sameAckCnt = h.sock.wndSend.sameAckCnt := by
  have hs : ∀ e w, (startSample now e w).sameAckCnt = w.sameAckCnt := by
    intro e w
    unfold startSample
    split_ifs <;> rfl
  unfold sendingThread
  split
  · exact loop_inv
      (I := fun st : SendLoop => st.host.sock.wndSend.sameAckCnt = h.sock.wndSend.sameAckCnt)
      (fun st hi _ => by rw [sendRound_wndSend, hs]; exact hi) _ rfl
  · rfl

/-- **One step** counts in the handler only. -/
theorem sockStep_count (he : sockStep h e = some h') :
    (∃ pkt, ackOf h e = some pkt ∧ h'.sock.wndSend.sameAckCnt =
      (ackWindow h.sock.wndSend (getAck pkt) (getAdvertisedWindow pkt)).sameAckCnt) ∨
    ackOf h e = none ∧ h'.sock.wndSend.sameAckCnt = h.sock.wndSend.sameAckCnt := by
  cases e with
  | append data =>
    obtain ⟨sock', ha, rfl⟩ := Option.map_eq_some_iff.1 he
    obtain ⟨-, rfl⟩ := appendData_eq_some ha
    exact Or.inr ⟨rfl, rfl⟩
  | sendPass now => cases he; exact Or.inr ⟨rfl, sendingThread_count now h⟩
  | retransPass =>
    obtain ⟨⟨t, out⟩, ht, rfl⟩ := Option.map_eq_some_iff.1 he
    refine Or.inr ⟨rfl, ?_⟩
    rcases retransThread_window ht with hw | hw <;> rw [hw]
    rfl
  | alarm => cases he; exact Or.inr ⟨rfl, rfl⟩
  | packet now pkt =>
    obtain ⟨⟨t, out⟩, ht, rfl⟩ := Option.map_eq_some_iff.1 he
    by_cases hack : h.sock.state = .established ∧ getFlags pkt = ackFlagMask
    · rw [handle_ack hack.1 hack.2] at ht
      obtain ⟨t', ha, hr⟩ := Option.map_eq_some_iff.1 ht
      cases hr
      exact Or.inl ⟨pkt, if_pos hack, handleAck_count ha⟩
    · refine Or.inr ⟨if_neg hack, ?_⟩
      rcases handle_sending ht with ⟨-, hsame⟩ | ⟨hs, hf, -⟩
      · rw [hsame]
      · exact absurd ⟨hs, hf⟩ hack
  | recv len =>
    simp only [sockStep] at he
    split_ifs at he
    obtain ⟨⟨sock', bytes⟩, hr, rfl⟩ := Option.map_eq_some_iff.1 he
    obtain ⟨-, rfl, -⟩ := tjuRecv_eq_some hr
    exact Or.inr ⟨rfl, rfl⟩

/-! ## The invariant -/

theorem DupCount.dup (hw : DupCount w) (hst : w.windowStatus ≠ .timeout) :
    DupCount (dupWindow w) := by
  intro h0
  by_cases hfr : w.windowStatus = .fastRecovery
  · rw [dupWindow_recovery hfr]
    exact Or.inl hfr
  · by_cases hcnt : w.sameAckCnt = 2
    · rw [dupWindow_third hfr hst hcnt]
      exact Or.inl rfl
    · -- one more ACK is counted, and it is not the third one
      rw [dupWindow_counts hfr hst hcnt] at h0 ⊢
      have hle := (hw h0).resolve_left hfr
      exact Or.inr (show (w.sameAckCnt + 1).toNat ≤ 2 by bv_omega)

theorem DupCount.ack (hw : DupCount w) (hst : w.windowStatus ≠ .timeout) (ack : BitVec 32)
    (adv : BitVec 16) : DupCount (ackWindow w ack adv) := by
  unfold ackWindow
  dsimp only
  split_ifs
  · exact hw
  · exact DupCount.dup (w := { w with rwnd := adv.setWidth 32 }) hw hst
  · refine fun _ => Or.inr ?_
    show (growCwnd _).sameAckCnt.toNat ≤ 2
    rw [growCwnd_count]
    exact Nat.zero_le 2

/-- **One step.** -/
theorem DupCount.step (hw : DupCount h.sock.wndSend) (hc : CongInv h.sock.wndSend)
    (he : sockStep h e = some h') : DupCount h'.sock.wndSend := by
  rcases sockStep_count he with ⟨pkt, hack, hcnt⟩ | ⟨hno, hcnt⟩
  · cases sockStep_window he with
    | ack pkt' hack' hsame =>
      cases hack.symm.trans hack'
      unfold DupCount
      rw [hsame.cwnd, hsame.windowStatus, hcnt]
      exact hw.ack hc.windowStatus _ _
    | timeout hno | same hno => cases hack.symm.trans hno
  · cases sockStep_window he with
    | ack pkt' hack' => cases hno.symm.trans hack'
    | timeout _ hsame =>
      intro h0
      rw [hsame.cwnd] at h0
      exact absurd h0 (show BitVec.ofNat 32 maxDlen ≠ 0 by decide)
    | same _ hsame =>
      unfold DupCount
      rw [hsame.cwnd, hsame.windowStatus, hcnt]
      exact hw

theorem CongInv.step (hw : CongInv h.sock.wndSend) (he : sockStep h e = some h') :
    CongInv h'.sock.wndSend := by
  cases sockStep_window he with
  | ack pkt _ hsame => exact (hw.ack _ _).congr hsame
  | timeout _ hsame => exact (timeoutWindow_congInv _).congr hsame
  | same _ hsame => exact hw.congr hsame

/-- **An empty `cwnd` is on its way out**, on both sides and in every run. -/
theorem dupCount_hosts {client server : TjuSockAddr} {net : Side → List Buf}
    (hr : Reach connStep (.start client server net) s) (x : Side) :
    DupCount (s.ep x).sock.wndSend := by
  have hinit : DupCount .init := fun h0 => absurd h0 (by decide)
  refine (ReachBy.hosts (G := fun _ _ => True)
    (I := fun h => CongInv h.sock.wndSend ∧ DupCount h.sock.wndSend)
    (hr.weaken fun _ _ _ _ _ => trivial)
    (start_hosts (I := fun h => CongInv h.sock.wndSend ∧ DupCount h.sock.wndSend)
      fun _ _ => ⟨init_congInv, hinit⟩) ?_ ?_ x).2
  · rintro h f h' ⟨hcong, hi⟩ - he
    exact ⟨hcong.step he, hi.step hcong he⟩
  · rintro h _ hi ⟨_, _, _, rfl⟩
    exact hi

/-! ## Opening the window -/

/-- **An ACK for `base`** that advertises a window brings a closed window nearer to being open. -/
theorem toOpen_lt {adv : BitVec 16} (hc : CongInv w) (hn : DupCount w) (hr : w.rwnd ≠ 0)
    (h0 : w.windowSize = 0) (hadv : adv ≠ 0) :
    toOpen (dupWindow { w with rwnd := adv.setWidth 32 }) < toOpen w := by
  have hcwnd : w.cwnd = 0 := by
    by_contra hne
    refine (cmin_ne_zero _ _).2 ⟨hne, hr⟩ ?_
    rw [← hc.windowSize]
    exact h0
  let v : SenderWindow := { w with rwnd := adv.setWidth 32 }
  have hvst : v.windowStatus ≠ .timeout := hc.windowStatus
  unfold toOpen
  rw [if_neg (not_not_intro h0)]
  by_cases hfr : w.windowStatus = .fastRecovery
  · -- a segment is added
    rw [if_pos hfr, show dupWindow _ = _ from dupWindow_recovery (w := v) hfr, if_pos]
    · exact Nat.zero_lt_one
    · refine (cmin_ne_zero _ _).2 ⟨?_, (setWidth_ne_zero adv).2 hadv⟩
      show w.cwnd + BitVec.ofNat 32 maxDlen ≠ 0
      rw [hcwnd]
      decide
  · have hle := (hn hcwnd).resolve_left hfr
    rw [if_neg hfr]
    by_cases hcnt : w.sameAckCnt = 2
    · -- the recovery begins
      rw [show dupWindow _ = _ from dupWindow_third (w := v) hfr hvst hcnt, hcnt]
      split_ifs with hopen
      · exact Nat.zero_lt_two
      · exact Nat.one_lt_two
      · rename_i hno
        exact absurd rfl hno
    · rw [show dupWindow _ = _ from dupWindow_counts (w := v) hfr hvst hcnt]
      have hadd : (w.sameAckCnt + 1).toNat = w.sameAckCnt.toNat + 1 := by bv_omega
      split_ifs with hopen hrec
      · omega
      · exact absurd hrec hfr
      · show 4 - (w.sameAckCnt + 1).toNat < 4 - w.sameAckCnt.toNat
        omega

end Tju
