/-
  What brings a retransmission about.

  The timer of a connection runs out once; then `RETRANS` is TRUE until a pass
  of `retrans_thread` starts the timer again.  Four statements can take away
  the last of the two: the end of a pass and the test of the branch that does
  not retransmit in `retrans_thread`, and the test for an empty window and
  `stopTimer` in the handler.

  * `Outstanding`: bytes are in flight, or a pass of `sending_thread` sends
    some without starting the timer;
  * `Kept`: the timer is armed, or `RETRANS` is TRUE, or a thread is about to
    start the timer or to set `RETRANS`;
  * `no_lost_retransmission`: as long as these four statements leave something
    to outstanding bytes, nothing is lost at rest.
-/
import TjuTcp.Interleave
import TjuTcp.SendCursors
import TjuTcp.Lib.Simulation

namespace Tju

open Lib

/-- The pass has sent bytes, or will send some, without a call of `startTimer` of its own. -/
def SendAt.relies : SendAt → Prop
  | idle => False
  | sampled smp => smp.base ≠ smp.nextseq
  | loop v | sent v _ | start v _ =>
    v.smp.base ≠ v.smp.nextseq ∨ v.wndNextseq ≠ v.smp.nextseq
  | mark _ _ | count _ _ => True

instance : DecidablePred SendAt.relies
  | .idle => inferInstanceAs (Decidable False)
  | .sampled _ => inferInstanceAs (Decidable (_ ≠ _))
  | .loop _ | .sent _ _ | .start _ _ => inferInstanceAs (Decidable (_ ∨ _))
  | .mark _ _ | .count _ _ => inferInstanceAs (Decidable True)

/-- `sending_thread` is about to call `startTimer`. -/
def SendAt.starts : SendAt → Bool
  | start _ _ => true
  | _ => false

/-- `retrans_thread` is about to call `startTimer` or to set `RETRANS`, or to test whether it has
    to. -/
def RetransAt.rearms : RetransAt → Bool
  | probed | start _ _ | clear | cleared | setFlag | setRetrans => true
  | _ => false

/-- The handler is about to call `startTimer` or to set `RETRANS`, or is on its way to the test
    of `base` against `nextseq`. -/
def HandleAt.rearms : HandleAt → Bool
  | fastFlag | fastRetrans | slideAck _ | slideBase _ | compare | start | zeroStart => true
  | _ => false

def Proc.Outstanding (s : Proc) : Prop :=
  s.host.sock.wndSend.base ≠ s.host.sock.wndSend.nextseq ∨ s.sender.relies

instance (s : Proc) : Decidable s.Outstanding := inferInstanceAs (Decidable (_ ∨ _))

def Proc.Kept (s : Proc) : Prop :=
  s.host.timer = true ∨ s.host.retrans = true ∨ s.sender.starts = true ∨
    s.retrans.rearms = true ∨ s.handler.rearms = true

/-- `startTimer` arms the timer. -/
def StartArms (s : Proc) : Prop :=
  0 < s.host.sock.wndSend.timeout ∧ s.host.sock.wndSend.timeout < 1000000

instance (s : Proc) : Decidable (StartArms s) := inferInstanceAs (Decidable (_ ∧ _))

/-- The guard on a step: one of the four statements leaves something to outstanding bytes. -/
def KeepsTimer (s : Proc) : ProcEv → Prop
  | .retrans =>
    match s.retrans with
    | .loop v => ¬ v.wndAckCnt < v.haveSent → s.Outstanding →
        s.host.timer = true ∨ s.handler.rearms = true
    | .cleared => ¬ s.host.sock.wndSend.ackCnt < .ofInt 32 s.host.sock.haveSendLen → s.Outstanding →
        s.host.timer = true ∨ s.host.retrans = true ∨ s.sender.starts = true ∨
          s.handler.rearms = true
    | _ => True
  | .handle =>
    match s.handler with
    | .compare => s.host.sock.wndSend.base = s.host.sock.wndSend.nextseq → s.sender.relies →
        s.host.timer = true ∨ s.host.retrans = true ∨ s.sender.starts = true ∨
          s.retrans.rearms = true
    | .stop => s.Outstanding →
        s.host.retrans = true ∨ s.sender.starts = true ∨ s.retrans.rearms = true
    | _ => True
  | _ => True

instance keepsTimer_retrans (s : Proc) :
    ∀ pc, Decidable (KeepsTimer { s with retrans := pc } .retrans)
  | .loop _ => inferInstanceAs (Decidable (_ → _ → _ ∨ _))
  | .cleared => inferInstanceAs (Decidable (_ → _ → _ ∨ _ ∨ _ ∨ _))
  | .idle | .woken | .probed | .checked | .clear | .setFlag | .setRetrans | .want | .locked
  | .readAck | .readHave _ | .readBase _ _ | .sent _ _ | .start _ _ | .mark _ _ | .unmark =>
    inferInstanceAs (Decidable True)

instance keepsTimer_handle (s : Proc) :
    ∀ pc, Decidable (KeepsTimer { s with handler := pc } .handle)
  | .compare => inferInstanceAs (Decidable (_ → _ → _ ∨ _ ∨ _ ∨ _))
  | .stop => inferInstanceAs (Decidable (_ → _ ∨ _ ∨ _))
  | .idle | .fastFlag | .fastRetrans | .slideAck _ | .slideBase _ | .stopMark | .start | .startMark
  | .cleanTest | .clean | .zero | .zeroStart | .zeroMark => inferInstanceAs (Decidable True)

instance (s : Proc) : DecidablePred (KeepsTimer s)
  | .retrans => keepsTimer_retrans s s.retrans
  | .handle => keepsTimer_handle s s.handler
  | .send _ | .packet _ _ | .alarm | .append _ => inferInstanceAs (Decidable True)

/-- The invariant: outstanding bytes are not lost. -/
def TimerInv (s : Proc) : Prop := s.Outstanding → s.Kept

variable {s s' : Proc} {e : ProcEv} {h h' : Host} {out : List Buf} {free : Bool} {now : ℕ}

theorem startTimer_timer (ht : 0 < h.sock.wndSend.timeout ∧ h.sock.wndSend.timeout < 1000000) :
    (startTimer h).timer = true := by
  unfold startTimer
  rw [if_pos ht.2]
  simp only [bne_iff_ne]
  omega

/-! ## One step -/

/-- A step of `sending_thread`: what is outstanding was so before, or has its timer started. -/
theorem sendAtStep_outstanding {pc pc' : SendAt}
    (hp : Published { s with host := h, sender := pc })
    (ht : 0 < h.sock.wndSend.timeout ∧ h.sock.wndSend.timeout < 1000000)
    (he : sendAtStep now free h pc = some (h', pc', out))
    (ho : Proc.Outstanding { s with host := h', sender := pc' }) :
    h'.timer = true ∨ Proc.Outstanding { s with host := h, sender := pc } := by
  cases pc with
  | idle =>
    obtain ⟨smp, hs, hr⟩ := Option.map_eq_some_iff.1 he
    cases hr
    obtain ⟨-, -, -, -, rfl⟩ := sendSample_eq_some_iff.1 hs
    exact Or.inr (Or.inl (ho.elim id id))
  | sampled smp =>
    simp only [sendAtStep] at he
    split_ifs at he
    cases he
    exact Or.inr (ho.imp_right fun hr => hr.resolve_right fun hne => hne rfl)
  | loop v =>
    simp only [sendAtStep] at he
    split_ifs at he
    · cases he
      have hs : ∀ e, (startSample now e h.sock.wndSend).nextseq = h.sock.wndSend.nextseq := fun e => by
        unfold startSample; split_ifs <;> rfl
      have hb : ∀ e, (startSample now e h.sock.wndSend).base = h.sock.wndSend.base := fun e =>
        (startSample_same now e _).2
      refine Or.inr (ho.imp_left fun hne => ?_)
      simpa only [hs, hb] using hne
    · -- `nextseq` is published: it has moved, or nothing was sent
      cases he
      refine Or.inr ?_
      by_cases hns : v.wndNextseq = v.smp.nextseq
      · refine Or.inl ?_
        have hne := ho.elim id False.elim
        rw [← show v.smp.nextseq = h.sock.wndSend.nextseq from hp, ← hns]
        exact hne
      · exact Or.inr (Or.inr hns)
  | sent v dlen =>
    cases he
    by_cases hb : v.smp.base = v.wndNextseq
    · rw [if_pos hb] at ho
      exact Or.inr ho
    · refine Or.inr (Or.inr ?_)
      by_cases hns : v.wndNextseq = v.smp.nextseq
      · exact Or.inl (hns ▸ hb)
      · exact Or.inr hns
  | start v dlen =>
    cases he
    exact Or.inl (startTimer_timer ht)
  | mark v dlen => cases he; exact Or.inr (Or.inr trivial)
  | count v dlen => cases he; exact Or.inr (Or.inr trivial)

/-- A step of `sending_thread` takes nothing away. -/
theorem sendAtStep_kept {pc pc' : SendAt}
    (ht : 0 < h.sock.wndSend.timeout ∧ h.sock.wndSend.timeout < 1000000)
    (he : sendAtStep now free h pc = some (h', pc', out))
    (hk : Proc.Kept { s with host := h, sender := pc }) :
    Proc.Kept { s with host := h', sender := pc' } := by
  cases pc with
  | idle =>
    obtain ⟨smp, -, hr⟩ := Option.map_eq_some_iff.1 he
    cases hr
    exact hk
  | sampled smp =>
    simp only [sendAtStep] at he
    split_ifs at he
    cases he
    exact hk
  | loop v =>
    simp only [sendAtStep] at he
    split_ifs at he <;> cases he <;> exact hk
  | sent v dlen =>
    cases he
    split_ifs
    · exact Or.inr (Or.inr (Or.inl rfl))
    · exact hk
  | start v dlen => cases he; exact Or.inl (startTimer_timer ht)
  | mark v dlen | count v dlen => cases he; exact hk

/-- A step of `retrans_thread` leaves something to outstanding bytes. -/
theorem retransAtStep_kept {pc pc' : RetransAt}
    (ht : 0 < h.sock.wndSend.timeout ∧ h.sock.wndSend.timeout < 1000000)
    (hg : KeepsTimer { s with host := h, retrans := pc } .retrans)
    (ho : Proc.Outstanding { s with host := h, retrans := pc })
    (hk : Proc.Kept { s with host := h, retrans := pc })
    (he : retransAtStep free h pc = some (h', pc', out)) :
    Proc.Kept { s with host := h', retrans := pc' } := by
  cases pc with
  | idle =>
    simp only [retransAtStep] at he
    split_ifs at he
    cases he
    exact hk
  | woken =>
    simp only [retransAtStep] at he
    split_ifs at he
    · cases he
      exact Or.inr (Or.inr (Or.inr (Or.inl rfl)))
    · cases he
      exact hk
  | checked =>
    cases he
    split_ifs
    · exact Or.inr (Or.inr (Or.inr (Or.inl rfl)))
    · exact hk
  | cleared =>
    cases he
    split_ifs with hlt
    · exact Or.inr (Or.inr (Or.inr (Or.inl rfl)))
    · rcases hg hlt ho with h1 | h1 | h1 | h1
      · exact Or.inl h1
      · exact Or.inr (Or.inl h1)
      · exact Or.inr (Or.inr (Or.inl h1))
      · exact Or.inr (Or.inr (Or.inr (Or.inr h1)))
  | clear | setFlag => cases he; exact Or.inr (Or.inr (Or.inr (Or.inl rfl)))
  | setRetrans => cases he; exact Or.inr (Or.inl rfl)
  | want =>
    simp only [retransAtStep] at he
    split_ifs at he
    cases he
    exact hk
  | locked =>
    cases he
    split_ifs <;> exact hk
  | loop v =>
    simp only [retransAtStep] at he
    split_ifs at he with hlt
    · cases he
      exact hk
    · -- the pass ends, and `RETRANS` is FALSE
      cases he
      rcases hg hlt ho with h1 | h1
      · exact Or.inl h1
      · exact Or.inr (Or.inr (Or.inr (Or.inr h1)))
  | sent v dlen =>
    cases he
    split_ifs
    · exact Or.inr (Or.inr (Or.inr (Or.inl rfl)))
    · exact hk
  | probed | start v dlen => cases he; exact Or.inl (startTimer_timer ht)
  | readAck | readHave | readBase | mark | unmark => cases he; exact hk

/-- A step of the handler keeps the invariant. -/
theorem handleAtStep_kept {pc pc' : HandleAt}
    (ht : 0 < h.sock.wndSend.timeout ∧ h.sock.wndSend.timeout < 1000000)
    (hg : KeepsTimer { s with host := h, handler := pc } .handle)
    (hi : TimerInv { s with host := h, handler := pc })
    (he : handleAtStep free h pc = some (h', pc')) :
    TimerInv { s with host := h', handler := pc' } := by
  cases pc with
  | idle => cases he
  | fastFlag | slideAck | slideBase =>
    cases he
    exact fun _ => Or.inr (Or.inr (Or.inr (Or.inr rfl)))
  | fastRetrans => cases he; exact fun _ => Or.inr (Or.inl rfl)
  | compare =>
    cases he
    split_ifs with heq
    · intro ho
      rcases hg heq (ho.resolve_left fun hne => hne heq) with h1 | h1 | h1 | h1
      · exact Or.inl h1
      · exact Or.inr (Or.inl h1)
      · exact Or.inr (Or.inr (Or.inl h1))
      · exact Or.inr (Or.inr (Or.inr (Or.inl h1)))
    · exact fun _ => Or.inr (Or.inr (Or.inr (Or.inr rfl)))
  | stop =>
    cases he
    intro ho
    rcases hg ho with h1 | h1 | h1
    · exact Or.inr (Or.inl h1)
    · exact Or.inr (Or.inr (Or.inl h1))
    · exact Or.inr (Or.inr (Or.inr (Or.inl h1)))
  | start | zeroStart => cases he; exact fun _ => Or.inl (startTimer_timer ht)
  | cleanTest =>
    cases he
    split_ifs <;> exact hi
  | clean =>
    simp only [handleAtStep] at he
    split_ifs at he
    obtain ⟨sock, hd, hr⟩ := Option.map_eq_some_iff.1 he
    cases hr
    obtain ⟨-, rfl⟩ := dropAcked_eq_some hd
    exact hi
  | zero =>
    cases he
    split_ifs
    · exact fun _ => Or.inr (Or.inr (Or.inr (Or.inr rfl)))
    · exact hi
  | stopMark | startMark | zeroMark => cases he; exact hi

/-- **One step keeps the invariant.** -/
theorem timerInv_step (hth : ThreadInv s) (ht : StartArms s) (hg : KeepsTimer s e)
    (hi : TimerInv s) (he : procStep s e = some s') : TimerInv s' := by
  cases e with
  | send now =>
    obtain ⟨⟨h, pc, out⟩, hk, rfl⟩ := Option.map_eq_some_iff.1 he
    intro ho
    rcases sendAtStep_outstanding hth.published ht hk ho with htm | hold
    · exact Or.inl htm
    · exact sendAtStep_kept ht hk (hi hold)
  | retrans =>
    obtain ⟨⟨h, pc, out⟩, hk, rfl⟩ := Option.map_eq_some_iff.1 he
    have hsame := retransAtStep_same hk
    intro ho
    have hold : s.Outstanding := ho.imp_left fun hne => by
      rw [← hsame.base, ← hsame.nextseq]; exact hne
    exact retransAtStep_kept ht hg hold (hi hold) hk
  | handle =>
    obtain ⟨⟨h, pc⟩, hk, rfl⟩ := Option.map_eq_some_iff.1 he
    exact handleAtStep_kept ht hg hi hk
  | packet now pkt =>
    obtain ⟨hidle, hs', hsame, hr, htm, -⟩ := packet_cases he
    rw [hs']
    intro ho
    have hold : s.Outstanding := ho.imp_left fun hne => by
      rw [← hsame.base, ← hsame.nextseq]; exact hne
    rcases hi hold with h1 | h1 | h1 | h1 | h1
    · exact Or.inl (htm.trans h1)
    · exact Or.inr (Or.inl (hr.trans h1))
    · exact Or.inr (Or.inr (Or.inl h1))
    · exact Or.inr (Or.inr (Or.inr (Or.inl h1)))
    · rw [hidle] at h1
      cases h1
  | alarm =>
    simp only [procStep] at he
    split_ifs at he
    cases he
    exact fun _ => Or.inr (Or.inl rfl)
  | append data =>
    simp only [procStep] at he
    split_ifs at he
    obtain ⟨sock, ha, rfl⟩ := Option.map_eq_some_iff.1 he
    obtain ⟨-, rfl⟩ := appendData_eq_some ha
    exact hi

/-! ## The bytes in flight -/

/-- The number up to which `ack_cnt` counts: `base`, or the ACK that is about to be stored there. -/
def Proc.ackSeq (s : Proc) : BitVec 32 :=
  match s.handler with
  | .slideBase ack => ack
  | _ => s.host.sock.wndSend.base

/-- The bytes that are sent and not acknowledged, counted by numbers and by cursors. -/
def FlightInv (s : Proc) : Prop :=
  s.sentSeq - s.ackSeq =
    .ofInt 32 s.host.sock.haveSendLen + s.sender.inAir - s.host.sock.wndSend.ackCnt

theorem FlightInv.congr (hf : FlightInv s) (hs : SameCursors s.host.sock s'.host.sock)
    (hp : s'.sentSeq = s.sentSeq) (hk : s'.ackSeq = s.ackSeq)
    (ha : s'.sender.inAir = s.sender.inAir) : FlightInv s' := by
  unfold FlightInv
  rw [hp, hk, ha, hs.haveSendLen, hs.ackCnt]
  exact hf

theorem ackSeq_plain (hp : s.handler.plain = true) : s.ackSeq = s.host.sock.wndSend.base := by
  unfold Proc.ackSeq
  split
  · next hh => rw [hh] at hp; cases hp
  · rfl

theorem flightInv_send {pc pc' : SendAt} (hp : Published { s with host := h, sender := pc })
    (hf : FlightInv { s with host := h, sender := pc })
    (he : sendAtStep now free h pc = some (h', pc', out)) :
    FlightInv { s with host := h', sender := pc' } := by
  cases pc with
  | idle =>
    obtain ⟨smp, -, hr⟩ := Option.map_eq_some_iff.1 he
    cases hr
    exact hf
  | sampled smp =>
    simp only [sendAtStep] at he
    split_ifs at he
    cases he
    refine hf.congr (SameCursors.refl _) ?_ rfl rfl
    exact hp
  | loop v =>
    simp only [sendAtStep] at he
    split_ifs at he
    · cases he
      have hs := fun e => startSample_same now e h.sock.wndSend
      unfold FlightInv Proc.sentSeq Proc.ackSeq SendAt.inAir at hf ⊢
      dsimp only at hf ⊢
      rw [(hs _).1, (hs _).2]
      bv_omega
    · cases he
      exact hf
  | sent v dlen =>
    cases he
    split_ifs <;> exact hf
  | start v dlen | mark v dlen => cases he; exact hf
  | count v dlen =>
    cases he
    unfold FlightInv Proc.sentSeq Proc.ackSeq SendAt.inAir at hf ⊢
    dsimp only at hf ⊢
    rw [hf, BitVec.ofInt_add, BitVec.ofInt_natCast, BitVec.ofNat_toNat, BitVec.setWidth_eq]
    bv_omega

theorem flightInv_handle {pc pc' : HandleAt} (hf : FlightInv { s with host := h, handler := pc })
    (he : handleAtStep free h pc = some (h', pc')) :
    FlightInv { s with host := h', handler := pc' } := by
  rcases handleAtStep_cases he with ⟨hp, -, hp', hsame⟩ | ⟨ack, rfl, rfl, rfl⟩ |
    ⟨ack, rfl, rfl, rfl⟩ | ⟨rfl, rfl, -, sock, hd, rfl⟩
  · refine hf.congr hsame (sentSeq_congr rfl hsame.nextseq) ?_ rfl
    have hold : Proc.ackSeq { s with host := h, handler := pc } = h.sock.wndSend.base :=
      ackSeq_plain hp
    rw [hold, ← hsame.base]
    exact ackSeq_plain hp'
  · -- `ack_cnt` and the number it counts to move by the same amount
    have hn : Proc.sentSeq { s with
        host := { h with sock := { h.sock with wndSend := { h.sock.wndSend with
          ackCnt := h.sock.wndSend.ackCnt + (ack - h.sock.wndSend.base) } } }
        handler := .slideBase ack } = Proc.sentSeq { s with host := h, handler := .slideAck ack } :=
      sentSeq_congr rfl rfl
    unfold FlightInv Proc.ackSeq at hf ⊢
    rw [hn]
    dsimp only at hf ⊢
    bv_omega
  · exact hf
  · obtain ⟨-, rfl⟩ := dropAcked_eq_some hd
    unfold FlightInv Proc.sentSeq Proc.ackSeq at hf ⊢
    dsimp only at hf ⊢
    rw [hf, BitVec.ofInt_toInt]
    bv_omega

theorem flightInv_step (hth : ThreadInv s) (hf : FlightInv s) (he : procStep s e = some s') :
    FlightInv s' := by
  cases e with
  | send now =>
    obtain ⟨⟨h, pc, out⟩, hk, rfl⟩ := Option.map_eq_some_iff.1 he
    exact flightInv_send hth.published hf hk
  | retrans =>
    obtain ⟨⟨h, pc, out⟩, hk, rfl⟩ := Option.map_eq_some_iff.1 he
    have hsame := retransAtStep_same hk
    refine hf.congr hsame (sentSeq_congr rfl hsame.nextseq) ?_ rfl
    unfold Proc.ackSeq
    dsimp only [Proc.retransMoved]
    rw [hsame.base]
  | handle =>
    obtain ⟨⟨h, pc⟩, hk, rfl⟩ := Option.map_eq_some_iff.1 he
    exact flightInv_handle hf hk
  | packet now pkt =>
    obtain ⟨hidle, hs', hsame, -, -, hpc⟩ := packet_cases he
    have hold : s.ackSeq = s.host.sock.wndSend.base := ackSeq_plain (by rw [hidle]; rfl)
    have hnew : s'.ackSeq = s'.host.sock.wndSend.base := by
      rcases hpc with hpc | ⟨-, -, -, hpc⟩
      · exact ackSeq_plain hpc
      · unfold Proc.ackSeq; rw [hpc]
    rw [hs']
    refine hf.congr hsame (sentSeq_congr rfl hsame.nextseq) ?_ rfl
    rw [← hs', hnew, hold, hsame.base]
  | alarm =>
    simp only [procStep] at he
    split_ifs at he
    cases he
    exact hf
  | append data =>
    simp only [procStep] at he
    split_ifs at he
    obtain ⟨sock, ha, rfl⟩ := Option.map_eq_some_iff.1 he
    obtain ⟨-, rfl⟩ := appendData_eq_some ha
    exact hf

/-! ## Runs -/

/-- What holds in every state of a run that keeps the timer. -/
structure KeptInv (s : Proc) : Prop where
  threads : ThreadInv s
  timer : TimerInv s
  flight : FlightInv s

theorem keptInv_start (a b : TjuSockAddr) : KeptInv (.start a b) where
  threads := threadInv_start a b
  timer ho := by simp [Proc.Outstanding, Proc.start, establishedHost, tjuSocket, SenderWindow.init,
    SendAt.relies] at ho
  flight := by simp [FlightInv, Proc.sentSeq, Proc.ackSeq, Proc.start, establishedHost, tjuSocket,
    SenderWindow.init, SendAt.inAir]

theorem keptInv_reached {a b : TjuSockAddr}
    (hr : ReachBy procStep (fun s e => StartArms s ∧ KeepsTimer s e) (.start a b) s) : KeptInv s :=
  hr.inv (keptInv_start a b) fun _ _ _ hi hg he =>
    ⟨threadInv_step hi.threads he, timerInv_step hi.threads hg.1 hg.2 hi.timer he,
      flightInv_step hi.threads hi.flight he⟩

/-- The threads are between two passes, and no packet is being handled. -/
structure AtRest (s : Proc) : Prop where
  sender : s.sender = .idle
  retrans : s.retrans = .idle
  handler : s.handler = .idle

/-- **No lost retransmission.**  In every run in which `startTimer` arms the timer, and none of the
    four statements takes away what outstanding bytes have, unacknowledged bytes at rest have a
    timer that is armed or `RETRANS`. -/
theorem no_lost_retransmission {a b : TjuSockAddr}
    (hr : ReachBy procStep (fun s e => StartArms s ∧ KeepsTimer s e) (.start a b) s)
    (hrest : AtRest s) (hlt : s.host.sock.wndSend.ackCnt < .ofInt 32 s.host.sock.haveSendLen) :
    s.host.timer = true ∨ s.host.retrans = true := by
  obtain ⟨hs, hre, hh⟩ := hrest
  have hi := keptInv_reached hr
  have hfl := hi.flight
  unfold FlightInv Proc.sentSeq Proc.ackSeq at hfl
  rw [hs, hh] at hfl
  have hne : s.host.sock.wndSend.base ≠ s.host.sock.wndSend.nextseq := by
    intro heq
    rw [heq] at hfl
    simp only [SendAt.inAir] at hfl
    bv_omega
  rcases hi.timer (Or.inl hne) with h1 | h1 | h1 | h1 | h1
  · exact Or.inl h1
  · exact Or.inr h1
  · rw [hs] at h1; cases h1
  · rw [hre] at h1; cases h1
  · rw [hh] at h1; cases h1

/-- Two bytes are sent, and sent again after a timeout; then the first one is acknowledged. -/
def firstAcked : List ProcEv :=
  .append [7, 8] :: List.replicate 8 (.send 0) ++ [.alarm] ++ List.replicate 14 .retrans ++
    [.packet 0 (bareAck 2)] ++ List.replicate 7 .handle

/-- The client after `firstAcked`. -/
def byteLeft : Proc :=
  (exec procStep (.start ⟨clientIp, 5678⟩ ⟨serverIp, 1234⟩) firstAcked).getD
    (.start ⟨clientIp, 5678⟩ ⟨serverIp, 1234⟩)

/-- A byte is left in flight, and the timer is armed. -/
theorem no_lost_retransmission_acked :
    byteLeft.host.timer = true ∨ byteLeft.host.retrans = true := by
  have hrun : exec procStep (.start ⟨clientIp, 5678⟩ ⟨serverIp, 1234⟩) firstAcked = some byteLeft :=
    exec_getD (by decide +kernel) _
  have hguard : Along procStep (fun s e => StartArms s ∧ KeepsTimer s e)
      (.start ⟨clientIp, 5678⟩ ⟨serverIp, 1234⟩) firstAcked := by decide +kernel
  have hrest : AtRest byteLeft := ⟨rfl, rfl, rfl⟩
  have hlt : byteLeft.host.sock.wndSend.ackCnt < .ofInt 32 byteLeft.host.sock.haveSendLen := by
    decide +kernel
  exact no_lost_retransmission (ReachBy.of_along firstAcked hguard hrun) hrest hlt

/-- The client sends one byte. -/
def sendByte : List ProcEv := .append [7] :: List.replicate 8 (.send 0)

/-- The byte is sent, the timer runs out, and `retrans_thread` sends the byte again; the timer that
    this pass starts runs out before its end. -/
def lateAlarm : List ProcEv :=
  sendByte ++ [.alarm] ++ List.replicate 11 .retrans ++ [.alarm] ++ List.replicate 3 .retrans

/-- The client after `lateAlarm`. -/
def byteLost : Proc :=
  (exec procStep (.start ⟨clientIp, 5678⟩ ⟨serverIp, 1234⟩) lateAlarm).getD
    (.start ⟨clientIp, 5678⟩ ⟨serverIp, 1234⟩)

/-- A pass ends with a `RETRANS` that a second SIGALRM has set. -/
theorem no_lost_retransmission_late : ¬ ∀ s,
    ReachBy procStep (fun s _ => StartArms s) (.start ⟨clientIp, 5678⟩ ⟨serverIp, 1234⟩) s →
    AtRest s → s.host.sock.wndSend.ackCnt < .ofInt 32 s.host.sock.haveSendLen →
    s.host.timer = true ∨ s.host.retrans = true := by
  intro hall
  have hrun : exec procStep (.start ⟨clientIp, 5678⟩ ⟨serverIp, 1234⟩) lateAlarm = some byteLost := rfl
  have harms : Along procStep (fun s _ => StartArms s) (.start ⟨clientIp, 5678⟩ ⟨serverIp, 1234⟩)
      lateAlarm := by decide
  have hrest : AtRest byteLost := ⟨rfl, rfl, rfl⟩
  have hlt : byteLost.host.sock.wndSend.ackCnt < .ofInt 32 byteLost.host.sock.haveSendLen := by
    decide
  have hno : ¬ (byteLost.host.timer = true ∨ byteLost.host.retrans = true) := by decide
  exact hno (hall byteLost (ReachBy.of_along lateAlarm harms hrun) hrest hlt)

end Tju
