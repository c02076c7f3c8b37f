/-
  `send_lock` is given back.

  `sending_thread`, `retrans_thread`, `tju_send` and the clean-up of
  `tju_handle_packet` exclude each other by `send_lock`.  No thread waits for
  anything else, and whoever holds the lock makes a bounded number of
  statements before it releases it, whatever the others do in the meantime.

  * `blocked_waits`: a thread in the middle of its code that cannot go on waits
    for the lock that another one holds;
  * `underLock_step`: no step under the lock raises what is left to do, and one of its
    holder lowers it;
  * `lock_given_back`: both, for every run.
-/
import TjuTcp.Fine
import TjuTcp.Lib.Simulation

namespace Tju

open Lib

/-- `e` is the next statement of the thread that holds `send_lock`. -/
def Holder (p : Proc) : ProcEv → Bool
  | .send _ => p.sender.holds
  | .retrans => p.retrans.holds
  | _ => false

/-- `e` is a statement in the middle of the code of a thread. -/
def Midway (p : Proc) : ProcEv → Prop
  | .send _ => p.sender ≠ .idle
  | .retrans => p.retrans ≠ .idle
  | .handle => p.handler ≠ .idle
  | _ => False

/-- At most how many statements `sending_thread` makes before it releases the lock, with `sent`
    bytes counted in `have_send_len`. -/
def SendAt.left (sent : ℕ) : SendAt → ℕ
  | idle | sampled _ => 0
  | loop v => 5 * (v.tmpLen.toNat - sent) + 1
  | .sent v dlen => 5 * (v.tmpLen.toNat - (sent + dlen.toNat)) + 5
  | start v dlen => 5 * (v.tmpLen.toNat - (sent + dlen.toNat)) + 4
  | mark v dlen => 5 * (v.tmpLen.toNat - (sent + dlen.toNat)) + 3
  | count v dlen => 5 * (v.tmpLen.toNat - (sent + dlen.toNat)) + 2

/-- The bytes that a pass of `retrans_thread` has still to send. -/
def RetransVars.rest (v : RetransVars) : ℕ := v.haveSent.toNat - v.wndAckCnt.toNat

/-- The same for `retrans_thread`. -/
def RetransAt.left (sent : ℕ) : RetransAt → ℕ
  | locked => 5 * sent + 6
  | readAck => 5 * sent + 5
  | readHave _ => 5 * sent + 4
  | readBase a n => 5 * (n.toNat - a.toNat) + 3
  | loop v => 5 * v.rest + 2
  | .sent v dlen => 5 * (v.next dlen).rest + 6
  | start v dlen => 5 * (v.next dlen).rest + 5
  | mark v dlen => 5 * (v.next dlen).rest + 4
  | unmark => 1
  | _ => 0

/-- What is left to do under the lock. -/
def Proc.left (p : Proc) : ℕ :=
  p.sender.left p.host.sock.haveSendLen.toNat + p.retrans.left p.host.sock.haveSendLen.toNat

/-- The cursors are in order, and a pass has read `have_send_len` under the lock. -/
structure LockInv (p : Proc) : Prop where
  proc : ProcInv p
  haveRead : HaveRead p

variable {p p' : Proc} {e : ProcEv} {now : ℕ} {free : Bool} {h : Host} {out : List Buf}

theorem lockInv_step (hi : LockInv p) (hg : Genuine p e) (he : procStep p e = some p') :
    LockInv p' :=
  ⟨procInv_step hi.proc hg he, haveRead_step hi.proc.threads hi.haveRead he⟩

theorem ProcInv.have_le (hi : ProcInv p) :
    p.host.sock.haveSendLen.toNat ≤ p.host.sock.sendingBuf.length :=
  (Nat.le_add_right _ _).trans hi.fits

/-- `have_send_len` is the same as an `int` and as a `uint32_t`. -/
theorem ProcInv.have_word (hi : ProcInv p) :
    (BitVec.ofInt 32 p.host.sock.haveSendLen).toNat = p.host.sock.haveSendLen.toNat := by
  have hnn := hi.have_nonneg
  have hle := hi.have_le.trans hi.len_le
  simp only [maxSockBufSize, maxLen] at hle
  bv_omega

/-- A segment of the loop is not empty, and ends at its limit or before. -/
theorem nextDlen_fits {a b : BitVec 32} (hlt : a < b) :
    1 ≤ (nextDlen (b - a)).toNat ∧ a.toNat + (nextDlen (b - a)).toNat ≤ b.toNat := by
  have hmin := min_le_left (b - a).toNat maxDlen
  have hpos : 1 ≤ min (b - a).toNat maxDlen := le_min (by bv_omega) (by decide)
  rw [nextDlen_toNat]
  refine ⟨hpos, ?_⟩
  bv_omega

/-! ## Who waits -/

/-- `retrans_thread` can make its next statement, unless it wants the lock. -/
theorem retrans_goes (free : Bool) (hi : LockInv p) (hpc : p.retrans ≠ .idle)
    (hf : p.retrans = .want → free = true) : (retransAtStep free p.host p.retrans).isSome := by
  have hread := hi.haveRead
  have hle := hi.proc.have_le
  have hword := hi.proc.have_word
  unfold HaveRead at hread
  cases hp : p.retrans with
  | idle => exact absurd hp hpc
  | want =>
    rw [hf hp]
    rfl
  | loop v =>
    rw [hp] at hread
    simp only [retransAtStep]
    split_ifs with hlt hfit
    · rfl
    · refine absurd ?_ hfit
      have hend := (nextDlen_fits hlt).2
      have hsent : v.haveSent.toNat = p.host.sock.haveSendLen.toNat := by
        rw [hread]
        exact hword
      omega
    · rfl
  | woken =>
    simp only [retransAtStep]
    split_ifs <;> rfl
  | _ => rfl

/-- **Who is blocked waits for the lock**, and another thread holds it. -/
theorem blocked_waits (hi : LockInv p) (hm : Midway p e) (he : procStep p e = none) :
    p.free = false ∧ Holder p e = false := by
  cases e with
  | send now =>
    have he := Option.map_eq_none_iff.1 he
    cases hp : p.sender with
    | idle => exact absurd hp hm
    | sampled smp =>
      rw [hp] at he
      simp only [sendAtStep] at he
      split_ifs at he with hf
      exact ⟨Bool.eq_false_iff.2 hf, by simp [Holder, hp, SendAt.holds]⟩
    | loop v =>
      rw [hp] at he
      simp only [sendAtStep] at he
      split_ifs at he
    | _ =>
      rw [hp] at he
      cases he
  | retrans =>
    have he := Option.map_eq_none_iff.1 he
    by_cases hw : p.retrans = .want
    · rw [hw] at he
      simp only [retransAtStep] at he
      split_ifs at he with hf
      exact ⟨Bool.eq_false_iff.2 hf, by simp [Holder, hw, RetransAt.holds]⟩
    · have hgoes := retrans_goes p.free hi hm fun h => absurd h hw
      rw [he] at hgoes
      cases hgoes
  | handle =>
    have he := Option.map_eq_none_iff.1 he
    cases hp : p.handler with
    | idle => exact absurd hp hm
    | clean =>
      rw [hp] at he
      simp only [handleAtStep] at he
      split_ifs at he with hf
      · -- the bytes to be dropped are there
        have hd := Option.map_eq_none_iff.1 he
        unfold dropAcked at hd
        split_ifs at hd with hle
        exact absurd (hi.proc.ack_le.trans hi.proc.fits) hle
      · exact ⟨Bool.eq_false_iff.2 hf, rfl⟩
    | _ =>
      rw [hp] at he
      cases he
  | _ => exact hm.elim

/-! ## What is left to do -/

/-- A statement of `sending_thread` under the lock. -/
theorem sendAtStep_left {pc : SendAt} (hi : LockInv p) (hh : p.sender.holds = true)
    (he : sendAtStep now free p.host p.sender = some (h, pc, out)) :
    1 + pc.left h.sock.haveSendLen.toNat ≤ p.sender.left p.host.sock.haveSendLen.toNat := by
  have hnn := hi.proc.have_nonneg
  have hword := hi.proc.have_word
  cases hp : p.sender with
  | idle | sampled =>
    rw [hp] at hh
    cases hh
  | loop v =>
    rw [hp] at he
    simp only [sendAtStep] at he
    split_ifs at he with hlt
    · cases he
      obtain ⟨hpos, hend⟩ := nextDlen_fits hlt
      rw [hword] at hend
      simp only [SendAt.left]
      omega
    · cases he
      simp only [SendAt.left]
      omega
  | sent v dlen =>
    rw [hp] at he
    cases he
    split_ifs <;> simp only [SendAt.left] <;> omega
  | start v dlen =>
    rw [hp] at he
    cases he
    have hsame : (startTimer p.host).sock = p.host.sock := rfl
    simp only [SendAt.left, hsame]
    omega
  | mark v dlen =>
    rw [hp] at he
    cases he
    simp only [SendAt.left]
    omega
  | count v dlen =>
    rw [hp] at he
    cases he
    simp only [SendAt.left]
    omega

/-- A statement of `retrans_thread` under the lock. -/
theorem retransAtStep_left {pc : RetransAt} (hi : LockInv p) (hh : p.retrans.holds = true)
    (he : retransAtStep free p.host p.retrans = some (h, pc, out)) :
    1 + pc.left h.sock.haveSendLen.toNat ≤ p.retrans.left p.host.sock.haveSendLen.toNat := by
  have hword := hi.proc.have_word
  rw [(retransAtStep_same he).haveSendLen]
  cases hp : p.retrans with
  | locked | readAck | mark | unmark =>
    rw [hp] at he
    cases he
    simp only [RetransAt.left]
    omega
  | readHave a =>
    rw [hp] at he
    cases he
    simp only [RetransAt.left, hword]
    omega
  | readBase a n =>
    rw [hp] at he
    cases he
    simp only [RetransAt.left, RetransVars.rest]
    omega
  | loop v =>
    rw [hp] at he
    simp only [retransAtStep] at he
    split_ifs at he with hlt hfit
    · cases he
      obtain ⟨hpos, hend⟩ := nextDlen_fits hlt
      have hsum : (v.wndAckCnt + nextDlen (v.haveSent - v.wndAckCnt)).toNat =
          v.wndAckCnt.toNat + (nextDlen (v.haveSent - v.wndAckCnt)).toNat := by
        rw [BitVec.toNat_add, Nat.mod_eq_of_lt (hend.trans_lt v.haveSent.isLt)]
      simp only [RetransAt.left, RetransVars.rest, RetransVars.next, hsum]
      omega
    · cases he
      simp only [RetransAt.left]
      omega
  | sent v dlen =>
    rw [hp] at he
    cases he
    split_ifs <;> simp only [RetransAt.left] <;> omega
  | start v dlen =>
    rw [hp] at he
    cases he
    simp only [RetransAt.left]
    omega
  | _ =>
    rw [hp] at hh
    cases hh

theorem SendAt.left_free {pc : SendAt} {n : ℕ} (hf : pc.holds = false) : pc.left n = 0 := by
  cases pc <;> first | rfl | cases hf

theorem RetransAt.left_free {pc : RetransAt} {n : ℕ} (hf : pc.holds = false) : pc.left n = 0 := by
  cases pc <;> first | rfl | cases hf

/-- Who does not hold the lock does not get it while it is taken. -/
theorem holds_not {b b' : Bool} (hf : p.free = false) (hb : b = false)
    (hstep : b' = true → b = true ∨ p.free = true) : b' = false := by
  by_contra hne
  rcases hstep (Bool.not_eq_false _ ▸ hne) with h | h
  · exact Bool.noConfusion (hb.symm.trans h)
  · exact Bool.noConfusion (hf.symm.trans h)

theorem Proc.left_congr (hs : p'.sender = p.sender) (hr : p'.retrans = p.retrans)
    (hh : p'.host.sock.haveSendLen = p.host.sock.haveSendLen) : p'.left = p.left := by
  unfold Proc.left
  rw [hs, hr, hh]

/-- **One step under the lock.** -/
theorem underLock_step (hi : LockInv p) (hf : p.free = false) (he : procStep p e = some p') :
    (if Holder p e then 1 else 0) + p'.left ≤ p.left := by
  have hsame : Holder p e = false → p'.left = p.left →
      (if Holder p e then 1 else 0) + p'.left ≤ p.left := fun hno heq => by
    rw [hno, heq]
    exact (Nat.zero_add _).le
  have hmutex := hi.proc.threads.mutex
  cases e with
  | send now =>
    obtain ⟨⟨h, pc, out⟩, hk, rfl⟩ := Option.map_eq_some_iff.1 he
    cases hh : p.sender.holds with
    | true =>
      have hfree : p.retrans.holds = false :=
        hmutex.resolve_left (by rw [hh]; exact Bool.noConfusion)
      have hleft := sendAtStep_left hi hh hk
      have hold : Holder p (.send now) = true := hh
      simp only [hold, if_true, Proc.left, RetransAt.left_free hfree]
      omega
    | false =>
      have hpc : pc.holds = false := holds_not hf hh (sendAtStep_holds hk)
      refine hsame hh ?_
      simp only [Proc.left, SendAt.left_free hh, SendAt.left_free hpc, sendAtStep_have hk hh]
  | retrans =>
    obtain ⟨⟨h, pc, out⟩, hk, rfl⟩ := Option.map_eq_some_iff.1 he
    have hhave := (retransAtStep_same hk).haveSendLen
    cases hh : p.retrans.holds with
    | true =>
      have hfree : p.sender.holds = false :=
        hmutex.resolve_right (by rw [hh]; exact Bool.noConfusion)
      have hleft := retransAtStep_left hi hh hk
      have hold : Holder p .retrans = true := hh
      simp only [hold, if_true, Proc.left, Proc.retransMoved, SendAt.left_free hfree]
      omega
    | false =>
      have hpc : pc.holds = false := holds_not hf hh (retransAtStep_holds hk)
      refine hsame hh ?_
      simp only [Proc.left, Proc.retransMoved, RetransAt.left_free hh, RetransAt.left_free hpc,
        hhave]
  | handle =>
    obtain ⟨hfr, hm⟩ := handle_cases he
    refine hsame rfl (Proc.left_congr hfr.sender hfr.retrans ?_)
    cases hm with
    | same _ _ hs => exact hs.haveSendLen
    | slideAck _ _ _ hs | slideBase _ _ _ hs => rw [hs]
    | clean _ _ hfree => rw [hf] at hfree; cases hfree
  | packet now pkt =>
    obtain ⟨-, hs, hcur, -⟩ := packet_cases he
    exact hsame rfl (Proc.left_congr (by rw [hs]) (by rw [hs]) hcur.haveSendLen)
  | alarm =>
    simp only [procStep] at he
    split_ifs at he
    cases he
    exact hsame rfl rfl
  | append data =>
    simp only [procStep, hf] at he
    cases he

/-! ## Runs -/

/-- What is left is bounded by the size of the buffer. -/
theorem left_le (hi : LockInv p) : p.left ≤ 5 * maxSockBufSize + 6 := by
  have hle := hi.proc.have_le
  have hlen := hi.proc.len_le
  have hsend : p.sender.left p.host.sock.haveSendLen.toNat ≤
      5 * p.host.sock.sendingBuf.length + 5 := by
    have hlimit := hi.proc.limit
    unfold LimitOk at hlimit
    cases hp : p.sender with
    | idle | sampled => exact Nat.zero_le _
    | _ =>
      rw [hp] at hlimit
      simp only [SendAt.left]
      omega
  have hretrans : p.retrans.left p.host.sock.haveSendLen.toNat ≤
      5 * p.host.sock.sendingBuf.length + 6 := by
    have hread := hi.haveRead
    have hword := hi.proc.have_word
    unfold HaveRead at hread
    cases hp : p.retrans with
    | readBase a n =>
      rw [hp] at hread
      simp only [RetransAt.left, hread, hword]
      omega
    | loop v | sent v | start v | mark v =>
      rw [hp] at hread
      simp only [RetransAt.left, RetransVars.rest, RetransVars.next, hread, hword]
      omega
    | _ =>
      simp only [RetransAt.left]
      omega
  unfold Proc.left
  rcases hi.proc.threads.mutex with hf | hf
  · rw [SendAt.left_free hf]
    omega
  · rw [RetransAt.left_free hf]
    omega

theorem lockInv_reached {a b : TjuSockAddr} (hr : ReachBy procStep Genuine (.start a b) p) :
    LockInv p :=
  hr.inv (I := LockInv) ⟨procInv_start a b, trivial⟩ fun _ _ _ hi hg he => lockInv_step hi hg he

/-- **The lock is given back.**  However the threads, the handler, `tju_send` and the alarms of a
    process alternate: a thread that cannot go on in the middle of its code waits for `send_lock`,
    which another thread holds; and as long as the lock is taken, its holder makes no more than
    `5 * MAX_SOCK_BUF_SIZE + 6` statements. -/
theorem lock_given_back {a b : TjuSockAddr} (hr : ReachBy procStep Genuine (.start a b) p) :
    (∀ e, Midway p e → procStep p e = none → p.free = false ∧ Holder p e = false) ∧
      ∀ es p', Along procStep (fun q e => Genuine q e ∧ q.free = false) p es →
        exec procStep p es = some p' →
        howMany procStep Holder p es ≤ 5 * maxSockBufSize + 6 := by
  have hi := lockInv_reached hr
  refine ⟨fun e hm he => blocked_waits hi hm he, fun es p' hG he => ?_⟩
  refine (howMany_le (I := LockInv) ?_ es hi hG he).trans (left_le hi)
  rintro q e q' hq ⟨hg, hf⟩ hstep
  exact ⟨lockInv_step hq hg hstep, underLock_step hq hf hstep⟩

/-- `sending_thread` holds the lock, and has not sent the byte yet. -/
def lockedByte : List ProcEv := [.append [7], .send 0, .send 0]

/-- The client after `lockedByte`. -/
def byteLocked : Proc :=
  (exec procStep (.start ⟨clientIp, 5678⟩ ⟨serverIp, 1234⟩) lockedByte).getD
    (.start ⟨clientIp, 5678⟩ ⟨serverIp, 1234⟩)

/-- Under the lock it sends the byte, and starts the timer; `retrans_thread` waits for the lock. -/
def underLock : List ProcEv :=
  [.send 0, .send 0, .send 0, .send 0, .alarm, .retrans, .retrans, .retrans, .send 0, .send 0]

theorem lock_given_back_byte : howMany procStep Holder byteLocked underLock = 6 ∧
    howMany procStep Holder byteLocked underLock ≤ 5 * maxSockBufSize + 6 := by
  have hrun : exec procStep (.start ⟨clientIp, 5678⟩ ⟨serverIp, 1234⟩) lockedByte =
      some byteLocked := rfl
  have hgenuine : Along procStep Genuine (.start ⟨clientIp, 5678⟩ ⟨serverIp, 1234⟩) lockedByte := by
    decide
  have hlocked : Along procStep (fun q e => Genuine q e ∧ q.free = false) byteLocked underLock := by
    decide +kernel
  exact ⟨by decide +kernel, (lock_given_back (.of_along lockedByte hgenuine hrun)).2 underLock _
    hlocked (exec_getD (by decide +kernel) byteLocked)⟩

end Tju
