/-
  One connection, statement by statement.

  In `Conn` a pass of a thread is one step.  Here each side is a process of
  `Interleave`: its threads, its handler and the SIGALRMs alternate after every
  statement, with those of the peer and with what the network does.

  * `procOut`, `fineStep`: what a step of a process sends, and one step of the
    connection;
  * `procStep_pos`: how the positions in the stream move;
  * `procOut_inFlight`: what is sent is a piece of the stream, or a probe, if
    no pass of `retrans_thread` reads the fields of two different ACKs.
-/
import TjuTcp.Resend
import TjuTcp.Stream

namespace Tju

open Lib

/-- What a step of a process sends. -/
def procOut (p : Proc) : ProcEv → List Buf
  | .send now => ((sendAtStep now p.free p.host p.sender).map fun r => r.2.2).getD []
  | .retrans => ((retransAtStep p.free p.host p.retrans).map fun r => r.2.2).getD []
  | .packet now pkt =>
    if p.host.sock.state = .established ∧ getFlags pkt = ackFlagMask then []
    else ((tjuHandlePacket now p.host pkt).map Prod.snd).getD []
  | .handle | .alarm | .append _ => []

structure FineConn where
  proc : Side → Proc
  net : Side → List Buf
  read : Side → List Byte

/-- What can happen: a statement of a thread of `x`, and the same as on a connection. -/
inductive FineEv where
  | thread (x : Side) (e : ProcEv)
  | deliver (x : Side) (pkt : Buf) (keep : Bool) (now : ℕ)
  | lose (x : Side) (pkt : Buf)
  | recv (x : Side) (len : ℕ)
  | close (x : Side)
  | closeRetrans (x : Side)
  | wake (x : Side)

namespace FineConn

def put (s : FineConn) (x : Side) (p : Proc) (out : List Buf) (read : List Byte) : FineConn where
  proc := Function.update s.proc x p
  net := Function.update s.net x.peer (s.net x.peer ++ out)
  read := Function.update s.read x (s.read x ++ read)

/-- The process `x` goes on with the host `h`. -/
def putHost (s : FineConn) (x : Side) (h : Host) (out : List Buf) (read : List Byte) : FineConn :=
  s.put x { s.proc x with host := h } out read

def consume (s : FineConn) (x : Side) (pkt : Buf) (keep : Bool) : FineConn :=
  if keep then s else { s with net := Function.update s.net x ((s.net x).erase pkt) }

/-- A step of the process `x`. -/
def moved (s : FineConn) (x : Side) (e : ProcEv) : Option FineConn :=
  (procStep (s.proc x) e).map fun p => s.put x p (procOut (s.proc x) e) []

end FineConn

/-- What a process does without the network: a packet is delivered. -/
def mayMove (p : Proc) : ProcEv → Bool
  | .packet .. => false
  | .append _ => canSend p.host.sock.state
  | _ => true

def fineStep (s : FineConn) : FineEv → Option FineConn
  | .thread x e => if mayMove (s.proc x) e then s.moved x e else none
  | .deliver x pkt keep now =>
    if (s.net x).contains pkt ∧ asleep (s.proc x).host.sock.state = false then
      (s.moved x (.packet now pkt)).map fun t => t.consume x pkt keep
    else none
  | .lose x pkt => some (s.consume x pkt false)
  | .recv x len =>
    if 0 < len then
      (tjuRecv (s.proc x).host.sock len).map fun r =>
        s.putHost x { (s.proc x).host with sock := r.1 } [] r.2
    else none
  | .close x => (tjuClose (s.proc x).host).map fun r => s.putHost x r.1 r.2 []
  | .closeRetrans x =>
    some (s.putHost x (s.proc x).host (closeRetrans (s.proc x).host.sock) [])
  | .wake x => (wake (s.proc x).host).map fun r => s.putHost x r.1 r.2 []

/-- Both sides have just connected, and all their threads wait. -/
def FineConn.start (client server : TjuSockAddr) (net : Side → List Buf) : FineConn where
  proc
    | .client => .start client server
    | .server => .start server client
  net := net
  read _ := []

/-- The guard on a step: a pass of `retrans_thread` reads the fields of one ACK. -/
def Together (s : FineConn) : FineEv → Prop
  | .thread x e => ReadsTogether (s.proc x) e
  | _ => True

instance (s : FineConn) : DecidablePred (Together s)
  | .thread x e => inferInstanceAs (Decidable (ReadsTogether (s.proc x) e))
  | .deliver .. | .lose .. | .recv .. | .close _ | .closeRetrans _ | .wake _ => isTrue trivial

/-! ## Where a process is in its stream -/

/-- How many bytes of the stream were sent. -/
def Proc.sentPos (p : Proc) : ℕ := p.dropped + p.sentLen

/-- How many bytes of the stream are acknowledged. -/
def Proc.ackPos (p : Proc) : ℕ := p.dropped + p.host.sock.wndSend.ackCnt.toNat

variable {p p' : Proc} {e : ProcEv} {now : ℕ} {free : Bool} {h h' : Host} {out : List Buf}
  {pkt : Buf} {s s' : FineConn} {x y : Side}

theorem ProcInv.sentPos_le (hi : ProcInv p) : p.sentPos ≤ p.stream.length := by
  have hlen := congrArg List.length hi.stream
  have hle := hi.fits
  have hd := hi.dropped_le
  rw [List.length_drop] at hlen
  unfold Proc.sentPos
  omega

theorem ProcInv.ackPos_le (hi : ProcInv p) : p.ackPos ≤ p.sentPos :=
  Nat.add_le_add_left hi.ack_le _

theorem ProcInv.sentSeq_toNat (hi : ProcInv p) (hS : Short p.stream) :
    p.sentSeq.toNat = 1 + p.sentPos := by
  have hle := hi.sentPos_le
  simp only [Short, maxRwindowSize, maxDlen] at hS
  rw [hi.sentSeq, BitVec.toNat_ofNat]
  unfold Proc.sentPos at hle ⊢
  omega

/-- `sending_thread` moves forward. -/
theorem sendAtStep_sentLen {pc pc' : SendAt}
    (hi : ProcInv { p with host := h, sender := pc })
    (he : sendAtStep now free h pc = some (h', pc', out)) :
    Proc.sentLen { p with host := h, sender := pc } ≤
      Proc.sentLen { p with host := h', sender := pc' } := by
  have hnn : 0 ≤ h.sock.haveSendLen := hi.have_nonneg
  cases pc with
  | idle =>
    obtain ⟨smp, -, hr⟩ := Option.map_eq_some_iff.1 he
    cases hr
    exact le_rfl
  | sampled smp =>
    simp only [sendAtStep] at he
    split_ifs at he
    cases he
    exact le_rfl
  | loop v =>
    simp only [sendAtStep] at he
    split_ifs at he
    · cases he
      exact Nat.le_add_right _ _
    · cases he
      exact le_rfl
  | sent v dlen =>
    cases he
    split_ifs <;> exact le_rfl
  | start v dlen | mark v dlen =>
    cases he
    exact le_rfl
  | count v dlen =>
    cases he
    show h.sock.haveSendLen.toNat + dlen.toNat ≤ (h.sock.haveSendLen + (dlen.toNat : ℤ)).toNat + 0
    omega

/-- The bytes that an ACK acknowledges are counted at the first of its two updates. -/
def CountsAck (p p' : Proc) : Prop :=
  ∃ ack, p.handler = .slideAck ack ∧ p'.handler = .slideBase ack ∧ ack = .ofNat 32 (1 + p'.ackPos)

/-- **How the positions move.** -/
theorem procStep_pos (hi : ProcInv p) (hi' : ProcInv p') (he : procStep p e = some p') :
    p.sentPos ≤ p'.sentPos ∧ p.ackPos ≤ p'.ackPos ∧ (p'.ackPos = p.ackPos ∨ CountsAck p p') := by
  have hsame : SameCursors p.host.sock p'.host.sock → p'.sender = p.sender →
      p'.dropped = p.dropped →
      p.sentPos ≤ p'.sentPos ∧ p.ackPos ≤ p'.ackPos ∧ (p'.ackPos = p.ackPos ∨ CountsAck p p') := by
    intro hs hpc hd
    unfold Proc.sentPos Proc.sentLen Proc.ackPos
    rw [hs.haveSendLen, hs.ackCnt, hpc, hd]
    exact ⟨le_rfl, le_rfl, Or.inl rfl⟩
  cases e with
  | send now =>
    obtain ⟨⟨h, pc, out⟩, hk, rfl⟩ := Option.map_eq_some_iff.1 he
    have hack : Proc.ackPos { p with host := h, sender := pc } = p.ackPos := by
      unfold Proc.ackPos
      rw [(sendAtStep_same hk).2.1]
    exact ⟨Nat.add_le_add_left (sendAtStep_sentLen (p := p) hi hk) _, hack.ge, Or.inl hack⟩
  | retrans =>
    obtain ⟨⟨h, pc, out⟩, hk, rfl⟩ := Option.map_eq_some_iff.1 he
    exact hsame (retransAtStep_same hk) rfl rfl
  | handle =>
    obtain ⟨hfr, hm⟩ := handle_cases he
    cases hm with
    | same _ _ hs hd => exact hsame hs hfr.sender hd
    | slideAck ack hp hp' hs hd =>
      have hsent : p'.sentPos = p.sentPos := by
        unfold Proc.sentPos Proc.sentLen
        rw [hs, hd, hfr.sender]
      have hnew := hi'.handle
      have hold := hi.handle
      simp only [HandleOk, hp'] at hnew
      simp only [HandleOk, hp] at hold
      refine ⟨hsent.ge, ?_, Or.inr ⟨ack, hp, hp', ?_⟩⟩
      · have hfits := hold.2.trans hi.fits
        have hlen := hi.len_le
        simp only [maxSockBufSize, maxLen] at hlen
        unfold Proc.ackPos
        rw [hs, hd]
        dsimp only
        bv_omega
      · rw [hnew]
        unfold Proc.ackPos
        rw [Nat.add_assoc]
    | slideBase ack hp hp' hs hd =>
      have hsent : p'.sentPos = p.sentPos := by
        unfold Proc.sentPos Proc.sentLen
        rw [hs, hd, hfr.sender]
      have hacked : p'.ackPos = p.ackPos := by
        unfold Proc.ackPos
        rw [hs, hd]
      exact ⟨hsent.ge, hacked.ge, Or.inl hacked⟩
    | clean hp hp' hf hs hd =>
      have hair : p.sender.inAir = 0 := by
        have hfree := (Proc.free_iff.1 hf).1
        cases hpc : p.sender <;> rw [hpc] at hfree <;> first | rfl | cases hfree
      have hle := hi.ack_le
      have hfits := hi.fits
      have hnn := hi.have_nonneg
      rw [sentLen_idle hair] at hle hfits
      obtain ⟨-, hhave, hack, -⟩ := dropAcked_spec hs
        (show p.host.sock.haveSendLen = (p.host.sock.haveSendLen.toNat : ℕ) by omega) hle hfits
        hi.len_le
      have hsent : p'.sentPos = p.sentPos := by
        unfold Proc.sentPos
        rw [sentLen_idle hair, sentLen_idle (by rw [hfr.sender]; exact hair), hhave, hd,
          Int.toNat_natCast]
        omega
      have hacked : p'.ackPos = p.ackPos := by
        unfold Proc.ackPos
        rw [hd, hack]
        exact Nat.add_zero _
      exact ⟨hsent.ge, hacked.ge, Or.inl hacked⟩
  | packet now pkt =>
    obtain ⟨-, hs', hsame', -⟩ := packet_cases he
    exact hsame hsame' (by rw [hs']) (by rw [hs'])
  | alarm =>
    simp only [procStep] at he
    split_ifs at he
    cases he
    exact hsame ⟨rfl, rfl, rfl, rfl, rfl⟩ rfl rfl
  | append data =>
    simp only [procStep] at he
    split_ifs at he
    obtain ⟨sock, ha, rfl⟩ := Option.map_eq_some_iff.1 he
    obtain ⟨-, rfl⟩ := appendData_eq_some ha
    exact ⟨le_rfl, le_rfl, Or.inl rfl⟩

/-! ## What is sent -/

/-- What a pass has read in `have_send_len` is still there: it holds the lock. -/
def HaveRead (p : Proc) : Prop :=
  match p.retrans with
  | .readBase _ n => n = .ofInt 32 p.host.sock.haveSendLen
  | .loop v | .sent v _ | .start v _ | .mark v _ => v.haveSent = .ofInt 32 p.host.sock.haveSendLen
  | _ => True

/-- A process whose passes read the fields of one ACK.  Between the two updates of an ACK `base` is
    behind. -/
structure SegInv (p : Proc) : Prop where
  pass : PassInv p
  haveRead : HaveRead p
  base_pos : 1 ≤ p.host.sock.wndSend.base.toNat
  base_le : p.host.sock.wndSend.base.toNat ≤ 1 + p.ackPos

theorem haveRead_free (hf : p.retrans.holds = false) : HaveRead p := by
  unfold HaveRead
  cases hpc : p.retrans <;> rw [hpc] at hf <;> trivial

theorem HaveRead.congr (hh : HaveRead p) (hr : p'.retrans = p.retrans)
    (hs : p'.host.sock.haveSendLen = p.host.sock.haveSendLen) : HaveRead p' := by
  unfold HaveRead at hh ⊢
  rw [hr, hs]
  exact hh

/-- Without the lock `sending_thread` counts no bytes. -/
theorem sendAtStep_have {pc pc' : SendAt} (he : sendAtStep now free h pc = some (h', pc', out))
    (hf : pc.holds = false) : h'.sock.haveSendLen = h.sock.haveSendLen := by
  cases pc with
  | idle =>
    obtain ⟨smp, -, hr⟩ := Option.map_eq_some_iff.1 he
    cases hr
    rfl
  | sampled smp =>
    simp only [sendAtStep] at he
    split_ifs at he
    cases he
    rfl
  | _ => cases hf

theorem haveRead_retrans {pc : RetransAt} (hh : HaveRead p)
    (he : retransAtStep free p.host p.retrans = some (h, pc, out)) :
    HaveRead (p.retransMoved h pc out) := by
  have hs : h.sock.haveSendLen = p.host.sock.haveSendLen := (retransAtStep_same he).haveSendLen
  unfold HaveRead at hh ⊢
  dsimp only [Proc.retransMoved]
  rw [hs]
  cases hpc : p.retrans <;> rw [hpc] at he hh <;> simp only [retransAtStep] at he <;>
    (try split_ifs at he) <;> cases he <;> trivial

theorem haveRead_step (hi : ThreadInv p) (hh : HaveRead p) (he : procStep p e = some p') :
    HaveRead p' := by
  cases e with
  | send now =>
    obtain ⟨⟨h, pc, out⟩, hk, rfl⟩ := Option.map_eq_some_iff.1 he
    cases hr : p.retrans.holds with
    | false => exact haveRead_free hr
    | true =>
      refine hh.congr rfl (sendAtStep_have hk ?_)
      exact hi.mutex.resolve_right (by rw [hr]; exact Bool.noConfusion)
  | retrans =>
    obtain ⟨⟨h, pc, out⟩, hk, rfl⟩ := Option.map_eq_some_iff.1 he
    exact haveRead_retrans hh hk
  | handle =>
    obtain ⟨hfr, hm⟩ := handle_cases he
    cases hm with
    | same _ _ hs => exact hh.congr hfr.retrans hs.haveSendLen
    | slideAck _ _ _ hs | slideBase _ _ _ hs => exact hh.congr hfr.retrans (by rw [hs])
    | clean _ _ hf => exact haveRead_free (by rw [hfr.retrans]; exact (Proc.free_iff.1 hf).2)
  | packet now pkt =>
    obtain ⟨-, hs', hsame, -⟩ := packet_cases he
    exact hh.congr (by rw [hs']) hsame.haveSendLen
  | alarm =>
    simp only [procStep] at he
    split_ifs at he
    cases he
    exact hh
  | append data =>
    simp only [procStep] at he
    split_ifs at he with hfree
    obtain ⟨sock, ha, rfl⟩ := Option.map_eq_some_iff.1 he
    exact haveRead_free (Proc.free_iff.1 hfree).2

/-- Up to the second update of an ACK `base` stays as it is. -/
theorem base_slideBase {ack : BitVec 32} (he : procStep p e = some p')
    (hp : p'.handler = .slideBase ack) :
    p'.host.sock.wndSend.base = p.host.sock.wndSend.base := by
  cases e with
  | send now =>
    obtain ⟨⟨h, pc, out⟩, hk, rfl⟩ := Option.map_eq_some_iff.1 he
    exact (sendAtStep_same hk).2.2
  | retrans =>
    obtain ⟨⟨h, pc, out⟩, hk, rfl⟩ := Option.map_eq_some_iff.1 he
    exact (retransAtStep_same hk).base
  | handle =>
    obtain ⟨-, hm⟩ := handle_cases he
    cases hm with
    | same _ hp' => rw [hp] at hp'; cases hp'
    | slideAck _ _ _ hs => rw [hs]
    | slideBase _ _ hp' => rw [hp] at hp'; cases hp'
    | clean _ hp' => rw [hp] at hp'; cases hp'
  | packet now pkt => exact (packet_cases he).2.2.1.base
  | alarm =>
    simp only [procStep] at he
    split_ifs at he
    cases he
    rfl
  | append data =>
    simp only [procStep] at he
    split_ifs at he
    obtain ⟨sock, ha, rfl⟩ := Option.map_eq_some_iff.1 he
    obtain ⟨-, rfl⟩ := appendData_eq_some ha
    rfl

/-- Outside of the two updates of an ACK `base` is the number behind the bytes acknowledged. -/
theorem ProcInv.base_toNat (hi : ProcInv p) (hS : Short p.stream)
    (hp : ∀ ack, p.handler ≠ .slideBase ack) :
    p.host.sock.wndSend.base.toNat = 1 + p.ackPos := by
  have hbase : p.host.sock.wndSend.base =
      .ofNat 32 (1 + p.dropped + p.host.sock.wndSend.ackCnt.toNat) := by
    have hh := hi.handle
    unfold HandleOk at hh
    dsimp only at hh
    split at hh
    · exact hh.1
    · next ack hpc => exact absurd hpc (hp ack)
    · exact hh
  have hle := hi.ackPos_le.trans hi.sentPos_le
  simp only [Short, maxRwindowSize, maxDlen] at hS
  rw [hbase, BitVec.toNat_ofNat]
  unfold Proc.ackPos at hle ⊢
  omega

/-- **One step of a process.** -/
theorem segInv_step (hi : SegInv p) (hg : ReadsTogether p e ∧ Genuine p e) (hS : Short p'.stream)
    (he : procStep p e = some p') : SegInv p' := by
  have hpass := passInv_step hi.pass hg he
  obtain ⟨-, hmono, -⟩ := procStep_pos hi.pass.proc hpass.proc he
  have hbase : 1 ≤ p'.host.sock.wndSend.base.toNat ∧
      p'.host.sock.wndSend.base.toNat ≤ 1 + p'.ackPos := by
    by_cases hp : ∃ ack, p'.handler = .slideBase ack
    · obtain ⟨ack, hp⟩ := hp
      have h1 := hi.base_pos
      have h2 := hi.base_le
      rw [base_slideBase he hp]
      omega
    · have hn := hpass.proc.base_toNat hS fun ack h => hp ⟨ack, h⟩
      omega
  exact ⟨hpass, haveRead_step hi.pass.proc.threads hi.haveRead he, hbase.1, hbase.2⟩

/-- A segment cut out of `sending_buf` is a piece of the stream. -/
theorem cut_inFlight {sock : TjuTcp} {S : List Byte} {cut mid len m b : ℕ}
    (hbuf : sock.sendingBuf = S.drop cut) (hS : Short S) (h1 : 1 ≤ len) (h2 : len ≤ maxDlen)
    (hfit : mid + len ≤ sock.sendingBuf.length) (hm : cut + (mid + len) ≤ m) :
    InFlight (dataPacket sock (.ofNat 32 (1 + cut + mid)) ((sock.sendingBuf.drop mid).take len))
      (S.take m) b := by
  have hem : Emits sock mid (.ofNat 32 (1 + cut + mid)) _ (mid + len) := .snoc .nil h1 h2 hfit
  have hlt : 1 + cut + mid < 2 ^ 32 := by
    rw [hbuf, List.length_drop] at hfit
    simp only [Short, maxRwindowSize, maxDlen] at hS
    omega
  refine hem.inFlight hbuf hS (by rw [BitVec.toNat_ofNat, Nat.mod_eq_of_lt hlt]) hm _ ?_
  simp

theorem probe_inFlight {sock : TjuTcp} {T : List Byte} {b : ℕ} (h1 : 1 ≤ sock.wndSend.base.toNat)
    (hb : sock.wndSend.base.toNat ≤ b) : InFlight (probePacket sock) T b := by
  refine ⟨⟨sock.wndSend.base.toNat - 1, []⟩, ?_, Or.inl ⟨rfl, by show _ - 1 < _; omega⟩⟩
  rw [probePacket, dataPacket_eq (by simp)]
  refine ⟨?_, by simp, by simp, by simp, wire_drop _ _⟩
  rw [getSeq_wire]
  show (sock.wndSend.base - 1).toNat = _
  bv_omega

/-- Outside of its loop `sending_thread` sends nothing. -/
theorem sendAtStep_silent {pc pc' : SendAt} (he : sendAtStep now free h pc = some (h', pc', out))
    (hpc : ∀ v, pc ≠ .loop v) : out = [] := by
  cases pc with
  | idle =>
    obtain ⟨smp, -, hr⟩ := Option.map_eq_some_iff.1 he
    cases hr
    rfl
  | sampled smp =>
    simp only [sendAtStep] at he
    split_ifs at he
    cases he
    rfl
  | loop v => exact absurd rfl (hpc v)
  | sent | start | mark | count =>
    cases he
    rfl

/-- `retrans_thread` sends a probe or the segments of its loop. -/
theorem retransAtStep_silent {pc pc' : RetransAt}
    (he : retransAtStep free h pc = some (h', pc', out)) (hw : pc ≠ .woken)
    (hl : ∀ v, pc ≠ .loop v) : out = [] := by
  cases pc with
  | woken => exact absurd rfl hw
  | loop v => exact absurd rfl (hl v)
  | _ =>
    simp only [retransAtStep] at he
    try split_ifs at he
    all_goals
      cases he
      rfl

/-- **What a thread sends** is a piece of what is sent then, or a probe below the window. -/
theorem procOut_inFlight (hi : SegInv p) (hi' : SegInv p') (hS : Short p.stream)
    (he : procStep p e = some p') (hm : mayMove p e = true) :
    ∀ q ∈ procOut p e, getFlags q = noFlag ∧
      InFlight q (p.stream.take p'.sentPos) (1 + p'.ackPos) := by
  intro q hq
  obtain ⟨hsent, hack, -⟩ := procStep_pos hi.pass.proc hi'.pass.proc he
  have hbuf := hi.pass.proc.stream
  cases e with
  | send now =>
    obtain ⟨⟨h, pc, out⟩, hk, rfl⟩ := Option.map_eq_some_iff.1 he
    simp only [procOut, hk, Option.map_some, Option.getD_some] at hq
    cases hpc : p.sender with
    | loop v =>
      have hlen : p.sentLen = p.host.sock.haveSendLen.toNat := sentLen_idle (by rw [hpc]; rfl)
      have hseq : v.wndNextseq = .ofNat 32 (1 + p.dropped + p.host.sock.haveSendLen.toNat) := by
        have h := hi.pass.proc.sentSeq
        rw [hlen, Proc.sentSeq, hpc] at h
        exact h
      have hfit' := hi'.pass.proc.fits
      rw [hpc] at hk
      simp only [sendAtStep] at hk
      split_ifs at hk with hlt
      · cases hk
        have hmax : (nextDlen (v.tmpLen - .ofInt 32 p.host.sock.haveSendLen)).toNat ≤ maxDlen := by
          rw [nextDlen_toNat]
          exact min_le_right _ _
        have hpos : 1 ≤ (nextDlen (v.tmpLen - .ofInt 32 p.host.sock.haveSendLen)).toNat := by
          rw [nextDlen_toNat]
          simp only [maxDlen]
          bv_omega
        rw [sendToLayer3_segment hmax, List.mem_singleton] at hq
        rw [hq, hseq]
        exact ⟨dataPacket_flags .., cut_inFlight hbuf hS hpos hmax hfit' le_rfl⟩
      · cases hk
        cases hq
    | _ =>
      rw [sendAtStep_silent hk fun v => by rw [hpc]; exact SendAt.noConfusion] at hq
      cases hq
  | retrans =>
    obtain ⟨⟨h, pc, out⟩, hk, -⟩ := Option.map_eq_some_iff.1 he
    simp only [procOut, hk, Option.map_some, Option.getD_some] at hq
    cases hpc : p.retrans with
    | woken =>
      rw [hpc] at hk
      simp only [retransAtStep] at hk
      split_ifs at hk
      · cases hk
        rw [show sendToLayer3 (probePacket p.host.sock) 20 = [probePacket p.host.sock] from rfl,
          List.mem_singleton] at hq
        rw [hq]
        exact ⟨dataPacket_flags .., probe_inFlight hi.base_pos (hi.base_le.trans (by omega))⟩
      · cases hk
        cases hq
    | loop v =>
      have hpass := hi.pass.pass
      have hhave := hi.haveRead
      simp only [PassOk, hpc] at hpass
      simp only [HaveRead, hpc] at hhave
      rw [hpc] at hk
      simp only [retransAtStep] at hk
      split_ifs at hk with hlt hfit
      · cases hk
        have hmax : (nextDlen (v.haveSent - v.wndAckCnt)).toNat ≤ maxDlen := by
          rw [nextDlen_toNat]
          exact min_le_right _ _
        have hpos : 1 ≤ (nextDlen (v.haveSent - v.wndAckCnt)).toNat := by
          rw [nextDlen_toNat]
          simp only [maxDlen]
          bv_omega
        have hbound : v.wndAckCnt.toNat + (nextDlen (v.haveSent - v.wndAckCnt)).toNat ≤
            p.host.sock.haveSendLen.toNat := by
          have hmin := min_le_left (v.haveSent - v.wndAckCnt).toNat maxDlen
          have hnn := hi.pass.proc.have_nonneg
          have hfits := hi.pass.proc.fits
          have hlen := hi.pass.proc.len_le
          simp only [maxSockBufSize, maxLen] at hlen
          unfold Proc.sentLen at hfits
          rw [nextDlen_toNat]
          rw [hhave] at hlt hmin ⊢
          bv_omega
        rw [sendToLayer3_segment hmax, List.mem_singleton] at hq
        have hm : p.dropped + (v.wndAckCnt.toNat + (nextDlen (v.haveSent - v.wndAckCnt)).toNat) ≤
            p.sentPos := by
          unfold Proc.sentPos Proc.sentLen
          omega
        rw [hq, hpass.2 hlt]
        exact ⟨dataPacket_flags .., cut_inFlight hbuf hS hpos hmax hfit (hm.trans hsent)⟩
      · cases hk
        cases hq
    | _ =>
      rw [retransAtStep_silent hk (by rw [hpc]; exact RetransAt.noConfusion) fun v => by
        rw [hpc]; exact RetransAt.noConfusion] at hq
      cases hq
  | packet now pkt => cases hm
  | handle | alarm | append => cases hq

end Tju
