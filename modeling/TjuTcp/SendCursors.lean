/-
  The cursors of the sender under arbitrary ACKs.

  The handler compares the number of an ACK with `base` only.  An ACK above
  `nextseq` is taken as valid: it moves `base` and `ack_cnt` behind what was
  sent (`cursors_broken`).  As long as no such ACK arrives, the cursors stay in
  order in every run, and in every state reached the ACKs that keep them in
  order are exactly those below `base` or inside the window
  (`cursors_reached`).
-/
import TjuTcp.Socket
import TjuTcp.Lib.Simulation

namespace Tju

open Lib

/-- The number `ack` lies in the send window `[base, nextseq]`, modulo `2 ^ 32`. -/
def AckInWindow (sock : TjuTcp) (ack : BitVec 32) : Prop :=
  ack - sock.wndSend.base ≤ sock.wndSend.nextseq - sock.wndSend.base

/-- The test the handler makes, below `base`, drops every number outside of the window. -/
def AckOk (sock : TjuTcp) (ack : BitVec 32) : Prop :=
  ack < sock.wndSend.base ∨ AckInWindow sock ack

instance (sock : TjuTcp) (ack : BitVec 32) : Decidable (AckInWindow sock ack) :=
  inferInstanceAs (Decidable (_ ≤ _))

instance (sock : TjuTcp) (ack : BitVec 32) : Decidable (AckOk sock ack) :=
  inferInstanceAs (Decidable (_ ∨ _))

/-- The guard on a step: an ACK handled in ESTABLISHED is not above the window. -/
def AcksOk (h : Host) : SockEv → Prop
  | .packet _ pkt => h.sock.state = .established → getFlags pkt = ackFlagMask →
      AckOk h.sock (getAck pkt)
  | _ => True

instance (h : Host) : DecidablePred (AcksOk h)
  | .packet _ _ => inferInstanceAs (Decidable (_ → _ → _))
  | .append _ | .sendPass _ | .retransPass | .alarm | .recv _ => inferInstanceAs (Decidable True)

/-- Handling the ACK `pkt` is defined and keeps the cursors in order, and moves them only if its
    number lies in the window. -/
def AckKeeps (now : ℕ) (h : Host) (pkt : Buf) : Prop :=
  ∃ h' out, tjuHandlePacket now h pkt = some (h', out) ∧ Cursors h'.sock ∧
    (¬ AckInWindow h.sock (getAck pkt) →
      h'.sock.wndSend.base = h.sock.wndSend.base ∧ h'.sock.wndSend.ackCnt = h.sock.wndSend.ackCnt)

variable {h h' : Host} {pkt : Buf} {now : ℕ}

theorem Cursors.congr {s t : TjuTcp} (hc : Cursors s) (hs : SameCursors s t) : Cursors t where
  ack_le := by rw [hs.ackCnt, hs.haveSendLen]; exact hc.ack_le
  have_le := by rw [hs.sendingBuf, hs.haveSendLen]; exact hc.have_le
  len_le := by rw [hs.sendingBuf]; exact hc.len_le
  flight := by rw [hs.nextseq, hs.base, hs.haveSendLen, hs.ackCnt]; exact hc.flight

/-- The bytes in flight, counted. -/
theorem Cursors.flight_toNat {s : TjuTcp} (hc : Cursors s) :
    s.wndSend.ackCnt.toNat + (s.wndSend.nextseq - s.wndSend.base).toNat = s.haveSendLen.toNat := by
  have h1 := hc.ack_le
  have h2 := hc.have_le
  have h3 := hc.len_le
  simp only [maxSockBufSize, maxLen] at h3
  rw [hc.flight]
  bv_omega

/-- What is sent is in flight. -/
theorem flight_send {next base ack : BitVec 32} {m : ℤ} {n : ℕ}
    (hf : next - base = .ofInt 32 m - ack) (hm : m = m.toNat) (hmn : m.toNat ≤ n) :
    next + .ofNat 32 (n - m.toNat) - base = .ofInt 32 (n : ℤ) - ack := by
  have hn : BitVec.ofInt 32 (n : ℤ) = .ofInt 32 m + .ofNat 32 (n - m.toNat) := by
    rw [hm, Int.toNat_natCast, BitVec.ofInt_natCast, BitVec.ofInt_natCast, ← BitVec.ofNat_add]
    congr 1
    omega
  rw [hn, add_sub_right_comm, hf, add_sub_right_comm]

/-- What is acknowledged is not in flight any more. -/
theorem flight_ack {next base ack ack' num : BitVec 32} {m : ℤ} {c : ℕ}
    (hf : next - base = .ofInt 32 m - ack) (hm : m = m.toNat) (hcm : c ≤ m.toNat)
    (hc : c ≤ ack.toNat + (num - base).toNat)
    (hack : ack'.toNat = ack.toNat + (num - base).toNat - c) :
    next - num = .ofInt 32 ((m.toNat - c : ℕ) : ℤ) - ack' := by
  have hack' : ack' + .ofNat 32 c = ack + (num - base) := by
    refine BitVec.eq_of_toNat_eq ?_
    rw [BitVec.toNat_add, BitVec.toNat_add, hack, BitVec.toNat_ofNat, Nat.add_mod_mod]
    congr 1
    omega
  have hn : BitVec.ofInt 32 ((m.toNat - c : ℕ) : ℤ) + .ofNat 32 c = .ofInt 32 m := by
    rw [hm, Int.toNat_natCast, BitVec.ofInt_natCast, BitVec.ofInt_natCast, ← BitVec.ofNat_add]
    congr 1
    omega
  calc next - num = (next - base) - (num - base) := by ring
    _ = BitVec.ofInt 32 m - (ack + (num - base)) := by rw [hf]; ring
    _ = .ofInt 32 ((m.toNat - c : ℕ) : ℤ) - ack' := by rw [← hn, ← hack']; ring

theorem establishedHost_cursors (a b : TjuSockAddr) : Cursors (establishedHost a b).sock := by
  refine ⟨?_, ?_, ?_, ?_⟩ <;> simp [establishedHost, tjuSocket, SenderWindow.init]

/-! ## One step -/

theorem append_cursors {sock' : TjuTcp} {data : List Byte} (hc : Cursors h.sock)
    (he : appendData h.sock data = some sock') : Cursors sock' := by
  obtain ⟨hfit, rfl⟩ := appendData_eq_some he
  have h2 := hc.have_le
  refine ⟨hc.ack_le, ?_, ?_, hc.flight⟩
  · simp only [List.length_append]; omega
  · simp only [List.length_append]; omega

/-- The batch keeps the cursors in order, with a sample that has the current `nextseq`. -/
theorem Cursors.sendBatch {smp : Sample} (now : ℕ) (hc : Cursors h.sock)
    (hsmp : smp.nextseq = h.sock.wndSend.nextseq) : Cursors (sendBatch now smp h).1.sock := by
  have h1 := hc.ack_le
  have h2 := hc.have_le
  have h3 := hc.len_le
  have hf := hc.flight
  obtain ⟨n, hn, hhave, hnext, -, -, hbuf, hack, hbase, -⟩ := sendBatch_spec now smp
    (show h.sock.haveSendLen = (h.sock.haveSendLen.toNat : ℕ) by omega) (by omega) h3
  refine ⟨?_, ?_, by rw [hbuf]; exact hc.len_le, ?_⟩
  · rw [hack, hhave]; omega
  · rw [hhave, hbuf]; omega
  · rw [hnext, hbase, hhave, hack, hsmp]
    exact flight_send hf (by omega) (by omega)

theorem sendingThread_cursors (now : ℕ) (hc : Cursors h.sock) :
    Cursors (sendingThread now h).1.sock := by
  unfold sendingThread
  split
  · next smp hs =>
    obtain ⟨-, -, -, -, hsmp⟩ := sendSample_eq_some_iff.1 hs
    exact hc.sendBatch now (by rw [hsmp])
  · exact hc

/-- **An ACK below or inside the window** keeps the cursors in order. -/
theorem handleAck_cursors (now : ℕ) (hc : Cursors h.sock) (hok : AckOk h.sock (getAck pkt)) :
    ∃ h', handleAck now h pkt = some h' ∧ Cursors h'.sock ∧
      (¬ AckInWindow h.sock (getAck pkt) → h'.sock.wndSend.base = h.sock.wndSend.base ∧
        h'.sock.wndSend.ackCnt = h.sock.wndSend.ackCnt) := by
  have hfl := hc.flight_toNat
  have h1 := hc.ack_le
  have h2 := hc.have_le
  have h3 := hc.len_le
  by_cases hle : getAck pkt ≤ h.sock.wndSend.base
  · obtain ⟨h', he, -, hsame, -⟩ := handleAck_old now hle
    exact ⟨h', he, hc.congr hsame, fun _ => ⟨hsame.base, hsame.ackCnt⟩⟩
  · have hlt : h.sock.wndSend.base < getAck pkt := by bv_omega
    have hin : AckInWindow h.sock (getAck pkt) := by
      rcases hok with hlow | hin
      · exact absurd hlow (by bv_omega)
      · exact hin
    have hin' : (getAck pkt - h.sock.wndSend.base).toNat ≤
        (h.sock.wndSend.nextseq - h.sock.wndSend.base).toNat := hin
    obtain ⟨h', c, he, -, -, hcc, hbuf, hhave, hack, hbase, hnext⟩ := handleAck_new now hlt
      (show h.sock.haveSendLen = (h.sock.haveSendLen.toNat : ℕ) by omega) (by omega) (by omega) h3
    have hcl := hcc.le.trans (cleaned_le ..)
    have hf := hc.flight
    simp only [maxSockBufSize, maxLen] at h3
    refine ⟨h', he, ⟨?_, ?_, ?_, ?_⟩, fun hno => absurd hin hno⟩
    · rw [hack, hhave]; omega
    · rw [hhave, hbuf, List.length_drop]; omega
    · rw [hbuf, List.length_drop]; simp only [maxSockBufSize, maxLen]; omega
    · rw [hnext, hbase, hhave]
      exact flight_ack hf (by omega) (by omega) hcl hack

/-- An ACK above `base` that is handled at all moves `base`. -/
theorem handleAck_base (hlt : h.sock.wndSend.base < getAck pkt)
    (he : handleAck now h pkt = some h') : h'.sock.wndSend.base = getAck pkt := by
  unfold handleAck at he
  simp only [Option.bind_eq_bind] at he
  rw [if_neg (show ¬ getAck pkt < h.sock.wndSend.base by bv_omega),
    if_neg (show ¬ getAck pkt = h.sock.wndSend.base by bv_omega)] at he
  obtain ⟨h₁, hn, he⟩ := Option.bind_eq_some_iff.1 he
  cases he
  rw [(zeroWindow_same _).2.1.base]
  exact (newAck_rest hn).2

/-! ## Runs -/

/-- **One step keeps the cursors in order.** -/
theorem cursors_step {e : SockEv} (hc : Cursors h.sock) (hok : AcksOk h e)
    (he : sockStep h e = some h') : Cursors h'.sock := by
  cases e with
  | append data =>
    obtain ⟨sock, hs, rfl⟩ := Option.map_eq_some_iff.1 he
    exact append_cursors hc hs
  | sendPass now => cases he; exact sendingThread_cursors now hc
  | retransPass =>
    obtain ⟨t, out, ht, -, hsame, -⟩ := retransThread_spec hc
    simp only [sockStep, ht, Option.map_some, Option.some.injEq] at he
    exact he ▸ hc.congr hsame
  | alarm => cases he; exact hc
  | packet now pkt =>
    obtain ⟨⟨t, out⟩, ht, rfl⟩ := Option.map_eq_some_iff.1 he
    rcases handle_sending ht with ⟨hsame, -⟩ | ⟨hs, hf, ha⟩
    · exact hc.congr hsame
    · obtain ⟨t', ha', hc', -⟩ := handleAck_cursors now hc (hok hs hf)
      rw [ha] at ha'
      cases ha'
      exact hc'
  | recv len =>
    simp only [sockStep] at he
    split_ifs at he
    obtain ⟨⟨sock, bytes⟩, hr, rfl⟩ := Option.map_eq_some_iff.1 he
    obtain ⟨-, rfl, -⟩ := tjuRecv_eq_some hr
    exact hc.congr ⟨rfl, rfl, rfl, rfl, rfl⟩

/-- In a state with the cursors in order, an ACK keeps them so if and only if it passes. -/
theorem ackKeeps_iff (hs : h.sock.state = .established) (hf : getFlags pkt = ackFlagMask)
    (hc : Cursors h.sock) : AckKeeps now h pkt ↔ AckOk h.sock (getAck pkt) := by
  constructor
  · rintro ⟨h', out, he, -, hout⟩
    by_contra hno
    simp only [AckOk, not_or] at hno
    obtain ⟨hnl, hnw⟩ := hno
    have hne : getAck pkt ≠ h.sock.wndSend.base := fun heq => hnw (by
      rw [AckInWindow, heq]; bv_omega)
    rw [handle_ack hs hf] at he
    obtain ⟨t, ha, hr⟩ := Option.map_eq_some_iff.1 he
    cases hr
    have hb := handleAck_base (by bv_omega) ha
    exact hne (hb.symm.trans (hout hnw).1)
  · intro hok
    obtain ⟨h', he, hc', hout⟩ := handleAck_cursors now hc hok
    exact ⟨h', [], by rw [handle_ack hs hf, he]; rfl, hc', hout⟩

/-- **The cursors of the sender.**  In every run in which each ACK handled is below `base` or
    inside the send window, the cursors are in order in every state reached; and in each of these
    states the ACKs that keep them in order, and move them only from inside the window, are exactly
    those. -/
theorem cursors_reached (a b : TjuSockAddr)
    (hr : ReachBy sockStep AcksOk (establishedHost a b) h) :
    Cursors h.sock ∧ ∀ now pkt, h.sock.state = .established → getFlags pkt = ackFlagMask →
      (AckKeeps now h pkt ↔ AckOk h.sock (getAck pkt)) := by
  have hc : Cursors h.sock := hr.inv (establishedHost_cursors a b) fun _ _ _ => cursors_step
  exact ⟨hc, fun now pkt hs hf => ackKeeps_iff hs hf hc⟩

/-- A bare ACK with the number `ack`, from the server to the client. -/
def bareAck (ack : BitVec 32) : Buf :=
  wire ⟨1234, 5678, 1, ack, 20, 20, ackFlagMask, 44000, 0⟩ []

/-- Two bytes are sent, and one of them is acknowledged, twice. -/
def oneOfTwo : List SockEv :=
  [.append [7, 8], .sendPass 0, .packet 5 (bareAck 2), .packet 6 (bareAck 2)]

theorem cursors_reached_oneOfTwo :
    let h := (exec sockStep clientHost oneOfTwo).getD clientHost
    Cursors h.sock ∧ ∀ now pkt, h.sock.state = .established → getFlags pkt = ackFlagMask →
      (AckKeeps now h pkt ↔ AckOk h.sock (getAck pkt)) :=
  cursors_reached ⟨clientIp, 5678⟩ ⟨serverIp, 1234⟩
    (.of_along oneOfTwo (by decide +kernel) (exec_getD (by decide +kernel) clientHost))

/-- Before anything was sent, an ACK for the number 2 acknowledges a byte that does not exist. -/
theorem cursors_broken :
    ¬ ∀ h, Reach sockStep clientHost h → Cursors h.sock := by
  intro hall
  have hc := hall _ (ReachBy.one (e := .packet 0 (bareAck 2)) trivial rfl)
  exact absurd hc.ack_le (by decide)

end Tju
