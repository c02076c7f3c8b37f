/-
  ACKs that arrive out of order.

  The handler stores the window of an ACK in `rwnd` before it compares the
  number of the ACK with `base`, so also that of an ACK which it then reports as
  dropped.  After a list of ACKs `base` is the largest number of all, as plain
  numbers of 32 bits, and `rwnd` is the window of the ACK that has come last.

  * `ack_step`, `acks_run`: what one ACK leaves, and what a list of them leaves;
  * `Between.run`: ACKs for what is in flight are handled, in every order;
  * `stale_acks`: when `base` and `rwnd` end as the largest ACK says;
  * `stale_window`: an older ACK that arrives later rolls `rwnd` back.
-/
import TjuTcp.FastRetransmit

namespace Tju

open Lib

/-- How far the number of an ACK is above `base`, modulo `2 ^ 32`. -/
def SenderWindow.ackOffset (w : SenderWindow) (pkt : Buf) : ℕ := (getAck pkt - w.base).toNat

/-- An ACK for what is in flight: its number is in `(base, nextseq]`. -/
structure GenuineAck (w : SenderWindow) (pkt : Buf) : Prop where
  flags : getFlags pkt = ackFlagMask
  pos : 0 < w.ackOffset pkt
  le : w.ackOffset pkt ≤ (w.nextseq - w.base).toNat

/-- The larger one of two words. -/
def cmax (x y : BitVec 32) : BitVec 32 := if x < y then y else x

/-- What an ACK with the number `ack` and the window `adv` leaves. -/
structure AckStep (h h' : Host) (ack : BitVec 32) (adv : BitVec 16) : Prop where
  state : h'.sock.state = .established
  base : h'.sock.wndSend.base = cmax h.sock.wndSend.base ack
  rwnd : h'.sock.wndSend.rwnd = adv.setWidth 32

variable {h h' : Host} {pkt : Buf} {now : ℕ}

theorem cmax_toNat (x y : BitVec 32) : (cmax x y).toNat = max x.toNat y.toNat := by
  unfold cmax
  split_ifs with h <;> bv_omega

/-! ## One ACK -/

theorem ack_step (hs : h.sock.state = .established) (hf : getFlags pkt = ackFlagMask)
    (he : sockStep h (.packet now pkt) = some h') :
    AckStep h h' (getAck pkt) (getAdvertisedWindow pkt) := by
  obtain ⟨⟨t, out⟩, ht, rfl⟩ := Option.map_eq_some_iff.1 he
  rw [handle_ack hs hf] at ht
  obtain ⟨t', ha, hr⟩ := Option.map_eq_some_iff.1 ht
  cases hr
  refine ⟨(handleAck_rest ha).state.trans hs, ?_, ?_⟩
  · unfold cmax
    by_cases hlt : h.sock.wndSend.base < getAck pkt
    · rw [if_pos hlt, handleAck_base hlt ha]
    · obtain ⟨t', ha', -, hsame, -⟩ := handleAck_old now (BitVec.not_lt.1 hlt)
      cases ha.symm.trans ha'
      rw [if_neg hlt, hsame.base]
  · rw [(handleAck_window ha).rwnd, ackWindow_rwnd]

/-! ## A list of ACKs -/

/-- What a list of ACKs leaves. -/
structure AcksRun (h h' : Host) (acks : List (ℕ × Buf)) : Prop where
  le : ∀ p ∈ acks, (getAck p.2).toNat ≤ h'.sock.wndSend.base.toNat
  base_le : h.sock.wndSend.base.toNat ≤ h'.sock.wndSend.base.toNat
  base : h'.sock.wndSend.base = h.sock.wndSend.base ∨
    ∃ p ∈ acks, h'.sock.wndSend.base = getAck p.2
  rwnd : ∀ p ∈ acks.getLast?, h'.sock.wndSend.rwnd = (getAdvertisedWindow p.2).setWidth 32

/-- **A list of ACKs**, in the order in which they arrive. -/
theorem acks_run {acks : List (ℕ × Buf)} (hs : h.sock.state = .established)
    (hf : ∀ p ∈ acks, getFlags p.2 = ackFlagMask)
    (he : exec sockStep h (arrivals acks) = some h') : AcksRun h h' acks := by
  induction acks generalizing h with
  | nil =>
    cases he
    exact ⟨fun p hp => (List.not_mem_nil hp).elim, le_rfl, Or.inl rfl, fun p hp => by cases hp⟩
  | cons q acks ih =>
    obtain ⟨h₁, hq, he⟩ := Option.bind_eq_some_iff.1 he
    obtain ⟨hfq, hf⟩ := List.forall_mem_cons.1 hf
    have hone := ack_step hs hfq hq
    have hrun := ih hone.state hf he
    have hmax := cmax_toNat h.sock.wndSend.base (getAck q.2)
    have hle := hrun.base_le
    rw [hone.base, hmax] at hle
    refine ⟨List.forall_mem_cons.2 ⟨by omega, hrun.le⟩, by omega, ?_, ?_⟩
    · rcases hrun.base with hb | ⟨p, hp, hb⟩
      · rw [hone.base] at hb
        unfold cmax at hb
        split_ifs at hb
        · exact Or.inr ⟨q, List.mem_cons_self, hb⟩
        · exact Or.inl hb
      · exact Or.inr ⟨p, List.mem_cons_of_mem _ hp, hb⟩
    · intro p hp
      cases acks with
      | nil =>
        cases he
        cases hp
        exact hone.rwnd
      | cons r acks => exact hrun.rwnd p (by rwa [List.getLast?_cons_cons] at hp)

/-! ## They are handled -/

/-- `base` has moved from that of `w` towards `nextseq`, without a wrap. -/
structure Between (w : SenderWindow) (h : Host) : Prop where
  state : h.sock.state = .established
  cursors : Cursors h.sock
  nextseq : h.sock.wndSend.nextseq = w.nextseq
  base_le : w.base ≤ h.sock.wndSend.base
  le_nextseq : h.sock.wndSend.base - w.base ≤ w.nextseq - w.base

/-- A number that is still in the window, or that `base` has passed. -/
theorem ackOk_of_between {b₀ b n a : BitVec 32} (hb : b₀ ≤ b) (hn : b - b₀ ≤ n - b₀)
    (ha : a - b₀ ≤ n - b₀) : a < b ∨ a - b ≤ n - b := by
  by_cases hlt : a < b
  · exact Or.inl hlt
  · right
    have h1 : (a - b₀).toNat = a.toNat - b₀.toNat := by bv_omega
    have h2 : (b - b₀).toNat = b.toNat - b₀.toNat := by bv_omega
    have h3 : (a - b).toNat = (a - b₀).toNat - (b - b₀).toNat := by bv_omega
    have h4 : (n - b).toNat = (n - b₀).toNat - (b - b₀).toNat := by bv_omega
    rw [BitVec.le_def] at hn ha ⊢
    omega

theorem newAck_nextseq {ack : BitVec 32} (he : newAck now h ack = some h') :
    h'.sock.wndSend.nextseq = h.sock.wndSend.nextseq := by
  have hcur := takeSample_cursors now ack (growCwnd { h.sock.wndSend with sameAckCnt := 0 }).refresh
  rw [refresh_cursors, growCwnd_cursors] at hcur
  have hnext := congrArg (·.2.2) hcur
  unfold newAck at he
  simp only [Option.bind_eq_bind] at he
  obtain ⟨sock, hcl, hn⟩ := Option.bind_eq_some_iff.1 he
  cases hn
  have hclean : ∀ {s t : TjuTcp}, cleanSendBuf s = some t → t.wndSend.nextseq = s.wndSend.nextseq := by
    intro s t hc
    unfold cleanSendBuf at hc
    dsimp only at hc
    split_ifs at hc <;> cases hc <;> rfl
  refine (hclean hcl).trans ?_
  split_ifs <;> exact hnext

theorem handleAck_nextseq (he : handleAck now h pkt = some h') :
    h'.sock.wndSend.nextseq = h.sock.wndSend.nextseq := by
  by_cases hle : getAck pkt ≤ h.sock.wndSend.base
  · obtain ⟨t, ha, -, hsame, -⟩ := handleAck_old now hle
    cases he.symm.trans ha
    exact hsame.nextseq
  · unfold handleAck at he
    simp only [Option.bind_eq_bind] at he
    rw [if_neg (show ¬ getAck pkt < h.sock.wndSend.base by bv_omega),
      if_neg (show ¬ getAck pkt = h.sock.wndSend.base by bv_omega)] at he
    obtain ⟨h₁, hn, he⟩ := Option.bind_eq_some_iff.1 he
    cases he
    rw [zeroWindow_wndSend]
    have hnext := newAck_nextseq hn
    exact hnext

theorem Between.step {w : SenderWindow} (hi : Between w h) (now : ℕ) (hp : GenuineAck w pkt) :
    ∃ h', sockStep h (.packet now pkt) = some h' ∧ Between w h' := by
  have hn := hi.nextseq
  have hle := hi.base_le
  have hnx := hi.le_nextseq
  have hack : getAck pkt - w.base ≤ w.nextseq - w.base := hp.le
  have hok : AckOk h.sock (getAck pkt) := by
    unfold AckOk AckInWindow
    rw [hn]
    exact ackOk_of_between hle hnx hack
  obtain ⟨h', ha, hc, -⟩ := handleAck_cursors now hi.cursors hok
  have he : sockStep h (.packet now pkt) = some h' := by
    show (tjuHandlePacket now h pkt).map Prod.fst = _
    rw [handle_ack hi.state hp.flags, ha]
    rfl
  have hone := ack_step hi.state hp.flags he
  refine ⟨h', he, hone.state, hc, (handleAck_nextseq ha).trans hn, ?_, ?_⟩
  · rw [hone.base]
    unfold cmax
    split_ifs with hlt
    · exact BitVec.le_trans hle (BitVec.le_of_lt hlt)
    · exact hle
  · rw [hone.base]
    unfold cmax
    split_ifs
    · exact hack
    · exact hnx

theorem Between.run {w : SenderWindow} {acks : List (ℕ × Buf)} (hi : Between w h)
    (hp : ∀ p ∈ acks, GenuineAck w p.2) :
    ∃ h', exec sockStep h (arrivals acks) = some h' ∧ Between w h' := by
  induction acks generalizing h with
  | nil => exact ⟨h, rfl, hi⟩
  | cons p acks ih =>
    obtain ⟨hp, hacks⟩ := List.forall_mem_cons.1 hp
    obtain ⟨h₁, he, hi₁⟩ := hi.step p.1 hp
    obtain ⟨h', hx, hi'⟩ := ih hi₁ hacks
    refine ⟨h', ?_, hi'⟩
    show (sockStep h (.packet p.1 p.2)).bind _ = _
    rw [he]
    exact hx

/-! ## The flow control -/

/-- Among numbers in flight of which the last one is above `base`, the order is the plain one. -/
theorem offset_le {b a t : BitVec 32} (ht : b < t) (hle : (a - b).toNat ≤ (t - b).toNat) :
    a.toNat ≤ t.toNat := by
  bv_omega

/-- **Stale ACKs.**  `acks` are ACKs for what is in flight, in the order of their arrival, and `top`
    is the one with the largest number.  In every state with the cursors in order they are all
    handled; and then `base` is the number of `top`, and `rwnd` its window, if and only if the
    number of `top` is above `base` also as a plain number and the ACK that comes last advertises
    the window of `top`. -/
theorem stale_acks {acks : List (ℕ × Buf)} {top last : ℕ × Buf} (hs : h.sock.state = .established)
    (hacks : ∀ p ∈ acks, GenuineAck h.sock.wndSend p.2) (htop : top ∈ acks)
    (hmax : ∀ p ∈ acks, h.sock.wndSend.ackOffset p.2 ≤ h.sock.wndSend.ackOffset top.2)
    (hlast : acks.getLast? = some last) :
    (Cursors h.sock → ∃ h', exec sockStep h (arrivals acks) = some h' ∧ Cursors h'.sock) ∧
    ∀ h', exec sockStep h (arrivals acks) = some h' →
      (h'.sock.wndSend.base = getAck top.2 ∧
          h'.sock.wndSend.rwnd = (getAdvertisedWindow top.2).setWidth 32 ↔
        h.sock.wndSend.base < getAck top.2 ∧
          getAdvertisedWindow last.2 = getAdvertisedWindow top.2) := by
  refine ⟨fun hc => ?_, fun h' he => ?_⟩
  · have hstart : Between h.sock.wndSend h :=
      ⟨hs, hc, rfl, BitVec.le_refl _, by rw [BitVec.sub_self]; exact Nat.zero_le _⟩
    obtain ⟨h', hx, hi⟩ := hstart.run hacks
    exact ⟨h', hx, hi.cursors⟩
  · have hrun := acks_run hs (fun p hp => (hacks p hp).flags) he
    have hpos := (hacks top htop).pos
    have hle := hrun.le top htop
    unfold SenderWindow.ackOffset at hpos hmax
    rw [hrun.rwnd last (Option.mem_def.2 hlast)]
    have hwin : (getAdvertisedWindow last.2).setWidth 32 = (getAdvertisedWindow top.2).setWidth 32 ↔
        getAdvertisedWindow last.2 = getAdvertisedWindow top.2 := by
      constructor
      · intro h
        bv_omega
      · intro h
        rw [h]
    rw [hwin, and_congr_left_iff]
    intro _
    have hbase := hrun.base_le
    constructor
    · intro hb
      rw [hb] at hbase
      bv_omega
    · intro hlt
      rcases hrun.base with hb | ⟨p, hp, hb⟩
      · rw [hb] at hle
        bv_omega
      · have hple := offset_le hlt (hmax p hp)
        rw [hb] at hle ⊢
        exact BitVec.eq_of_toNat_eq (by omega)

/-- A process that has sent two bytes. -/
def sentTwo : List SockEv := [.append [1, 2], .sendPass 0]

/-- An ACK that advertises `adv`. -/
def windowAck (ack : BitVec 32) (adv : BitVec 16) : Buf :=
  wire ⟨1234, 5678, 1, ack, 20, 20, ackFlagMask, adv, 0⟩ []

theorem stale_acks_first : ∃ h, exec sockStep clientHost sentTwo = some h ∧
    ∀ h', exec sockStep h (arrivals [(0, windowAck 2 1375), (0, windowAck 3 44000)]) = some h' →
      (h'.sock.wndSend.base = getAck (windowAck 3 44000) ∧
          h'.sock.wndSend.rwnd = (getAdvertisedWindow (windowAck 3 44000)).setWidth 32 ↔
        h.sock.wndSend.base < getAck (windowAck 3 44000) ∧
          getAdvertisedWindow (windowAck 3 44000) = getAdvertisedWindow (windowAck 3 44000)) := by
  obtain ⟨h, hh⟩ : ∃ h, exec sockStep clientHost sentTwo = some h := ⟨_, rfl⟩
  have hw : (exec sockStep clientHost sentTwo).map (fun h => (h.sock.state, h.sock.wndSend.base,
      h.sock.wndSend.nextseq)) = some (.established, 1, 3) := by decide
  rw [hh, Option.map_some, Option.some.injEq, Prod.mk.injEq, Prod.mk.injEq] at hw
  obtain ⟨hs, hb, hn⟩ := hw
  have hoff (pkt : Buf) : h.sock.wndSend.ackOffset pkt = (getAck pkt - 1).toNat := by
    unfold SenderWindow.ackOffset
    rw [hb]
  have hacks : ∀ p ∈ [(0, windowAck 2 1375), (0, windowAck 3 44000)],
      GenuineAck h.sock.wndSend p.2 := by
    intro p hp
    refine ⟨?_, ?_, ?_⟩
    · rcases List.mem_pair.1 hp with rfl | rfl <;> rfl
    · rw [hoff]
      rcases List.mem_pair.1 hp with rfl | rfl <;> decide
    · rw [hoff, hb, hn]
      rcases List.mem_pair.1 hp with rfl | rfl <;> decide
  let top : ℕ × Buf := (0, windowAck 3 44000)
  have hmax : ∀ p ∈ [(0, windowAck 2 1375), top],
      h.sock.wndSend.ackOffset p.2 ≤ h.sock.wndSend.ackOffset top.2 := by
    intro p hp
    rw [hoff, hoff]
    rcases List.mem_pair.1 hp with rfl | rfl <;> decide
  have htop : top ∈ [(0, windowAck 2 1375), top] := List.mem_pair.2 (Or.inr rfl)
  exact ⟨h, hh, (stale_acks hs hacks htop hmax rfl).2⟩

/-- **A window that is rolled back.**  The receiver has first advertised 1375 bytes, and then the
    whole window; the two ACKs have changed places. -/
theorem stale_window : ∃ h h', exec sockStep clientHost sentTwo = some h ∧
    GenuineAck h.sock.wndSend (windowAck 2 1375) ∧ GenuineAck h.sock.wndSend (windowAck 3 44000) ∧
    exec sockStep h (arrivals [(0, windowAck 3 44000), (0, windowAck 2 1375)]) = some h' ∧
    h'.sock.wndSend.base = 3 ∧ h'.sock.wndSend.rwnd = 1375 := by
  let es : List SockEv := arrivals [(0, windowAck 3 44000), (0, windowAck 2 1375)]
  obtain ⟨h, hh⟩ : ∃ h, exec sockStep clientHost sentTwo = some h := ⟨_, rfl⟩
  obtain ⟨h', hh'⟩ : ∃ h', (exec sockStep clientHost sentTwo).bind (fun h => exec sockStep h es) =
    some h' := ⟨_, rfl⟩
  have hbefore : (exec sockStep clientHost sentTwo).map (fun h => (h.sock.wndSend.base,
      h.sock.wndSend.nextseq)) = some (1, 3) := by decide
  have hafter : ((exec sockStep clientHost sentTwo).bind fun h => exec sockStep h es).map
      (fun h => (h.sock.wndSend.base, h.sock.wndSend.rwnd)) = some (3, 1375) := by decide
  rw [hh', Option.map_some, Option.some.injEq, Prod.mk.injEq] at hafter
  rw [hh, Option.map_some, Option.some.injEq, Prod.mk.injEq] at hbefore
  rw [hh, Option.bind_some] at hh'
  obtain ⟨hb, hn⟩ := hbefore
  refine ⟨h, h', hh, ⟨rfl, ?_, ?_⟩, ⟨rfl, ?_, ?_⟩, hh', hafter⟩
  · unfold SenderWindow.ackOffset; rw [hb]; decide
  · unfold SenderWindow.ackOffset; rw [hb, hn]; decide
  · unfold SenderWindow.ackOffset; rw [hb]; decide
  · unfold SenderWindow.ackOffset; rw [hb, hn]; decide

end Tju
