/-
  Every byte can be brought to the other side.

  From every state of a connection that both sides have open, whatever was
  lost, repeated or reordered before, a steady run brings both streams to
  their readers to the last byte and all of it acknowledged
  (`transfer_completes`).  The sender is never stuck:

  * `shut_opens`: a closed window opens, by probes and their answers;
  * `idle_sends`: with nothing in flight, and something to send, a segment is
    sent, after a retransmission that finds nothing to do where one is due;
  * `flight_acked`: with bytes in flight, the timer runs out, they are sent
    again, and the ACK for the first segment moves `base`;
  * `base_advances`: so `base` moves as long as the end of the stream is not
    acknowledged.
-/
import TjuTcp.Steady
import TjuTcp.ClosedWindow
import TjuTcp.CleanUp
import TjuTcp.Credit

namespace Tju

open Lib

/-- From every ongoing connection with the streams `S` that meets `P`, a steady run leads to `Q`. -/
abbrev Steers (client server : TjuSockAddr) (S : Side → List Byte) (P Q : Conn → Prop) : Prop :=
  LeadsTo connStep SteadyOk (Ongoing client server S) P Q

/-- The window is closed. -/
structure Shut (b : BitVec 32) (sock : TjuTcp) : Prop where
  base : sock.wndSend.base = b
  closed : sock.wndSend.windowSize = 0

/-- The window is open, and nothing is in flight. -/
structure OpenIdle (b : BitVec 32) (sock : TjuTcp) : Prop where
  base : sock.wndSend.base = b
  nextseq : sock.wndSend.nextseq = b
  opened : sock.wndSend.windowSize ≠ 0

/-- The window is open, and something is in flight. -/
structure OpenFlight (b : BitVec 32) (sock : TjuTcp) : Prop where
  base : sock.wndSend.base = b
  nextseq : sock.wndSend.nextseq ≠ b
  opened : sock.wndSend.windowSize ≠ 0

variable {client server : TjuSockAddr} {S : Side → List Byte} {s s' : Conn} {e : ConnEv}
  {h h' : Host} {pkt : Buf} {b : BitVec 32} {k : TjuTcp} {out : List Buf}

/-- One step. -/
theorem Ongoing.go {Q : Conn → Prop} (hg : Ongoing client server S s) (hok : SteadyOk s e)
    (he : connStep s e = some s') (hq : Q s') :
    ∃ t, ReachBy connStep SteadyOk s t ∧ Ongoing client server S t ∧ Q t :=
  ⟨s', .one hok he, ongoing_keeps s e s' hg hok he, hq⟩

/-! ## The threads of the sender -/

theorem retransThread_probe (hr : h.retrans = true) (h0 : h.sock.wndSend.windowSize = 0) :
    retransThread h = some (startTimer h, [probePacket h.sock]) := by
  unfold retransThread
  rw [if_pos hr, if_pos h0]
  rfl

theorem retransThread_flag (hr : h.retrans = true) (ho : h.sock.wndSend.windowSize ≠ 0)
    (hf : h.sock.isRetransing = false)
    (hlt : h.sock.wndSend.ackCnt < .ofInt 32 h.sock.haveSendLen) : retransThread h =
      some ({ h with retrans := true, sock := { h.sock with isRetransing := true } }, []) := by
  unfold retransThread
  rw [if_pos hr, if_neg ho, if_pos hf, if_pos hlt]

theorem retransThread_resend (hr : h.retrans = true) (ho : h.sock.wndSend.windowSize ≠ 0)
    (hf : h.sock.isRetransing = true) : retransThread h = retransmit h := by
  unfold retransThread
  rw [if_pos hr, if_neg ho, if_neg (by rw [hf]; decide)]

theorem sendingThread_sends {smp : Sample} (now : ℕ) (hs : sendSample h = some smp) :
    sendingThread now h = sendBatch now smp h := by
  unfold sendingThread
  rw [hs]

/-- A retransmission leaves the window open. -/
theorem retransmit_open (ho : h.sock.wndSend.windowSize ≠ 0) (hr : h.sock.wndSend.rwnd ≠ 0)
    (he : retransmit h = some (h', out)) : h'.sock.wndSend.windowSize ≠ 0 := by
  rw [retransmit_wndSend he]
  split_ifs
  · exact cmin_maxDlen_ne hr
  · exact ho

/-- The first packet that is sent starts where the sending starts. -/
theorem Emits.first {sock : TjuTcp} {off off' : ℕ} {seq : BitVec 32}
    (hem : Emits sock off seq out off') (hlt : off < off') :
    ∃ p ∈ out, ∃ data, p = dataPacket sock seq data ∧ data ≠ [] ∧ data.length ≤ maxDlen := by
  induction hem with
  | nil => exact absurd hlt (lt_irrefl _)
  | @snoc out mid len hprev h1 h2 h3 ih =>
    rcases Nat.eq_or_lt_of_le hprev.le with heq | hmid
    · refine ⟨_, List.mem_append_right _ (List.mem_singleton_self _),
        (sock.sendingBuf.drop mid).take len, ?_, ?_, ?_⟩
      · rw [heq, Nat.sub_self, BitVec.add_zero]
      · intro hnil
        have hlen := congrArg List.length hnil
        rw [List.length_take, List.length_drop, List.length_nil] at hlen
        omega
      · rw [List.length_take]
        omega
    · obtain ⟨p, hp, hfirst⟩ := ih hmid
      exact ⟨p, List.mem_append_left _ hp, hfirst⟩

/-- **The timer** runs out where something waits for it. -/
theorem timer_rings (x : Side) (P : TjuTcp → Prop) (hP : ∀ sock, P sock → NeedsTimer sock) :
    Steers client server S (fun s => P (s.ep x).sock)
      fun s => P (s.ep x).sock ∧ (s.ep x).retrans = true := by
  intro s hg hp
  rcases (hg.timer x).armed (hP _ hp) with ht | hr
  · refine hg.go (e := .alarm x) ⟨onMove_quiet fun m hm _ _ => ?_, ht⟩ rfl ?_
    · cases hm
      exact SockEv.noConfusion
    · rw [Conn.put_ep_self]
      exact ⟨hp, rfl⟩
  · exact ⟨s, .refl, hg, hp, hr⟩

/-- A pass of `retrans_thread`. -/
theorem Ongoing.retrans {Q : Conn → Prop} {x : Side} (hg : Ongoing client server S s)
    (ht : retransThread (s.ep x) = some (h', out)) (hq : Q (s.put x h' out [] [])) :
    ∃ t, ReachBy connStep SteadyOk s t ∧ Ongoing client server S t ∧ Q t := by
  refine hg.go (e := .retransPass x) ⟨onMove_quiet fun m hm _ _ => ?_, trivial⟩ ?_ hq
  · cases hm
    exact SockEv.noConfusion
  · simp only [connStep, ht, Option.map_some]

/-! ## A closed window -/

/-- The probe is sent. -/
theorem probe_sent (x : Side) (h0 : k.wndSend.windowSize = 0) :
    Steers client server S (fun s => (s.ep x).sock = k ∧ (s.ep x).retrans = true)
      fun s => (s.ep x).sock = k ∧ probePacket k ∈ s.net x.peer := by
  rintro s hg ⟨rfl, hr⟩
  refine hg.retrans (retransThread_probe hr h0) ⟨?_, ?_⟩
  · rw [Conn.put_ep_self]
    rfl
  · rw [Conn.put_net_peer]
    exact List.mem_append_right _ (List.mem_singleton_self _)

/-- The probe is answered. -/
theorem probe_answered (x : Side) :
    Steers client server S (fun s => (s.ep x).sock = k ∧ probePacket k ∈ s.net x.peer)
      fun s => (s.ep x).sock = k ∧
        ∃ a ∈ s.net x, getFlags a = ackFlagMask ∧ k.wndSend.base ≤ getAck a := by
  rintro s hg ⟨rfl, hp⟩
  obtain ⟨e, s', sock, hok, he, hep, -, hsock, hnet⟩ := hg.segment hp (dataPacket_flags _ _ _)
  have hg' := ongoing_keeps s e s' hg hok he
  refine ⟨s', .one hok he, hg', by rw [hep], _, hnet, ackPacket_flags _, ?_⟩
  have hle := (hg'.delivered x).base_le
  rw [hep, hsock] at hle
  rw [ackPacket_eq, getAck_wire]
  exact hle

/-- The answer is for new data, or it is one more ACK for `base`. -/
theorem probe_acked (x : Side) :
    Steers client server S (fun s => (s.ep x).sock = k ∧
        ∃ a ∈ s.net x, getFlags a = ackFlagMask ∧ k.wndSend.base ≤ getAck a)
      fun s => k.wndSend.base < (s.ep x).sock.wndSend.base ∨ ∃ adv : BitVec 16, adv ≠ 0 ∧
        (s.ep x).sock.wndSend = dupWindow { k.wndSend with rwnd := adv.setWidth 32 } := by
  rintro s hg ⟨rfl, a, ha, hf, hle⟩
  obtain ⟨e, s', now, hok, he, hstep⟩ := hg.ack ha hf
  refine hg.go hok he ?_
  by_cases hlt : (s.ep x).sock.wndSend.base < getAck a
  · refine Or.inl ?_
    rw [(ack_step (hg.opened x) hf hstep).base, cmax, if_pos hlt]
    exact hlt
  · refine Or.inr ⟨getAdvertisedWindow a, fun h0 => ?_, ?_⟩
    · have hadv := hg.windows.acks x a ha hf
      rw [h0] at hadv
      exact absurd hadv.1 (by decide)
    · obtain ⟨h', hh', hd⟩ := dupAck_step now (hg.opened x) hf (by bv_omega)
        (hg.cong x).windowStatus
      rw [Option.some.inj (hstep.symm.trans hh')]
      exact hd.wndSend

/-- **A probe and its answer.** -/
theorem probe_round (x : Side) (h0 : k.wndSend.windowSize = 0) :
    Steers client server S (fun s => (s.ep x).sock = k)
      fun s => k.wndSend.base < (s.ep x).sock.wndSend.base ∨ ∃ adv : BitVec 16, adv ≠ 0 ∧
        (s.ep x).sock.wndSend = dupWindow { k.wndSend with rwnd := adv.setWidth 32 } :=
  (((timer_rings x (· = k) fun _ hk => Or.inl (hk ▸ h0)).trans (probe_sent x h0)).trans
    (probe_answered x)).trans (probe_acked x)

/-- **A closed window opens**, unless `base` moves before. -/
theorem shut_opens (x : Side) (b : BitVec 32) :
    Steers client server S (fun s => Shut b (s.ep x).sock)
      fun s => b < (s.ep x).sock.wndSend.base ∨
        (s.ep x).sock.wndSend.base = b ∧ (s.ep x).sock.wndSend.windowSize ≠ 0 := by
  refine LeadsTo.rank (fun s => toOpen (s.ep x).sock.wndSend) ?_
  rintro n s hg ⟨⟨rfl, h0⟩, rfl⟩
  obtain ⟨t, hr, hg', hlt | ⟨adv, hadv, hw⟩⟩ := probe_round x h0 s hg rfl
  · exact ⟨t, hr, hg', Or.inl (Or.inl hlt)⟩
  · have hbase : (t.ep x).sock.wndSend.base = (s.ep x).sock.wndSend.base := by
      rw [hw, dupWindow_base]
    refine ⟨t, hr, hg', ?_⟩
    by_cases hopen : (t.ep x).sock.wndSend.windowSize = 0
    · refine Or.inr ⟨⟨hbase, hopen⟩, ?_⟩
      rw [hw]
      exact toOpen_lt (hg.cong x) (dupCount_hosts hg.reached x) (hg.rwnd_ne x) h0 hadv
    · exact Or.inl (Or.inr ⟨hbase, hopen⟩)

/-! ## Nothing in flight -/

/-- A retransmission that is due finds nothing to do. -/
theorem idle_freed (x : Side) (b : BitVec 32) :
    Steers client server S (fun s => OpenIdle b (s.ep x).sock ∧ (s.ep x).sock.isRetransing = true)
      fun s => OpenIdle b (s.ep x).sock ∧ (s.ep x).sock.isRetransing = false := by
  refine (timer_rings x (fun sock => OpenIdle b sock ∧ sock.isRetransing = true)
    fun _ hk => Or.inr (Or.inl hk.2)).trans ?_
  rintro s hg ⟨⟨hi, hret⟩, hr⟩
  obtain ⟨h', out, he, -, hsame, -⟩ := retransmit_spec (hg.cursors x)
  refine hg.retrans ((retransThread_resend hr hi.opened hret).trans he) ?_
  rw [Conn.put_ep_self]
  refine ⟨⟨hsame.base.trans hi.base, hsame.nextseq.trans hi.nextseq,
    retransmit_open hi.opened (hg.rwnd_ne x) he⟩, ?_⟩
  obtain ⟨_, _, rfl⟩ := retransmit_host he
  rfl

theorem lt_of_lt_cmin {a c d : BitVec 32} (h : a < cmin c d) : a < d := by
  rw [BitVec.lt_def, cmin_toNat] at h
  rw [BitVec.lt_def]
  omega

/-- What is left of the stream goes into the window. -/
theorem idle_sample {x : Side} (hg : Ongoing client server S s) (hi : OpenIdle b (s.ep x).sock)
    (hb : b.toNat < 1 + (S x).length) :
    (s.ep x).sock.haveSendLen < (s.ep x).sock.sendingBuf.length ∧
      BitVec.ofInt 32 (s.ep x).sock.haveSendLen < cmin (.ofNat 32 (s.ep x).sock.sendingBuf.length)
        ((s.ep x).sock.wndSend.ackCnt + (s.ep x).sock.wndSend.windowSize) := by
  obtain ⟨cut, n, hbuf, hn, hack, hle, hbase, hnext⟩ := (hg.flow x).send.spec (hg.shortAll x)
  have hlen : (s.ep x).sock.sendingBuf.length = (s.sent x).length - cut := by
    rw [hbuf, List.length_drop]
  have hmax := (hg.cursors x).len_le
  have hwin : (s.ep x).sock.wndSend.windowSize.toNat ≤ maxSwindowSize := by
    rw [(hg.cong x).windowSize, cmin_toNat]
    exact (min_le_right _ _).trans (hg.windows.rwnd x).2
  have hopen := hi.opened
  rw [hi.base] at hbase
  rw [hi.nextseq] at hnext
  rw [hg.sent] at hlen hle
  simp only [maxSockBufSize, maxLen, maxSwindowSize, maxDlen] at hmax hwin
  have hhave : BitVec.ofInt 32 (s.ep x).sock.haveSendLen = .ofNat 32 n := by
    rw [hn, BitVec.ofInt_natCast]
  refine ⟨by omega, ?_⟩
  rw [hhave, BitVec.lt_def, cmin_toNat]
  bv_omega

/-- **With nothing in flight** a segment is sent. -/
theorem idle_sends (x : Side) (hb : b.toNat < 1 + (S x).length) :
    Steers client server S (fun s => OpenIdle b (s.ep x).sock)
      fun s => OpenFlight b (s.ep x).sock := by
  have hsend : Steers client server S
      (fun s => OpenIdle b (s.ep x).sock ∧ (s.ep x).sock.isRetransing = false)
      fun s => OpenFlight b (s.ep x).sock := by
    rintro s hg ⟨hi, hret⟩
    obtain ⟨hlen, hlt⟩ := idle_sample hg hi hb
    have hsmp : sendSample (s.ep x) = some ⟨(s.ep x).sock.wndSend.windowSize,
        (s.ep x).sock.wndSend.ackCnt, (s.ep x).sock.wndSend.base, (s.ep x).sock.wndSend.nextseq⟩ :=
      sendSample_eq_some_iff.2 ⟨hi.opened, hlen, lt_of_lt_cmin hlt, hret, rfl⟩
    refine hg.go (e := .sendPass x 0) ⟨onMove_quiet fun m hm _ _ => ?_, trivial⟩ rfl ?_
    · cases hm
      exact SockEv.noConfusion
    · rw [Conn.put_ep_self]
      refine ⟨(sendingThread_base 0 _).trans hi.base, ?_, ?_⟩
      · rw [sendingThread_sends 0 hsmp, ← hi.nextseq]
        exact sendBatch_moves 0 _ hlt
      · rw [(sendingThread_window 0 _).windowSize]
        exact hi.opened
  intro s hg hi
  by_cases hret : (s.ep x).sock.isRetransing = true
  · exact ((idle_freed x b).trans hsend) s hg ⟨hi, hret⟩
  · exact hsend s hg ⟨hi, Bool.eq_false_iff.2 hret⟩

/-! ## Something in flight -/

/-- The first segment in flight is in flight once more. -/
def AgainInFlight (x : Side) (b : BitVec 32) (s : Conn) : Prop :=
  (s.ep x).sock.wndSend.base = b ∧ ∃ pkt ∈ s.net x.peer, getFlags pkt = noFlag ∧
    getSeq pkt = b ∧ 1 ≤ (payloadLen pkt).toNat ∧ (payloadLen pkt).toNat ≤ maxDlen

/-- `retrans_thread` first asks `sending_thread` to stop. -/
theorem flight_flagged (x : Side) (b : BitVec 32) : Steers client server S
    (fun s => OpenFlight b (s.ep x).sock ∧ (s.ep x).retrans = true)
    fun s => (OpenFlight b (s.ep x).sock ∧ (s.ep x).sock.isRetransing = true) ∧
      (s.ep x).retrans = true := by
  rintro s hg ⟨hi, hr⟩
  by_cases hf : (s.ep x).sock.isRetransing = true
  · exact ⟨s, .refl, hg, ⟨hi, hf⟩, hr⟩
  · have hlt := (hg.cursors x).flight_iff.2 fun heq => hi.nextseq (heq.symm.trans hi.base)
    refine hg.retrans (retransThread_flag hr hi.opened (Bool.eq_false_iff.2 hf) hlt) ?_
    rw [Conn.put_ep_self]
    exact ⟨⟨⟨hi.base, hi.nextseq, hi.opened⟩, rfl⟩, rfl⟩

/-- Then it sends all that is in flight again. -/
theorem flight_resent (x : Side) (b : BitVec 32) : Steers client server S
    (fun s => (OpenFlight b (s.ep x).sock ∧ (s.ep x).sock.isRetransing = true) ∧
      (s.ep x).retrans = true)
    (AgainInFlight x b) := by
  rintro s hg ⟨⟨hi, hf⟩, hr⟩
  obtain ⟨h', out, he, -, hsame, -, hem⟩ := retransmit_spec (hg.cursors x)
  have hlt : (s.ep x).sock.wndSend.ackCnt.toNat < (s.ep x).sock.haveSendLen.toNat := by
    have h0 := (hg.cursors x).flight_toNat
    have hne : ((s.ep x).sock.wndSend.nextseq - (s.ep x).sock.wndSend.base).toNat ≠ 0 := by
      intro h0
      exact hi.nextseq (by rw [← hi.base]; bv_omega)
    omega
  obtain ⟨p, hp, data, rfl, hne, hlen⟩ := hem.first hlt
  have hdlen : (payloadLen (dataPacket (s.ep x).sock (s.ep x).sock.wndSend.base data)).toNat =
      data.length := dataPacket_dlen hlen
  refine hg.retrans ((retransThread_resend hr hi.opened hf).trans he) ⟨?_,
    dataPacket (s.ep x).sock (s.ep x).sock.wndSend.base data, ?_, dataPacket_flags _ _ _, ?_, ?_⟩
  · rw [Conn.put_ep_self]
    exact hsame.base.trans hi.base
  · rw [Conn.put_net_peer]
    exact List.mem_append_right _ hp
  · rw [dataPacket_seq hlen]
    exact hi.base
  · rw [hdlen]
    exact ⟨List.length_pos_iff.2 hne, hlen⟩

theorem tjuRecv_all {sock : TjuTcp} (hne : sock.receivedBuf ≠ []) :
    tjuRecv sock sock.receivedBuf.length =
      some ({ sock with receivedBuf := [] }, sock.receivedBuf) := by
  unfold tjuRecv
  rw [if_neg (List.length_pos_iff.2 hne).ne', if_pos (le_refl _)]
  simp

/-- The application of `y` reads all that it has received. -/
theorem Ongoing.reads (hg : Ongoing client server S s) (y : Side) :
    ∃ t, ReachBy connStep SteadyOk s t ∧ Ongoing client server S t ∧
      (t.ep y).sock.receivedBuf = [] ∧ t.ep y.peer = s.ep y.peer ∧ t.net y = s.net y := by
  by_cases h0 : (s.ep y).sock.receivedBuf = []
  · exact ⟨s, .refl, hg, h0, rfl, rfl⟩
  · have he : connStep s (.recv y (s.ep y).sock.receivedBuf.length) = some (s.put y
        { s.ep y with sock := { (s.ep y).sock with receivedBuf := [] } } [] []
        (s.ep y).sock.receivedBuf) := by
      simp only [connStep]
      rw [if_pos (List.length_pos_iff.2 h0), tjuRecv_all h0]
      rfl
    refine hg.go (e := .recv y (s.ep y).sock.receivedBuf.length)
      ⟨onMove_quiet fun m hm _ _ => ?_, trivial⟩ he
      ⟨?_, Conn.put_ep_peer, Conn.put_net_self⟩
    · cases hm
      exact SockEv.noConfusion
    · rw [Conn.put_ep_self]

theorem peer_reads (x : Side) (b : BitVec 32) : Steers client server S (AgainInFlight x b)
    fun s => AgainInFlight x b s ∧ (s.ep x.peer).sock.receivedBuf = [] := by
  rintro s hg ⟨hb, hp⟩
  obtain ⟨t, hr, hg', hbuf, hep, hnet⟩ := hg.reads x.peer
  rw [Side.peer_peer] at hep
  exact ⟨t, hr, hg', ⟨by rw [hep]; exact hb, by rw [hnet]; exact hp⟩, hbuf⟩

/-- **The first segment in flight** takes a receiver that has nothing to be read on, or the receiver
    had it before. -/
theorem Flow.expect_lt {snd rcv rcv' : TjuTcp} {T read : List Byte} {fwd back : List Buf}
    (hf : Flow snd rcv T read fwd back) (hT : Short T) (hp : pkt ∈ fwd)
    (hfl : getFlags pkt = noFlag) (hseq : getSeq pkt = snd.wndSend.base)
    (hpos : 1 ≤ (payloadLen pkt).toNat) (hle : (payloadLen pkt).toNat ≤ maxDlen)
    (hempty : rcv.receivedBuf = [])
    (hd : handleData rcv pkt = some (rcv', out)) :
    snd.wndSend.base < rcv'.wndRecv.expectSeq := by
  obtain ⟨hstart, hend⟩ := hf.end_le hT hp hfl
  obtain ⟨r, h1, h2, h3⟩ := hf.recv
  obtain ⟨seg, hseg, hkind⟩ := hf.data pkt hp hfl
  have hlen : (payloadLen pkt).toNat = seg.data.length := hseg.dlen
  have hoff : seg.off = snd.wndSend.base.toNat := by rw [← hseg.seq, hseq]
  have hdata : seg.data ≠ [] := List.length_pos_iff.1 (by omega)
  have hnext := snd.wndSend.nextseq.isLt
  have hrecv := h1.received_length
  rw [hempty, List.length_nil] at hrecv
  rw [hseq] at hstart hend
  simp only [Short, maxRwindowSize, maxDlen] at hT hle
  obtain ⟨sock', hd', href⟩ := handleData_refines h1 hseg fun hle => by
    simp only [maxRwindowSize, maxDlen]
    constructor <;> omega
  cases hd.symm.trans hd'
  have hlt : snd.wndSend.base.toNat < (r.arrive maxRwindowSize maxSockBufSize seg).next := by
    by_cases heq : r.next = seg.off
    · rw [← hoff, ← heq]
      refine Reasm.next_lt_arrive h1.inv heq.symm hdata ?_ ?_
      · simp only [maxRwindowSize, maxDlen]
        omega
      · rw [← hrecv]
        decide
    · have hmono := Reasm.next_le_arrive r maxRwindowSize maxSockBufSize seg
      omega
  rw [← href.win.expect] at hlt
  exact hlt

/-- The segment is answered by an ACK for it. -/
theorem resent_answered (x : Side) (b : BitVec 32) : Steers client server S
    (fun s => AgainInFlight x b s ∧ (s.ep x.peer).sock.receivedBuf = [])
    fun s => (s.ep x).sock.wndSend.base = b ∧
      ∃ a ∈ s.net x, getFlags a = ackFlagMask ∧ b < getAck a := by
  rintro s hg ⟨⟨rfl, pkt, hp, hf, hseq, hpos, hle⟩, hempty⟩
  obtain ⟨e, s', sock, hok, he, hep, hd, -, hnet⟩ := hg.segment hp hf
  refine hg.go hok he ⟨by rw [hep], _, hnet, ackPacket_flags _, ?_⟩
  rw [ackPacket_eq, getAck_wire]
  exact (hg.flow x).expect_lt (hg.shortAll x) hp hf hseq hpos hle hempty hd

/-- The ACK moves `base`. -/
theorem answer_acked (x : Side) (b : BitVec 32) : Steers client server S
    (fun s => (s.ep x).sock.wndSend.base = b ∧
      ∃ a ∈ s.net x, getFlags a = ackFlagMask ∧ b < getAck a)
    fun s => b < (s.ep x).sock.wndSend.base := by
  rintro s hg ⟨rfl, a, ha, hf, hlt⟩
  obtain ⟨e, s', now, hok, he, hstep⟩ := hg.ack ha hf
  refine hg.go hok he ?_
  rw [(ack_step (hg.opened x) hf hstep).base, cmax, if_pos hlt]
  exact hlt

/-- **With bytes in flight** `base` moves. -/
theorem flight_acked (x : Side) (b : BitVec 32) : Steers client server S
    (fun s => OpenFlight b (s.ep x).sock) fun s => b < (s.ep x).sock.wndSend.base :=
  (timer_rings x (OpenFlight b) fun _ hk =>
      Or.inr (Or.inr fun heq => hk.nextseq (heq.symm.trans hk.base)))
    |>.trans (flight_flagged x b) |>.trans (flight_resent x b) |>.trans (peer_reads x b)
    |>.trans (resent_answered x b) |>.trans (answer_acked x b)

/-! ## The end of the stream -/

/-- **`base` moves**, as long as the end of the stream is not acknowledged. -/
theorem base_advances (x : Side) (hb : b.toNat < 1 + (S x).length) : Steers client server S
    (fun s => (s.ep x).sock.wndSend.base = b) fun s => b < (s.ep x).sock.wndSend.base := by
  have hopen : Steers client server S (fun s => (s.ep x).sock.wndSend.base = b ∧
      (s.ep x).sock.wndSend.windowSize ≠ 0) fun s => b < (s.ep x).sock.wndSend.base := by
    rintro s hg ⟨hbase, hw⟩
    by_cases hn : (s.ep x).sock.wndSend.nextseq = b
    · exact ((idle_sends x hb).trans (flight_acked x b)) s hg ⟨hbase, hn, hw⟩
    · exact flight_acked x b s hg ⟨hbase, hn, hw⟩
  intro s hg hbase
  by_cases hw : (s.ep x).sock.wndSend.windowSize = 0
  · exact ((shut_opens x b).trans ((LeadsTo.stay fun _ _ h => h).either hopen)) s hg ⟨hbase, hw⟩
  · exact hopen s hg ⟨hbase, hw⟩

/-- All of the stream is acknowledged. -/
def Acked (S : Side → List Byte) (x : Side) (s : Conn) : Prop :=
  (s.ep x).sock.wndSend.base.toNat = 1 + (S x).length

/-- The numbers end with the stream. -/
theorem Ongoing.numbers (hg : Ongoing client server S s) (x : Side) :
    (s.ep x).sock.wndSend.base.toNat ≤ (s.ep x.peer).sock.wndRecv.expectSeq.toNat ∧
      (s.ep x.peer).sock.wndRecv.expectSeq.toNat ≤ (s.ep x).sock.wndSend.nextseq.toNat ∧
      (s.ep x).sock.wndSend.nextseq.toNat ≤ 1 + (S x).length := by
  obtain ⟨cut, n, -, -, -, hle, -, hnext⟩ := (hg.flow x).send.spec (hg.shortAll x)
  rw [hg.sent] at hle
  exact ⟨(hg.delivered x).base_le, (hg.delivered x).expect_le, by omega⟩

theorem acked_reached (x : Side) :
    Steers client server S (fun _ => True) (Acked S x) := by
  refine LeadsTo.rank (fun s => 1 + (S x).length - (s.ep x).sock.wndSend.base.toNat) ?_
  rintro n s hg ⟨-, rfl⟩
  obtain ⟨h1, h2, h3⟩ := hg.numbers x
  rcases Nat.eq_or_lt_of_le ((h1.trans h2).trans h3) with heq | hlt
  · exact ⟨s, .refl, hg, Or.inl heq⟩
  · obtain ⟨t, hr, hg', hmove⟩ := base_advances x hlt s hg rfl
    rw [BitVec.lt_def] at hmove
    exact ⟨t, hr, hg', Or.inr ⟨trivial, by omega⟩⟩

/-- What is acknowledged stays acknowledged. -/
theorem acked_keeps (x : Side) :
    KeptBy connStep SteadyOk fun s => Ongoing client server S s ∧ Acked S x s := by
  rintro s e s' ⟨hg, hack⟩ hok he
  have hg' := ongoing_keeps s e s' hg hok he
  obtain ⟨h1, h2, h3⟩ := hg'.numbers x
  have hmono := base_mono_step he x
  rw [BitVec.le_def] at hmono
  unfold Acked at hack ⊢
  exact ⟨hg', by omega⟩

/-- Both streams are acknowledged, and both applications have read what they have received. -/
theorem drained_reached : Steers client server S (fun _ => True) fun s =>
    (∀ x, Acked S x s) ∧ ∀ x, (s.ep x).sock.receivedBuf = [] := by
  have hboth : Steers client server S (fun _ => True) fun s =>
      Acked S .client s ∧ Acked S .server s :=
    (acked_reached .client).trans (((acked_reached .server).keep (acked_keeps .client)).mono
      (fun _ _ h => ⟨h, trivial⟩) fun _ _ h => h)
  have hread : Steers client server S (fun _ => True) fun s =>
      ∀ x, (s.ep x).sock.receivedBuf = [] := by
    intro s hg _
    obtain ⟨t, hr, hg', hbuf, -⟩ := hg.reads .client
    obtain ⟨u, hr', hg'', hbuf', hep, -⟩ := hg'.reads .server
    refine ⟨u, hr.trans hr', hg'', fun x => ?_⟩
    cases x with
    | client =>
      rw [show u.ep .client = t.ep .client from hep]
      exact hbuf
    | server => exact hbuf'
  refine hboth.trans (((hread.keep (acked_keeps .server)).keep ?_).mono
    (fun _ _ h => ⟨h.1, h.2, trivial⟩) ?_)
  · exact acked_keeps .client
  · rintro s - ⟨hc, hs, hbuf⟩
    exact ⟨fun x => by cases x <;> assumption, hbuf⟩

/-- **Every byte can be brought to the other side.**  From every state of a connection with short
    streams that both sides have open, and that was reached with samples that the timer takes, a
    steady run, in which nothing is lost, repeated or sent anew, leads to a state in which each
    side has read exactly what the other one has sent, and all of it is acknowledged.  The clock of
    the run is chosen freely. -/
theorem transfer_completes (client server : TjuSockAddr)
    (hr : ReachBy connStep (OnMove SampleFires) (.start client server (handshake client server)) s)
    (hS : ShortAll s) (hopen : ∀ x, (s.ep x).sock.state = .established) :
    ∃ t, ReachBy connStep SteadyOk s t ∧ ∀ x, t.sent x = s.sent x ∧ t.read x.peer = s.sent x ∧
      (t.ep x).sock.sendingBuf = [] ∧
      (t.ep x).sock.wndSend.base = (t.ep x).sock.wndSend.nextseq := by
  have hg : Ongoing client server s.sent s := ⟨hr, rfl, hS, hopen⟩
  obtain ⟨t, ht, hg', hack, hbuf⟩ := drained_reached s hg trivial
  refine ⟨t, ht, fun x => ⟨congrFun hg'.sent x, ?_, ?_, ?_⟩⟩
  · have hfront := (hg'.delivered x).front
    have hall := hack x
    have hle := (hg'.numbers x).1
    unfold Acked at hall
    rw [hbuf, List.append_nil, hg'.sent] at hfront
    rw [hfront]
    exact List.take_of_length_le (by omega)
  · rw [(tidy_reached hg'.reached hg'.shortAll x).buffer_nil_iff (hg'.flow x).send (hg'.shortAll x),
      hg'.sent]
    exact hack x
  · have hall := hack x
    obtain ⟨h1, h2, h3⟩ := hg'.numbers x
    unfold Acked at hall
    exact BitVec.eq_of_toNat_eq (by omega)

/-- The client has sent a byte, and has lost its packet. -/
theorem transfer_completes_lost :
    let s := (exec connStep freshConn [.append .client [7], .sendPass .client 0,
      .lose .server (dataPacket clientHost.sock 1 [7])]).getD freshConn
    ∃ t, ReachBy connStep SteadyOk s t ∧ ∀ x, t.sent x = s.sent x ∧ t.read x.peer = s.sent x ∧
      (t.ep x).sock.sendingBuf = [] ∧
      (t.ep x).sock.wndSend.base = (t.ep x).sock.wndSend.nextseq :=
  transfer_completes ⟨clientIp, 5678⟩ ⟨serverIp, 1234⟩
    (.of_along [.append .client [7], .sendPass .client 0,
      .lose .server (dataPacket clientHost.sock 1 [7])] (by decide) rfl)
    (by intro x; cases x <;> decide) (by intro x; cases x <;> decide)

end Tju
