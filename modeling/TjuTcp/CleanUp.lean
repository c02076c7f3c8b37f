/-
  The clean-up of the send buffer.

  An ACK for new data drops the acknowledged front of `sending_buf` when all of
  the buffer is acknowledged, or more than four fifths of its size.  So what is
  acknowledged never takes more than four fifths of the buffer, and a stream
  that is acknowledged to its end leaves the buffer empty (`Tidy`).

  `buffer_reclaimed`: in every reachable state of a connection, `sending_buf`
  is the unacknowledged end of the stream behind at most four fifths of the
  buffer, and it is empty just if all of the stream is acknowledged.
-/
import TjuTcp.Endpoints

namespace Tju

open Lib

/-- The clean-up has been made. -/
structure Tidy (sock : TjuTcp) : Prop where
  empty : sock.wndSend.ackCnt.toNat = sock.sendingBuf.length → sock.sendingBuf = []
  front : sock.wndSend.ackCnt.toNat ≤ 4 * maxSockBufSize / 5

variable {snd rcv sock sock' : TjuTcp} {S read : List Byte} {fwd back : List Buf} {h h' : Host}
  {s s' : Conn} {e : ConnEv} {pkt : Buf} {now : ℕ} {x : Side}

theorem Tidy.congr (ht : Tidy sock) (hb : sock'.sendingBuf = sock.sendingBuf)
    (ha : sock'.wndSend.ackCnt = sock.wndSend.ackCnt) : Tidy sock' where
  empty := by rw [hb, ha]; exact ht.empty
  front := by rw [ha]; exact ht.front

/-! ## One step -/

/-- The ACKs of the peer are no surprise. -/
theorem Flow.ackOk (hf : Flow snd rcv S read fwd back) (hS : Short S) (hp : pkt ∈ back)
    (hfl : getFlags pkt = ackFlagMask) : AckOk snd (getAck pkt) := by
  obtain ⟨-, -, -, -, hle, -⟩ := hf.stream hS
  have hack := hf.acks pkt hp hfl
  by_cases hlow : getAck pkt < snd.wndSend.base
  · exact Or.inl hlow
  · refine Or.inr ?_
    unfold AckInWindow
    bv_omega

theorem append_tidy {data : List Byte} (ht : Tidy sock) (hc : Cursors sock)
    (ha : appendData sock data = some sock') : Tidy sock' := by
  have h1 := hc.ack_le
  have h2 := hc.have_le
  obtain ⟨-, rfl⟩ := appendData_eq_some ha
  refine ⟨fun heq => ?_, ht.front⟩
  simp only [List.length_append] at heq
  have hnil : data = [] := List.eq_nil_of_length_eq_zero (by omega)
  rw [hnil, List.append_nil]
  exact ht.empty (by omega)

theorem sendingThread_tidy (now : ℕ) (ht : Tidy h.sock) (hc : Cursors h.sock) :
    Tidy (sendingThread now h).1.sock := by
  have h1 := hc.ack_le
  have h2 := hc.have_le
  unfold sendingThread
  split
  · next smp _ =>
    obtain ⟨n, -, -, -, -, -, hbuf, hack, -⟩ := sendBatch_spec now smp
      (show h.sock.haveSendLen = (h.sock.haveSendLen.toNat : ℕ) by omega) (by omega) hc.len_le
    exact ht.congr hbuf hack
  · exact ht

/-- **An ACK** is followed by the clean-up. -/
theorem handleAck_tidy (ht : Tidy h.sock) (hc : Cursors h.sock) (hok : AckOk h.sock (getAck pkt))
    (he : handleAck now h pkt = some h') : Tidy h'.sock := by
  by_cases hold : getAck pkt ≤ h.sock.wndSend.base
  · obtain ⟨t, he', -, hsame, -⟩ := handleAck_old now hold
    cases he.symm.trans he'
    exact ht.congr hsame.sendingBuf hsame.ackCnt
  · have hlt : h.sock.wndSend.base < getAck pkt := by bv_omega
    have hfl := hc.flight_toNat
    have h1 := hc.ack_le
    have h2 := hc.have_le
    have hin : (getAck pkt - h.sock.wndSend.base).toNat ≤
        (h.sock.wndSend.nextseq - h.sock.wndSend.base).toNat :=
      hok.resolve_left (by bv_omega)
    obtain ⟨t, c, he', -, -, hcl, hbuf, -, hack, -⟩ := handleAck_new now hlt
      (show h.sock.haveSendLen = (h.sock.haveSendLen.toNat : ℕ) by omega) (by omega) (by omega)
      hc.len_le
    cases he.symm.trans he'
    unfold cleaned at hcl
    split_ifs at hcl with hall
    · -- the front is dropped
      refine ⟨fun heq => ?_, by omega⟩
      rw [hack, hbuf, List.length_drop] at heq
      rw [hbuf, List.drop_eq_nil_iff]
      omega
    · refine ⟨fun heq => ?_, by omega⟩
      rw [hack, hbuf, List.length_drop] at heq
      exact absurd (Or.inl (by omega)) hall

/-- **One step of a connection.** -/
theorem tidy_step (hf : FlowAll s) (hS : ShortAll s) (ht : ∀ x, Tidy (s.ep x).sock)
    (he : connStep s e = some s') (y : Side) : Tidy (s'.ep y).sock := by
  cases connStep_hosts he with
  | closes _ hc =>
    obtain ⟨_, _, _, heq⟩ := hc y
    rw [heq]
    exact (ht y).congr rfl rfl
  | sock x f hmove hstep hpeer =>
    rcases Side.eq_or_peer x y with rfl | rfl
    · cases f with
      | append data =>
        obtain ⟨sock', ha, hh⟩ := Option.map_eq_some_iff.1 hstep
        rw [← hh]
        exact append_tidy (ht y) (hf y).send.cursors ha
      | sendPass now =>
        rw [← Option.some.inj hstep]
        exact sendingThread_tidy now (ht y) (hf y).send.cursors
      | retransPass =>
        obtain ⟨⟨t, out⟩, hr, hh⟩ := Option.map_eq_some_iff.1 hstep
        obtain ⟨t', out', hr', -, hsame, -⟩ := retransThread_spec (hf y).send.cursors
        cases hr.symm.trans hr'
        rw [← hh]
        exact (ht y).congr hsame.sendingBuf hsame.ackCnt
      | alarm =>
        rw [← Option.some.inj hstep]
        exact (ht y).congr rfl rfl
      | recv len =>
        simp only [sockStep] at hstep
        split_ifs at hstep
        obtain ⟨⟨sock', bytes⟩, hr, hh⟩ := Option.map_eq_some_iff.1 hstep
        obtain ⟨-, rfl, -⟩ := tjuRecv_eq_some hr
        rw [← hh]
        exact (ht y).congr rfl rfl
      | packet now pkt =>
        obtain ⟨⟨t, out⟩, hr, hh⟩ := Option.map_eq_some_iff.1 hstep
        rw [← hh]
        rcases handle_sending hr with ⟨hsame, -⟩ | ⟨-, hfl, ha⟩
        · exact (ht y).congr hsame.sendingBuf hsame.ackCnt
        · -- the ACK was in flight
          have hp : pkt ∈ s.net y := by
            cases connStep_move he with
            | deliver hp => cases hmove; exact hp
            | _ => cases hmove
          exact handleAck_tidy (ht y) (hf y).send.cursors ((hf y).ackOk (hS y) hp hfl) ha
    · rw [hpeer]
      exact ht _

/-! ## Runs -/

theorem tidy_reached {client server : TjuSockAddr}
    (hr : Reach connStep (.start client server (handshake client server)) s) (hS : ShortAll s) :
    ∀ x, Tidy (s.ep x).sock := by
  have hall : Reach connStep (.start client server (handshake client server)) s ∧
      (ShortAll s → ∀ x, Tidy (s.ep x).sock) := by
    refine hr.inv (I := fun s => Reach connStep (.start client server (handshake client server)) s ∧
      (ShortAll s → ∀ x, Tidy (s.ep x).sock)) ⟨ReachBy.refl, fun _ => ?_⟩ ?_
    · exact start_hosts (I := fun h => Tidy h.sock) fun _ _ => ⟨fun _ => rfl, Nat.zero_le _⟩
    · rintro s e s' ⟨hr, ht⟩ - he
      exact ⟨hr.tail trivial he, fun hS =>
        tidy_step ((flowAll_reached hr).2 (hS.back he)) (hS.back he) (ht (hS.back he)) he⟩
  exact hall.2 hS

/-- With everything acknowledged, nothing is left in the buffer. -/
theorem Tidy.buffer_nil_iff (ht : Tidy snd) (hs : SendRel snd S) (hS : Short S) :
    snd.sendingBuf = [] ↔ snd.wndSend.base.toNat = 1 + S.length := by
  obtain ⟨cut, n, hbuf, hn, hack, hle, hbase, -⟩ := hs.spec hS
  have hlen : snd.sendingBuf.length = S.length - cut := by rw [hbuf, List.length_drop]
  constructor
  · intro hnil
    rw [hnil, List.length_nil] at hlen
    omega
  · intro hall
    exact ht.empty (by omega)

/-- **The space of acknowledged bytes is given back.**  In every reachable state of a connection
    whose streams are short, `sending_buf` is the unacknowledged end of the stream behind at most
    four fifths of `MAX_SOCK_BUF_SIZE` bytes that are acknowledged; and it is empty if and only if
    all of the stream is acknowledged. -/
theorem buffer_reclaimed (client server : TjuSockAddr)
    (hr : Reach connStep (.start client server (handshake client server)) s) (hS : ShortAll s)
    (x : Side) :
    (∃ front, (s.ep x).sock.sendingBuf =
        front ++ (s.sent x).drop ((s.ep x).sock.wndSend.base.toNat - 1) ∧
      front.length ≤ 4 * maxSockBufSize / 5) ∧
    ((s.ep x).sock.sendingBuf = [] ↔ (s.ep x).sock.wndSend.base.toNat = 1 + (s.sent x).length) := by
  have hf := (flowAll_reached hr).2 hS
  have ht := tidy_reached hr hS x
  refine ⟨⟨(s.ep x).sock.sendingBuf.take (s.ep x).sock.wndSend.ackCnt.toNat, ?_, ?_⟩,
    ht.buffer_nil_iff (hf x).send (hS x)⟩
  · rw [← (hf.delivered hS x).unacked]
    exact (List.take_append_drop _ _).symm
  · rw [List.length_take]
    exact (min_le_left _ _).trans ht.front

/-- The server acknowledges the byte of `oneByte`. -/
def byteAcked : List ConnEv :=
  oneByte ++ [.deliver .client (wire ⟨1234, 5678, 1, 2, 20, 20, ackFlagMask, 44000, 0⟩ []) false 0]

/-- The only byte is acknowledged. -/
theorem buffer_reclaimed_byte :
    let s := (exec connStep freshConn byteAcked).getD freshConn
    (∃ front, (s.ep .client).sock.sendingBuf =
        front ++ (s.sent .client).drop ((s.ep .client).sock.wndSend.base.toNat - 1) ∧
      front.length ≤ 4 * maxSockBufSize / 5) ∧
    ((s.ep .client).sock.sendingBuf = [] ↔
      (s.ep .client).sock.wndSend.base.toNat = 1 + (s.sent .client).length) :=
  buffer_reclaimed ⟨clientIp, 5678⟩ ⟨serverIp, 1234⟩
    (.of_exec byteAcked rfl) (by intro x; cases x <;> decide) .client

end Tju
