/-
  The steps of a socket on its own cover those of a connection.

  In the model with many clients the windows, buffers and threads of a socket
  are left open (`HostEv.data`, `HostEv.send`).  `own_covered`: whatever a side
  of one connection does apart from handling a packet, with its threads, its
  timer and its calls, is a run of such steps, which ends with the same socket
  and sends the same packets.
-/
import TjuTcp.Net

namespace Tju

open Lib

/-- Several steps of a socket on its own, and all they send. -/
def hostRun : Host → List HostEv → Option (Host × List Buf)
  | h, [] => some (h, [])
  | h, e :: es => (hostStep h e).bind fun r => (hostRun r.1 es).map fun t => (t.1, r.2 ++ t.2)

/-- A data packet of the socket. -/
def IsData (sock : TjuTcp) (q : Buf) : Prop :=
  ∃ seq data, data.length ≤ maxDlen ∧ q = dataPacket sock seq data

/-- From `h` to `d` only windows, buffers and flags have changed, and the data packets `out` were
    sent. -/
structure DataOnly (h d : Host) (out : List Buf) : Prop where
  state : d.sock.state = h.sock.state
  localAddr : d.sock.establishedLocalAddr = h.sock.establishedLocalAddr
  remoteAddr : d.sock.establishedRemoteAddr = h.sock.establishedRemoteAddr
  packetFIN : d.sock.packetFIN = h.sock.packetFIN
  closeAck : d.closeAck = h.closeAck
  data : ∀ q ∈ out, IsData h.sock q

variable {h h' d : Host} {out : List Buf} {sock : TjuTcp} {s s' : Conn} {x : Side} {e : ConnEv}

/-! ## Runs of steps -/

theorem hostRun_one {e : HostEv} {r : Host × List Buf} (he : hostStep h e = some r) :
    hostRun h [e] = some r := by
  simp only [hostRun, he, Option.bind_some, Option.map_some, List.append_nil]

/-- Data packets are sent one by one. -/
theorem hostRun_sends (hc : connected h.sock.state = true) {out : List Buf}
    (hout : ∀ q ∈ out, IsData h.sock q) : ∃ es, hostRun h es = some (h, out) := by
  induction out with
  | nil => exact ⟨[], rfl⟩
  | cons q out ih =>
    obtain ⟨⟨seq, data, hlen, rfl⟩, hrest⟩ := List.forall_mem_cons.1 hout
    obtain ⟨es, hes⟩ := ih hrest
    refine ⟨.send seq data :: es, ?_⟩
    simp only [hostRun, hostStep, hc, if_true, Option.bind_some, hes, Option.map_some,
      sendToLayer3_segment hlen, List.singleton_append]

theorem DataOnly.refl (h : Host) : DataOnly h h [] :=
  ⟨rfl, rfl, rfl, rfl, rfl, fun q hq => by cases hq⟩

/-- The sending half alone has changed. -/
theorem DataOnly.of_rest (hr : SameRest h.sock d.sock) (hack : d.closeAck = h.closeAck)
    (hout : ∀ q ∈ out, IsData h.sock q) : DataOnly h d out :=
  ⟨hr.state, hr.localAddr, hr.remoteAddr, hr.packetFIN, hack, hout⟩

theorem DataOnly.samePacket (hd : DataOnly h d out) : dataPacket d.sock = dataPacket h.sock := by
  funext seq data
  simp only [dataPacket, hd.localAddr, hd.remoteAddr]

theorem DataOnly.withData (hd : DataOnly h d out) : h.withData d = d := by
  unfold Host.withData
  rw [← hd.state, ← hd.localAddr, ← hd.remoteAddr, ← hd.packetFIN, ← hd.closeAck]

/-- **What changes no more than that is covered.** -/
theorem DataOnly.covered (hd : DataOnly h d out) (hc : connected h.sock.state = true) :
    ∃ es, hostRun h es = some (d, out) := by
  have hc' : connected d.sock.state = true := by rw [hd.state]; exact hc
  have hdata : hostStep h (.data d) = some (d, []) := by
    simp only [hostStep, hc, if_true, hd.withData]
  obtain ⟨es, hes⟩ := hostRun_sends hc' fun q hq => by
    obtain ⟨seq, data, hlen, rfl⟩ := hd.data q hq
    exact ⟨seq, data, hlen, by rw [hd.samePacket]⟩
  refine ⟨.data d :: es, ?_⟩
  simp only [hostRun, hdata, Option.bind_some, hes, Option.map_some, List.nil_append]

/-! ## The threads -/

/-- One more segment of at most `MAX_DLEN` bytes. -/
theorem DataOnly.segment (hd : DataOnly h d out) (hr : SameRest d.sock h'.sock)
    (hack : h'.closeAck = d.closeAck) (seq rest : BitVec 32) (buf : List Byte) (off len : ℕ) :
    DataOnly h h' (out ++ sendToLayer3
      (dataPacket d.sock seq ((buf.drop off).take (nextDlen rest).toNat)) len) where
  state := hr.state.trans hd.state
  localAddr := hr.localAddr.trans hd.localAddr
  remoteAddr := hr.remoteAddr.trans hd.remoteAddr
  packetFIN := hr.packetFIN.trans hd.packetFIN
  closeAck := hack.trans hd.closeAck
  data q hq := by
    rcases List.mem_append.1 hq with hq | hq
    · exact hd.data q hq
    · unfold sendToLayer3 at hq
      split_ifs at hq
      · cases hq
      · refine ⟨seq, _, ?_, by rw [List.mem_singleton.1 hq, hd.samePacket]⟩
        have := nextDlen_toNat rest
        rw [List.length_take]
        omega

theorem sendRound_data {st : SendLoop} (hd : DataOnly h st.host st.out) (now : ℕ)
    (tmpLen wndBase : BitVec 32) :
    DataOnly h (sendRound now tmpLen wndBase st).host (sendRound now tmpLen wndBase st).out := by
  refine hd.segment (sendRound_rest ..) ?_ ..
  unfold sendRound
  dsimp only
  split_ifs <;> rfl

theorem sendBatch_data (now : ℕ) (smp : Sample) (h : Host) :
    DataOnly h (sendBatch now smp h).1 (sendBatch now smp h).2 := by
  let tmpLen := cmin (.ofNat 32 h.sock.sendingBuf.length) (smp.ackCnt + smp.windowSize)
  obtain ⟨h1, h2, h3, h4, h5, h6⟩ := loop_inv (I := fun st : SendLoop => DataOnly h st.host st.out)
    (fun st hd (_ : decide (.ofInt 32 st.host.sock.haveSendLen < tmpLen) = true) =>
      sendRound_data hd now tmpLen smp.base) tmpLen.toNat (s := ⟨h, smp.nextseq, []⟩) (.refl h)
  exact ⟨h1, h2, h3, h4, h5, h6⟩

/-- A pass of `sending_thread`. -/
theorem sendingThread_data (now : ℕ) (h : Host) :
    DataOnly h (sendingThread now h).1 (sendingThread now h).2 := by
  unfold sendingThread
  split
  · exact sendBatch_data ..
  · exact .refl h

theorem retransRound_data {st : RetransLoop} (hd : DataOnly h st.host st.out) (haveSent : BitVec 32) :
    DataOnly h (retransRound haveSent st).host (retransRound haveSent st).out := by
  refine hd.segment (retransRound_rest ..) ?_ ..
  unfold retransRound
  dsimp only
  split_ifs <;> rfl

theorem retransmit_data (he : retransmit h = some (h', out)) : DataOnly h h' out := by
  unfold retransmit at he
  set sock : TjuTcp := if h.timeoutFlag then
    { h.sock with wndSend := timeoutWindow h.sock.wndSend } else h.sock with hsock
  have hstart : DataOnly h { h with sock := sock } [] := by
    rw [hsock]
    split_ifs <;> exact .of_rest ⟨rfl, rfl, rfl, rfl, rfl, rfl⟩ rfl fun q hq => by cases hq
  let haveSent : BitVec 32 := .ofInt 32 sock.haveSendLen
  obtain ⟨h1, h2, h3, h4, h5, h6⟩ := loop_inv (I := fun st : RetransLoop => DataOnly h st.host st.out)
    (fun st hd (_ : decide (st.wndAckCnt < haveSent) = true) => retransRound_data hd haveSent)
    haveSent.toNat (s := ⟨{ h with sock := sock }, sock.wndSend.ackCnt, sock.wndSend.base, []⟩) hstart
  dsimp only at he
  split_ifs at he
  cases he
  exact ⟨h1, h2, h3, h4, h5, h6⟩

/-- A pass of `retrans_thread`. -/
theorem retransThread_data (he : retransThread h = some (h', out)) : DataOnly h h' out := by
  unfold retransThread at he
  split_ifs at he
  · cases he
    refine .of_rest ⟨rfl, rfl, rfl, rfl, rfl, rfl⟩ rfl fun q hq => ?_
    exact ⟨_, [], Nat.zero_le _, List.mem_singleton.1 hq⟩
  · cases he
    exact .of_rest ⟨rfl, rfl, rfl, rfl, rfl, rfl⟩ rfl fun q hq => by cases hq
  · cases he
    exact .of_rest (SameRest.refl _) rfl fun q hq => by cases hq
  · exact retransmit_data he
  · cases he
    exact .refl h

/-! ## The steps of a side -/

/-- The steps of a connection in which `x` handles no packet. -/
def Own (x : Side) : ConnEv → Prop
  | .append y _ | .sendPass y _ | .retransPass y | .alarm y | .recv y _ | .close y
  | .closeRetrans y | .wake y => y = x
  | .deliver .. | .lose .. => False

/-- **A side on its own** makes a run of steps of its socket, and sends the packets of that run. -/
theorem own_covered (ho : Own x e) (hc : connected (s.ep x).sock.state = true)
    (he : connStep s e = some s') : ∃ es out, hostRun (s.ep x) es = some (s'.ep x, out) ∧
      s'.net x.peer = s.net x.peer ++ out := by
  -- the threads, `tju_send`, `tju_recv` and the timer touch data only
  have hdata : ∀ h out snt rd, DataOnly (s.ep x) h out → s' = s.put x h out snt rd →
      ∃ es out, hostRun (s.ep x) es = some (s'.ep x, out) ∧
        s'.net x.peer = s.net x.peer ++ out := by
    rintro h out snt rd hd rfl
    obtain ⟨es, hes⟩ := hd.covered hc
    exact ⟨es, out, by rw [Conn.put_ep_self]; exact hes, Conn.put_net_peer⟩
  -- the calls that close are steps themselves
  have hstep : ∀ f h out, hostStep (s.ep x) f = some (h, out) → s' = s.put x h out [] [] →
      ∃ es out, hostRun (s.ep x) es = some (s'.ep x, out) ∧
        s'.net x.peer = s.net x.peer ++ out := by
    rintro f h out hf rfl
    exact ⟨[f], out, by rw [Conn.put_ep_self]; exact hostRun_one hf, Conn.put_net_peer⟩
  cases e with
  | append y data =>
    obtain rfl : y = x := ho
    simp only [connStep] at he
    split_ifs at he
    obtain ⟨sock, ha, rfl⟩ := Option.map_eq_some_iff.1 he
    obtain ⟨-, rfl⟩ := appendData_eq_some ha
    refine hdata _ [] _ _ ?_ rfl
    exact ⟨rfl, rfl, rfl, rfl, rfl, fun q hq => by cases hq⟩
  | sendPass y now =>
    obtain rfl : y = x := ho
    cases he
    exact hdata _ _ _ _ (sendingThread_data now _) rfl
  | retransPass y =>
    obtain rfl : y = x := ho
    obtain ⟨⟨h, out⟩, ht, rfl⟩ := Option.map_eq_some_iff.1 he
    exact hdata _ _ _ _ (retransThread_data ht) rfl
  | alarm y =>
    obtain rfl : y = x := ho
    cases he
    refine hdata _ [] _ _ ?_ rfl
    exact ⟨rfl, rfl, rfl, rfl, rfl, fun q hq => by cases hq⟩
  | deliver => exact ho.elim
  | lose => exact ho.elim
  | recv y len =>
    obtain rfl : y = x := ho
    simp only [connStep] at he
    split_ifs at he
    obtain ⟨⟨sock, bytes⟩, hr, rfl⟩ := Option.map_eq_some_iff.1 he
    obtain ⟨-, rfl, -⟩ := tjuRecv_eq_some hr
    refine hdata _ [] _ _ ?_ rfl
    exact ⟨rfl, rfl, rfl, rfl, rfl, fun q hq => by cases hq⟩
  | close y =>
    obtain rfl : y = x := ho
    obtain ⟨⟨h, out⟩, ht, rfl⟩ := Option.map_eq_some_iff.1 he
    exact hstep .close h out (by simp only [hostStep, hc, if_true, ht]) rfl
  | closeRetrans y =>
    obtain rfl : y = x := ho
    cases he
    exact hstep .closeRetrans _ _ (by simp only [hostStep, hc, if_true]) rfl
  | wake y =>
    obtain rfl : y = x := ho
    obtain ⟨⟨h, out⟩, ht, rfl⟩ := Option.map_eq_some_iff.1 he
    exact hstep .wake h out (by simp only [hostStep, hc, if_true, ht]) rfl

end Tju
