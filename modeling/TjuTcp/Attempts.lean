/-
  What every run of the server and its clients keeps.

  `netStep_move` says once what a step can do, and each invariant of the runs
  is derived from that.  `NetInv`: a client in SYN_SENT has sent SYNs only, so that whatever else is
  in flight for its attempt is the SYN|ACK of the listening socket; the other
  packets, the sockets of the server and the slots of the accept queue belong
  to attempts that have entered ESTABLISHED.
-/
import TjuTcp.Net

namespace Tju

open Lib

/-- What the event `e` makes of the state. -/
inductive NetMove (s : Net) : NetEv → Net → Prop
  | connect {p : BitVec 16} {targetAddr junk : TjuSockAddr} : s.clients p = none →
      NetMove s (.connect p targetAddr junk)
        (({ s with attempts := Function.update s.attempts p (s.attempts p + 1) } : Net).putClient p
          ⟨sockHost (tjuConnect { tjuSocket with establishedRemoteAddr := junk } p targetAddr).1,
            targetAddr, true⟩ [synPacket p targetAddr.port])
  | synRetrans {p : BitVec 16} {c : Client} : s.clients p = some c → c.connecting = true →
      c.host.sock.state ≠ .established →
      NetMove s (.synRetrans p) (s.putClient p c [synPacket p c.targetAddr.port])
  | connectReturn {p : BitVec 16} {c : Client} : s.clients p = some c → c.connecting = true →
      c.host.sock.state = .established →
      NetMove s (.connectReturn p) (s.putClient p { c with
        host := { c.host with sock := { c.host.sock with establishedRemoteAddr := c.targetAddr } }
        connecting := false } [])
  | clientHandles {a : Attempt} {pkt : Buf} {keep : Bool} {now : ℕ} {c : Client} {h : Host}
      {out : List Buf} : (a, pkt) ∈ s.toClient → s.clients (getDst pkt) = some c →
      asleep c.host.sock.state = false → clientFinds (getDst pkt) c.targetAddr pkt = true →
      tjuHandlePacket now c.host pkt = some (h, out) →
      NetMove s (.clientDeliver a pkt keep now)
        (((s.putClient (getDst pkt) { c with host := h } out).complete (s.attempt (getDst pkt))
          (c.host.sock.state == .synSent && h.sock.state == .established)).dropToClient (a, pkt) keep)
  | clientDrops {e : NetEv} {m : Attempt × Buf} {keep : Bool} : NetMove s e (s.dropToClient m keep)
  | clientHost {p : BitVec 16} {f : HostEv} {c : Client} {h : Host} {out : List Buf} :
      s.clients p = some c → ¬ (c.connecting = true ∧ f.waits = true) →
      hostStep c.host f = some (h, out) →
      NetMove s (.clientHost p f) (s.putClient p { c with host := h } out)
  | clientDone {p : BitVec 16} {c : Client} : s.clients p = some c → c.connecting = false →
      c.host.sock.state = .closed →
      NetMove s (.clientDone p) { s with clients := Function.update s.clients p none }
  | serverHandles {a : Attempt} {pkt : Buf} {keep : Bool} {now n : ℕ} {h h' : Host}
      {out : List Buf} : (a, pkt) ∈ s.toServer → s.sleeping = false →
      onTcpPocket s.server pkt = .established n → s.server.socks n = some h →
      tjuHandlePacket now h pkt = some (h', out) →
      NetMove s (.serverDeliver a pkt keep now) ((s.putSock n h' a out).dropToServer (a, pkt) keep)
  | listens {a : Attempt} {pkt : Buf} {keep : Bool} {now : ℕ} {l : TjuTcp} : (a, pkt) ∈ s.toServer →
      s.sleeping = false → onTcpPocket s.server pkt = .listening l →
      NetMove s (.serverDeliver a pkt keep now) ((s.listens now l a pkt).dropToServer (a, pkt) keep)
  | serverDrops {e : NetEv} {m : Attempt × Buf} {keep : Bool} : NetMove s e (s.dropToServer m keep)
  | accept {r : Kernel × TjuTcp} : s.server.queues.acceptNum ≠ 0 →
      tjuAccept s.server s.accepted.length = some r →
      NetMove s .accept { s with
        server := r.1
        accepted := s.accepted ++ [r.2]
        justified := s.justified ++ [s.acceptBy (sockHash r.2)] }
  | serverHost {n : ℕ} {f : HostEv} {a : Attempt} {h h' : Host} {out : List Buf} :
      s.server.socks n = some h → s.justified[n]? = some a → hostStep h f = some (h', out) →
      NetMove s (.serverHost n f) (s.putSock n h' a out)
  | serverDone {n : ℕ} {h : Host} : s.server.socks n = some h → h.sock.state = .closed →
      NetMove s (.serverDone n) { s with server := closeDone s.server n h.sock }

structure NetInv (s : Net) : Prop where
  sent : ∀ m ∈ s.toServer, getSrc m.2 = m.1.port ∧
    ((∃ dst, m.2 = synPacket m.1.port dst) ∨ s.completed m.1 = true)
  back : ∀ m ∈ s.toClient, (∃ dst, m.2 = synAckPacket (synPacket m.1.port dst)) ∧
    s.answered m.1 = true ∨ s.completed m.1 = true
  client : ∀ p c, s.clients p = some c → FromPort c.host p ∧
    (c.host.sock.state = .synSent ∧ s.completed (s.attempt p) = false ∨
      connected c.host.sock.state = true ∧ s.completed (s.attempt p) = true)
  opened : ∀ p c, s.clients p = some c → 1 ≤ s.attempts p
  range : ∀ a, s.completed a = true → 1 ≤ a.number ∧ a.number ≤ s.attempts a.port
  socks : ∀ n h, s.server.socks n = some h → connected h.sock.state = true
  justified : ∀ a ∈ s.justified, s.completed a = true
  slots : ∀ i sock, s.server.queues.acceptQueue i = some sock →
    s.completed (s.acceptBy i) = true ∧ sockHash sock = i ∧ connected sock.state = true

variable {s s' : Net} {p : BitVec 16} {c : Client} {out : List Buf} {a : Attempt} {pkt : Buf}
  {h : Host} {n now : ℕ} {e : NetEv}

/-- **What a step can do.** -/
theorem netStep_move (he : netStep s e = some s') : NetMove s e s' := by
  cases e with
  | connect p targetAddr junk =>
    simp only [netStep] at he
    split_ifs at he with hnone
    cases he
    exact .connect (Option.isNone_iff_eq_none.1 hnone)
  | synRetrans p =>
    obtain ⟨c, hc, he⟩ := Option.bind_eq_some_iff.1 he
    split_ifs at he with hg
    cases he
    exact .synRetrans hc hg.1 hg.2
  | connectReturn p =>
    obtain ⟨c, hc, he⟩ := Option.bind_eq_some_iff.1 he
    split_ifs at he with hg
    cases he
    exact .connectReturn hc hg.1 hg.2
  | clientDeliver a pkt keep now =>
    simp only [netStep] at he
    split_ifs at he with hm
    split at he
    · cases he; exact .clientDrops
    · next c hc =>
      split_ifs at he with hw hfind
      · obtain ⟨⟨h, out⟩, hh, rfl⟩ := Option.map_eq_some_iff.1 he
        exact .clientHandles hm hc (Bool.eq_false_iff.2 hw) hfind hh
      · cases he; exact .clientDrops
  | clientHost p f =>
    obtain ⟨c, hc, he⟩ := Option.bind_eq_some_iff.1 he
    split_ifs at he with hw
    obtain ⟨⟨h, out⟩, hh, rfl⟩ := Option.map_eq_some_iff.1 he
    exact .clientHost hc hw hh
  | clientDone p =>
    obtain ⟨c, hc, he⟩ := Option.bind_eq_some_iff.1 he
    split_ifs at he with hg
    cases he
    exact .clientDone hc hg.1 hg.2
  | serverDeliver a pkt keep now =>
    simp only [netStep] at he
    split_ifs at he with hm
    split at he
    · next n hn =>
      obtain ⟨h, hh, he⟩ := Option.bind_eq_some_iff.1 he
      obtain ⟨⟨h', out⟩, ht, rfl⟩ := Option.map_eq_some_iff.1 he
      exact .serverHandles hm.1 hm.2 hn hh ht
    · next l hl => cases he; exact .listens hm.1 hm.2 hl
    · cases he; exact .serverDrops
  | accept =>
    simp only [netStep] at he
    split_ifs at he with hnum
    obtain ⟨r, hr, rfl⟩ := Option.map_eq_some_iff.1 he
    exact .accept hnum hr
  | serverHost n f =>
    obtain ⟨h, hh, he⟩ := Option.bind_eq_some_iff.1 he
    obtain ⟨a, ha, he⟩ := Option.bind_eq_some_iff.1 he
    obtain ⟨⟨h', out⟩, ht, rfl⟩ := Option.map_eq_some_iff.1 he
    exact .serverHost hh ha ht
  | serverDone n =>
    obtain ⟨h, hh, he⟩ := Option.bind_eq_some_iff.1 he
    split_ifs at he with hs
    cases he
    exact .serverDone hh hs
  | loseToServer a pkt => cases he; exact .serverDrops
  | loseToClient a pkt => cases he; exact .clientDrops

/-! ## The parts of a step -/

theorem complete_false (s : Net) (a : Attempt) : s.complete a false = s := by
  unfold Net.complete
  rw [mark_false]

theorem attempt_injective {s : Net} {p p' : BitVec 16} (h : s.attempt p = s.attempt p') : p = p' :=
  congrArg Attempt.port h

theorem NetInv.dropToServer (hi : NetInv s) (m : Attempt × Buf) (keep : Bool) :
    NetInv (s.dropToServer m keep) := by
  unfold Net.dropToServer
  split_ifs
  · exact hi
  · exact ⟨fun m hm => hi.sent m (List.mem_of_mem_erase hm), hi.back, hi.client, hi.opened, hi.range,
      hi.socks, hi.justified, hi.slots⟩

theorem NetInv.dropToClient (hi : NetInv s) (m : Attempt × Buf) (keep : Bool) :
    NetInv (s.dropToClient m keep) := by
  unfold Net.dropToClient
  split_ifs
  · exact hi
  · exact ⟨hi.sent, fun m hm => hi.back m (List.mem_of_mem_erase hm), hi.client, hi.opened, hi.range,
      hi.socks, hi.justified, hi.slots⟩

/-- A client goes on, without entering ESTABLISHED. -/
theorem NetInv.putClient (hi : NetInv s) (hpos : 1 ≤ s.attempts p) (hport : FromPort c.host p)
    (hstate : c.host.sock.state = .synSent ∧ s.completed (s.attempt p) = false ∨
      connected c.host.sock.state = true ∧ s.completed (s.attempt p) = true)
    (hout : ∀ q ∈ out, getSrc q = p ∧
      ((∃ dst, q = synPacket p dst) ∨ s.completed (s.attempt p) = true)) :
    NetInv (s.putClient p c out) where
  sent m hm := by
    rcases List.mem_append.1 hm with hm | hm
    · exact hi.sent m hm
    · obtain ⟨q, hq, rfl⟩ := List.mem_map.1 hm
      exact hout q hq
  back := hi.back
  client p' c' hc' := by
    rcases update_eq_some hc' with ⟨rfl, rfl⟩ | ⟨-, hc'⟩
    · exact ⟨hport, hstate⟩
    · exact hi.client p' c' hc'
  opened p' c' hc' := by
    rcases update_eq_some hc' with ⟨rfl, -⟩ | ⟨-, hc'⟩
    · exact hpos
    · exact hi.opened p' c' hc'
  range := hi.range
  socks := hi.socks
  justified := hi.justified
  slots := hi.slots

/-- A client in SYN_SENT enters ESTABLISHED. -/
theorem NetInv.enter (hi : NetInv s) (hpos : 1 ≤ s.attempts p) (hport : FromPort c.host p)
    (hconn : connected c.host.sock.state = true) (hout : ∀ q ∈ out, getSrc q = p) :
    NetInv ((s.putClient p c out).complete (s.attempt p) true) := by
  have hself : mark s.completed (s.attempt p) true (s.attempt p) = true := mark_self rfl
  refine ⟨fun m hm => ?_, fun m hm => ?_, fun p' c' hc' => ?_, fun p' c' hc' => ?_,
    fun a' ha' => ?_, hi.socks, fun a' ha' => mark_of (hi.justified a' ha'), fun i sock hs => ?_⟩
  · rcases List.mem_append.1 hm with hm | hm
    · exact (hi.sent m hm).imp_right fun h => h.imp_right mark_of
    · obtain ⟨q, hq, rfl⟩ := List.mem_map.1 hm
      exact ⟨hout q hq, Or.inr hself⟩
  · exact (hi.back m hm).imp_right mark_of
  · rcases update_eq_some hc' with ⟨rfl, rfl⟩ | ⟨hne, hc'⟩
    · exact ⟨hport, Or.inr ⟨hconn, hself⟩⟩
    · have hsame : mark s.completed (s.attempt p) true (s.attempt p') = s.completed (s.attempt p') :=
        mark_ne fun h => hne (attempt_injective h)
      obtain ⟨h1, h2⟩ := hi.client p' c' hc'
      rw [← hsame] at h2
      exact ⟨h1, h2⟩
  · rcases update_eq_some hc' with ⟨rfl, -⟩ | ⟨-, hc'⟩
    · exact hpos
    · exact hi.opened p' c' hc'
  · rcases mark_cases ha' with h | ⟨-, rfl⟩
    · exact hi.range a' h
    · exact ⟨hpos, le_rfl⟩
  · exact (hi.slots i sock hs).imp_left mark_of

/-- A socket of the server goes on. -/
theorem NetInv.putSock (hi : NetInv s) (hc : connected h.sock.state = true)
    (hout : ∀ q ∈ out, s.completed a = true) : NetInv (s.putSock n h a out) where
  sent := hi.sent
  back m hm := by
    rcases List.mem_append.1 hm with hm | hm
    · exact hi.back m hm
    · obtain ⟨q, hq, rfl⟩ := List.mem_map.1 hm
      exact Or.inr (hout q hq)
  client := hi.client
  opened := hi.opened
  range := hi.range
  socks n' h' hh' := by
    rcases update_eq_some hh' with ⟨-, rfl⟩ | ⟨-, hh'⟩
    · exact hc
    · exact hi.socks n' h' hh'
  justified := hi.justified
  slots := hi.slots

/-- A packet that is not a SYN comes from an attempt that has entered ESTABLISHED. -/
theorem NetInv.completed_of_ne_syn (hi : NetInv s) (hm : (a, pkt) ∈ s.toServer)
    (hf : getFlags pkt ≠ synFlagMask) : s.completed a = true := by
  rcases (hi.sent _ hm).2 with ⟨dst, hp⟩ | h
  · change pkt = _ at hp
    rw [hp, synPacket_flags] at hf
    exact absurd rfl hf
  · exact h

/-- The listening socket handles a packet. -/
theorem NetInv.listens (hi : NetInv s) (hm : (a, pkt) ∈ s.toServer) (l : TjuTcp) :
    NetInv (s.listens now l a pkt) := by
  refine ⟨hi.sent, fun m hm' => ?_, hi.client, hi.opened, hi.range, hi.socks, hi.justified,
    fun i sock hs => ?_⟩
  · rcases List.mem_append.1 hm' with hm' | hm'
    · exact (hi.back m hm').imp_left fun h => ⟨h.1, mark_of h.2⟩
    · -- the answer to a SYN
      obtain ⟨q, hq, rfl⟩ := List.mem_map.1 hm'
      rw [handleListen_out] at hq
      split_ifs at hq with hsyn
      · rw [List.mem_singleton.1 hq]
        rcases (hi.sent _ hm).2 with ⟨dst, hp⟩ | h
        · exact Or.inl ⟨⟨dst, congrArg synAckPacket hp⟩, mark_self (beq_iff_eq.2 hsyn)⟩
        · exact Or.inr h
      · cases hq
  · -- a slot holds what it held before, or the socket taken for an ACK
    change (handleListen now l s.server.queues pkt).1.acceptQueue i = some sock at hs
    show s.completed (if _ then a else s.acceptBy i) = true ∧ _
    rcases handleListen_slot now l s.server.queues pkt i with h | ⟨t, ht, hi', hn, ht'⟩
    · rw [h] at hs
      rw [if_neg (by rw [hs]; rintro ⟨h1, -⟩; cases h1)]
      exact hi.slots i sock hs
    · rw [ht'] at hs
      cases hs
      rw [if_pos ⟨by rw [hn]; rfl, by rw [ht']; rfl⟩]
      refine ⟨hi.completed_of_ne_syn hm ?_, hi'.symm, rfl⟩
      unfold listenTakes at ht
      split_ifs at ht with hack
      rw [hack.1]; decide

/-- `tju_accept` returns a socket. -/
theorem NetInv.accept (hi : NetInv s) {r : Kernel × TjuTcp}
    (hr : tjuAccept s.server s.accepted.length = some r) :
    NetInv { s with
      server := r.1
      accepted := s.accepted ++ [r.2]
      justified := s.justified ++ [s.acceptBy (sockHash r.2)] } := by
  unfold tjuAccept at hr
  split at hr
  · next q sock hq =>
    cases hr
    obtain ⟨i, hsock, hq'⟩ := getFromAccept_eq_some hq
    obtain ⟨hcomp, hhash, hconn⟩ := hi.slots i sock hsock
    refine ⟨hi.sent, hi.back, hi.client, hi.opened, hi.range, fun n h hh => ?_, fun a ha => ?_,
      fun j t ht => ?_⟩
    · rcases update_eq_some hh with ⟨-, rfl⟩ | ⟨-, hh⟩
      · exact hconn
      · exact hi.socks n h hh
    · rcases List.mem_append.1 ha with ha | ha
      · exact hi.justified a ha
      · rw [List.mem_singleton.1 ha, hhash]; exact hcomp
    · change q.acceptQueue j = some t at ht
      rw [hq'] at ht
      exact hi.slots j t (update_none_eq_some ht).2
  · cases hr

/-- A client opens a new socket: its attempt gets the next number. -/
theorem NetInv.nextAttempt (hi : NetInv s) (hp : s.clients p = none) :
    NetInv { s with attempts := Function.update s.attempts p (s.attempts p + 1) } := by
  have hle : ∀ p', s.attempts p' ≤ Function.update s.attempts p (s.attempts p + 1) p' := by
    intro p'
    rcases eq_or_ne p' p with rfl | hne
    · rw [Function.update_self]; omega
    · rw [Function.update_of_ne hne]
  refine ⟨hi.sent, hi.back, fun p' c hc => ?_, fun p' c hc => (hi.opened p' c hc).trans (hle _),
    fun a ha => ?_, hi.socks, hi.justified, hi.slots⟩
  · have hne : p' ≠ p := by
      rintro rfl
      rw [hp] at hc; cases hc
    have := hi.client p' c hc
    simpa only [Net.attempt, Function.update_of_ne hne] using this
  · exact ⟨(hi.range a ha).1, (hi.range a ha).2.trans (hle _)⟩

/-- The next attempt has not entered ESTABLISHED yet. -/
theorem NetInv.fresh (hi : NetInv s) (p : BitVec 16) :
    s.completed ⟨p, s.attempts p + 1⟩ = false := by
  rw [Bool.eq_false_iff]
  intro h
  have := (hi.range _ h).2
  dsimp only at this
  omega

/-- The handler of a client goes on, and may enter ESTABLISHED. -/
theorem NetInv.clientHandles (hi : NetInv s) (hc : s.clients p = some c) (hd : getDst pkt = p)
    (hh : tjuHandlePacket now c.host pkt = some (h, out)) :
    NetInv ((s.putClient p { c with host := h } out).complete (s.attempt p)
      (c.host.sock.state == .synSent && h.sock.state == .established)) := by
  obtain ⟨hport, hstate⟩ := hi.client p c hc
  obtain ⟨hport', hout⟩ := handle_fromPort hport hd hh
  have hpos := hi.opened p c hc
  rcases hstate with ⟨hs, hcomp⟩ | ⟨hconn, hcomp⟩
  · rcases handle_synSent hs hh with ⟨hest, -⟩ | ⟨rfl, rfl⟩
    · have hb : (c.host.sock.state == .synSent && h.sock.state == .established) = true := by
        rw [hs, hest]; rfl
      rw [hb]
      exact hi.enter hpos hport' (by rw [hest]; rfl) hout
    · have hb : (c.host.sock.state == .synSent && c.host.sock.state == .established) = false := by
        rw [hs]; rfl
      rw [hb, complete_false]
      exact hi.putClient hpos hport (Or.inl ⟨hs, hcomp⟩) fun q hq => by cases hq
  · have hb : (c.host.sock.state == .synSent && h.sock.state == .established) = false := by
      rw [beq_eq_false_iff_ne.2 (connected_ne hconn), Bool.false_and]
    rw [hb, complete_false]
    exact hi.putClient hpos hport' (Or.inr ⟨handle_connected hconn hh, hcomp⟩) fun q hq =>
      ⟨hout q hq, Or.inr hcomp⟩

theorem getSrc_synPacket (src dst : BitVec 16) : getSrc (synPacket src dst) = src := by
  rw [synPacket_eq, getSrc_wire]

/-! ## One step -/

/-- **One step.** -/
theorem netInv_step (hi : NetInv s) (he : netStep s e = some s') : NetInv s' := by
  cases netStep_move he with
  | @connect p targetAddr junk hp =>
    refine (hi.nextAttempt hp).putClient ?_ ⟨rfl, fun q hq => by cases hq⟩ (Or.inl ⟨rfl, ?_⟩)
      fun q hq => ?_
    · simp only [Function.update_self]; omega
    · simpa only [Net.attempt, Function.update_self] using hi.fresh p
    · rw [List.mem_singleton.1 hq]
      exact ⟨getSrc_synPacket _ _, Or.inl ⟨_, rfl⟩⟩
  | synRetrans hc =>
    obtain ⟨h1, h2⟩ := hi.client _ _ hc
    refine hi.putClient (hi.opened _ _ hc) h1 h2 fun q hq => ?_
    rw [List.mem_singleton.1 hq]
    exact ⟨getSrc_synPacket _ _, Or.inl ⟨_, rfl⟩⟩
  | connectReturn hc =>
    obtain ⟨h1, h2⟩ := hi.client _ _ hc
    exact hi.putClient (hi.opened _ _ hc) ⟨h1.localAddr, h1.packetFIN⟩ h2 fun q hq => by cases hq
  | clientHandles _ hc _ _ hh => exact (hi.clientHandles hc rfl hh).dropToClient _ _
  | clientDrops => exact hi.dropToClient _ _
  | clientHost hc _ hh =>
    obtain ⟨hport, hstate⟩ := hi.client _ _ hc
    obtain ⟨hconn, hconn'⟩ := hostStep_connected hh
    obtain ⟨hport', hout⟩ := hostStep_fromPort hport hh
    rcases hstate with ⟨hs, -⟩ | ⟨-, hcomp⟩
    · exact absurd hs (connected_ne hconn)
    · exact hi.putClient (hi.opened _ _ hc) hport' (Or.inr ⟨hconn', hcomp⟩) fun q hq =>
        ⟨hout q hq, Or.inr hcomp⟩
  | clientDone =>
    exact ⟨hi.sent, hi.back, fun p c hc => hi.client p c (update_none_eq_some hc).2,
      fun p c hc => hi.opened p c (update_none_eq_some hc).2, hi.range, hi.socks, hi.justified,
      hi.slots⟩
  | serverHandles hm _ _ hh ht =>
    have hconn := hi.socks _ _ hh
    refine NetInv.dropToServer (hi.putSock (handle_connected hconn ht) fun q hq => ?_) _ _
    refine hi.completed_of_ne_syn hm fun hsyn => ?_
    rw [handle_syn hconn hsyn ht] at hq
    cases hq
  | listens hm => exact (hi.listens hm _).dropToServer _ _
  | serverDrops => exact hi.dropToServer _ _
  | accept _ hr => exact hi.accept hr
  | serverHost _ ha ht =>
    exact hi.putSock (hostStep_connected ht).2 fun q _ => hi.justified _ (List.mem_of_getElem? ha)
  | serverDone =>
    exact ⟨hi.sent, hi.back, hi.client, hi.opened, hi.range,
      fun n h hh => hi.socks n h (update_none_eq_some hh).2, hi.justified, hi.slots⟩

theorem netInv_start (bindAddr : TjuSockAddr) : NetInv (.start bindAddr) where
  sent m hm := by cases hm
  back m hm := by cases hm
  client p c hc := by cases hc
  opened p c hc := by cases hc
  range a ha := by cases ha
  socks n h hh := by cases hh
  justified a ha := by cases ha
  slots i sock hs := by cases hs

end Tju
