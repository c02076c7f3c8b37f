/-
  The passes of `Conn` are runs of statements.

  In `Conn` each pass of a thread, and each ACK, is one step.  Every such step
  is a run of `Fine` in which one thread moves alone, and which reads the fields
  of one ACK: what `Conn` can reach, the statements can reach.  (The converse
  fails: `fine_stream_broken`.)

  * `Alone.fine`: a thread that moves alone, on the connection;
  * `resting_step`: one step of `Conn`;
  * `passes_are_statements`: every run of `Conn`.
-/
import TjuTcp.Uninterrupted
import TjuTcp.FineStream

namespace Tju

open Lib

/-- All threads of both sides wait, and the connection is `c`. -/
structure Resting (c : Conn) (s : FineConn) : Prop where
  host : ∀ x, (s.proc x).host = c.ep x
  stream : ∀ x, (s.proc x).stream = c.sent x
  sender : ∀ x, (s.proc x).sender = .idle
  retrans : ∀ x, (s.proc x).retrans = .idle
  handler : ∀ x, (s.proc x).handler = .idle
  net : s.net = c.net
  read : s.read = c.read

/-- A SIGALRM comes from a timer that is armed. -/
def ByTimer (c : Conn) : ConnEv → Prop
  | .alarm x => (c.ep x).timer = true
  | _ => True

instance (c : Conn) : DecidablePred (ByTimer c)
  | .alarm x => inferInstanceAs (Decidable ((c.ep x).timer = true))
  | .append .. | .sendPass .. | .retransPass _ | .deliver .. | .lose .. | .recv .. | .close _
  | .closeRetrans _ | .wake _ => isTrue trivial

variable {c c' : Conn} {s s' : FineConn} {x : Side} {p p' : Proc} {out out' : List Buf}
  {snt rd rd' : List Byte} {h : Host} {pkt : Buf} {keep b : Bool} {e : ProcEv} {now : ℕ}

/-! ## One thread alone -/

theorem FineConn.put_self (s : FineConn) (x : Side) : s.put x (s.proc x) [] [] = s := by
  simp only [FineConn.put, Function.update_eq_self, List.append_nil]

theorem FineConn.put_put : (s.put x p out rd).put x p' out' rd' =
    s.put x p' (out ++ out') (rd ++ rd') := by
  simp only [FineConn.put, Function.update_idem, Function.update_self, List.append_assoc]

/-- A thread that moves alone, and sends what the network is given. -/
theorem Alone.fine (hm : ∀ p, mayMove p e = true) {t : Proc × List Buf}
    (ha : Alone e (s.proc x, []) t) : ReachBy fineStep Together s (s.put x t.1 t.2 []) := by
  refine ha.inv (I := fun t => ReachBy fineStep Together s (s.put x t.1 t.2 [])) ?_ ?_
  · rw [FineConn.put_self]
    exact ReachBy.refl
  · rintro t f t' hi ⟨rfl, hreads⟩ he
    obtain ⟨p', hp, rfl⟩ := Option.map_eq_some_iff.1 he
    have hproc : (s.put x t.1 t.2 []).proc x = t.1 := by simp [FineConn.put]
    refine hi.tail (e := .thread x f) ?_ ?_
    · show ReadsTogether ((s.put x t.1 t.2 []).proc x) f
      rw [hproc]
      exact hreads
    · simp only [fineStep, FineConn.moved, hproc, if_pos (hm t.1), hp, Option.map_some,
        FineConn.put_put, List.append_nil]

/-! ## One step -/

theorem Resting.put (hR : Resting c s) (hh : p.host = h) (hst : p.stream = c.sent x ++ snt)
    (h1 : p.sender = .idle) (h2 : p.retrans = .idle) (h3 : p.handler = .idle) :
    Resting (c.put x h out snt rd) (s.put x p out rd) where
  host y := by
    simp only [FineConn.put, Conn.put, Function.update_apply]
    split_ifs
    · exact hh
    · exact hR.host y
  stream y := by
    simp only [FineConn.put, Conn.put, Function.update_apply]
    split_ifs
    · exact hst
    · exact hR.stream y
  sender y := by
    simp only [FineConn.put, Function.update_apply]
    split_ifs
    · exact h1
    · exact hR.sender y
  retrans y := by
    simp only [FineConn.put, Function.update_apply]
    split_ifs
    · exact h2
    · exact hR.retrans y
  handler y := by
    simp only [FineConn.put, Function.update_apply]
    split_ifs
    · exact h3
    · exact hR.handler y
  net := by
    simp only [FineConn.put, Conn.put, hR.net]
  read := by
    simp only [FineConn.put, Conn.put, hR.read]

theorem Resting.putHost (hR : Resting c s) (x : Side) (h : Host) (out : List Buf) (rd : List Byte) :
    Resting (c.put x h out [] rd) (s.putHost x h out rd) :=
  hR.put rfl (by rw [List.append_nil]; exact hR.stream x) (hR.sender x) (hR.retrans x)
    (hR.handler x)

theorem Resting.consume (hR : Resting c s) (x : Side) (pkt : Buf) (keep : Bool) :
    Resting (c.consume x pkt keep) (s.consume x pkt keep) := by
  unfold FineConn.consume Conn.consume
  split_ifs
  · exact hR
  · exact ⟨hR.host, hR.stream, hR.sender, hR.retrans, hR.handler, by rw [hR.net], hR.read⟩

theorem Resting.seeFin (hR : Resting c s) (x : Side) (b : Bool) : Resting (c.seeFin x b) s :=
  ⟨hR.host, hR.stream, hR.sender, hR.retrans, hR.handler, hR.net, hR.read⟩

/-- The cursors of a socket whose threads wait are in order. -/
theorem Resting.cursors (hR : Resting c s) (hi : FineInv s) (hS : FineShort s) (x : Side) :
    Cursors (s.proc x).host.sock := by
  have hproc := (hi.seg x).pass.proc
  have hlen : (s.proc x).sentLen = (s.proc x).host.sock.haveSendLen.toNat :=
    sentLen_idle (by rw [hR.sender x]; rfl)
  have hnn := hproc.have_nonneg
  refine (view_sendRel hproc (hS x)).cursors.congr ⟨rfl, ?_, rfl, ?_, ?_⟩
  · show (s.proc x).host.sock.haveSendLen = ((s.proc x).sentLen : ℤ)
    rw [hlen]
    omega
  · have hn := hproc.base_toNat (hS x) fun ack h => by rw [hR.handler x] at h; cases h
    have hv := view_base hproc (hS x)
    bv_omega
  · show _ = (s.proc x).sentSeq
    unfold Proc.sentSeq
    rw [hR.sender x]

theorem Resting.turns (hR : Resting c s) (hi : FineInv s) (x : Side) :
    (s.proc x).acked = (s.proc x).based := by
  have h := (hi.seg x).pass.count.turns
  rw [hR.handler x] at h
  exact h

theorem Resting.free (hR : Resting c s) (x : Side) : (s.proc x).free = true := by
  rw [Proc.free_iff, hR.sender x, hR.retrans x]
  exact ⟨rfl, rfl⟩

theorem Resting.short (hR : Resting c s) (hS : ShortAll c) : FineShort s := fun x => by
  rw [hR.stream x]
  exact hS x

/-- A packet leaves before or after the handler has done with it. -/
theorem FineConn.consume_put : ((s.put x p [] []).consume x pkt keep).put x p' [] [] =
    (s.put x p' [] []).consume x pkt keep := by
  unfold FineConn.consume
  split_ifs
  · rw [FineConn.put_put]
    rfl
  · simp only [FineConn.put, Function.update_idem, List.append_nil, Function.update_eq_self]

/-- A packet comes in. -/
theorem Resting.deliver (hR : Resting c s) (keep : Bool) {t : Host × List Buf}
    (hmem : pkt ∈ s.net x) (hawake : asleep (s.proc x).host.sock.state = false)
    (he : tjuHandlePacket now (s.proc x).host pkt = some t) :
    ∃ s', ReachBy fineStep Together s s' ∧
      Resting ((c.put x t.1 t.2 [] []).consume x pkt keep) s' := by
  have hst : (s.proc x).stream = c.sent x ++ [] := by rw [List.append_nil, hR.stream x]
  have hnet : (s.net x).contains pkt ∧ asleep (s.proc x).host.sock.state = false :=
    ⟨List.contains_iff_mem.2 hmem, hawake⟩
  by_cases hest : (s.proc x).host.sock.state = .established ∧ getFlags pkt = ackFlagMask
  · -- an ACK: it arrives, and the handler goes on alone
    obtain ⟨h, out⟩ := t
    rw [handle_ack hest.1 hest.2] at he
    obtain ⟨h', ha, hr⟩ := Option.map_eq_some_iff.1 he
    cases hr
    obtain ⟨p', dropped, acked, based, hp, hal⟩ :=
      handleAck_alone (hR.handler x) (hR.free x) hest.1 hest.2 ha
    have hproc : ((s.put x p' [] []).consume x pkt keep).proc x = p' := by
      rw [FineConn.consume_proc]
      simp [FineConn.put]
    have h1 : fineStep s (.deliver x pkt keep now) =
        some ((s.put x p' [] []).consume x pkt keep) := by
      simp only [fineStep, if_pos hnet, FineConn.moved, hp, procOut, if_pos hest, Option.map_some]
    rw [← hproc] at hal
    refine ⟨_, ReachBy.head (e := .deliver x pkt keep now) trivial h1 (hal.fine fun _ => rfl), ?_⟩
    rw [FineConn.consume_put]
    refine Resting.consume (Resting.put (h := h) hR ?_ ?_ ?_ ?_ ?_) x pkt keep
    · rfl
    · exact hst
    · exact hR.sender x
    · exact hR.retrans x
    · exact hR.handler x
  · have hp : procStep (s.proc x) (.packet now pkt) = some { s.proc x with host := t.1 } := by
      simp only [procStep, hR.handler x, if_neg hest, he, Option.map_some]
    refine ⟨_, ReachBy.one (e := .deliver x pkt keep now) trivial ?_,
      (hR.putHost x t.1 t.2 []).consume ..⟩
    simp only [fineStep, if_pos hnet, FineConn.moved, hp, procOut, if_neg hest, he, Option.map_some]
    rfl

/-- **One step.** -/
theorem resting_step {e : ConnEv} (hR : Resting c s) (hi : FineInv s) (hS : FineShort s)
    (hG : ByTimer c e) (he : connStep c e = some c') :
    ∃ s', ReachBy fineStep Together s s' ∧ Resting c' s' := by
  cases e with
  | append x data =>
    simp only [connStep, ← hR.host x] at he
    split_ifs at he with hcan
    obtain ⟨sock, ha, rfl⟩ := Option.map_eq_some_iff.1 he
    have hp : procStep (s.proc x) (.append data) = some { s.proc x with
        host := { (s.proc x).host with sock := sock }, stream := (s.proc x).stream ++ data } := by
      simp only [procStep, hR.free x, if_true, ha, Option.map_some]
    have h1 : fineStep s (.thread x (.append data)) = s.moved x (.append data) := if_pos hcan
    rw [FineConn.moved, hp] at h1
    refine ⟨_, ReachBy.one (e := .thread x (.append data)) trivial h1, ?_⟩
    exact hR.put rfl (by rw [hR.stream x]) (hR.sender x) (hR.retrans x) (hR.handler x)
  | sendPass x now =>
    cases he
    rw [← hR.host x]
    have hal : Alone (.send now) (s.proc x, []) _ :=
      sendingThread_alone (hR.sender x) (by rw [hR.retrans x]; rfl) (hR.cursors hi hS x)
    refine ⟨_, hal.fine fun _ => rfl, ?_⟩
    exact hR.putHost ..
  | retransPass x =>
    simp only [connStep, ← hR.host x] at he
    obtain ⟨⟨h, out⟩, hr, rfl⟩ := Option.map_eq_some_iff.1 he
    obtain ⟨resent, seen, hal⟩ := retransThread_alone (hR.retrans x) (by rw [hR.sender x]; rfl)
      (hR.turns hi x) (hR.cursors hi hS x) hr
    refine ⟨_, hal.fine fun _ => rfl, ?_⟩
    exact hR.put rfl (by rw [List.append_nil, hR.stream x]) (hR.sender x) (hR.retrans x)
      (hR.handler x)
  | alarm x =>
    cases he
    rw [← hR.host x]
    have htimer : (s.proc x).host.timer = true := by rw [hR.host x]; exact hG
    have hp : procStep (s.proc x) .alarm =
        some { s.proc x with host := timeoutHandler (s.proc x).host } := if_pos htimer
    have h1 : fineStep s (.thread x .alarm) = s.moved x .alarm := rfl
    rw [FineConn.moved, hp] at h1
    exact ⟨_, ReachBy.one (e := .thread x .alarm) trivial h1, hR.putHost ..⟩
  | deliver x pkt keep now =>
    simp only [connStep, ← hR.host x, ← hR.net] at he
    split_ifs at he with hnet
    obtain ⟨t, ht, rfl⟩ := Option.map_eq_some_iff.1 he
    obtain ⟨s', hs', hR'⟩ := hR.deliver keep hnet.1 hnet.2 ht
    exact ⟨s', hs', hR'.seeFin ..⟩
  | lose x pkt =>
    cases he
    exact ⟨_, ReachBy.one (e := .lose x pkt) trivial rfl, hR.consume ..⟩
  | recv x len =>
    simp only [connStep, ← hR.host x] at he
    split_ifs at he with hlen
    obtain ⟨r, hr, rfl⟩ := Option.map_eq_some_iff.1 he
    have h1 : fineStep s (.recv x len) =
        some (s.putHost x { (s.proc x).host with sock := r.1 } [] r.2) := by
      simp only [fineStep, if_pos hlen, hr, Option.map_some]
    exact ⟨_, ReachBy.one (e := .recv x len) trivial h1, hR.putHost ..⟩
  | close x =>
    simp only [connStep, ← hR.host x] at he
    obtain ⟨r, hr, rfl⟩ := Option.map_eq_some_iff.1 he
    have h1 : fineStep s (.close x) = some (s.putHost x r.1 r.2 []) := congrArg (Option.map _) hr
    exact ⟨_, ReachBy.one (e := .close x) trivial h1, hR.putHost ..⟩
  | closeRetrans x =>
    cases he
    rw [← hR.host x]
    exact ⟨_, ReachBy.one (e := .closeRetrans x) trivial rfl, hR.putHost ..⟩
  | wake x =>
    simp only [connStep, ← hR.host x] at he
    obtain ⟨r, hr, rfl⟩ := Option.map_eq_some_iff.1 he
    have h1 : fineStep s (.wake x) = some (s.putHost x r.1 r.2 []) := congrArg (Option.map _) hr
    exact ⟨_, ReachBy.one (e := .wake x) trivial h1, hR.putHost ..⟩

/-! ## Runs -/

theorem resting_start (client server : TjuSockAddr) :
    Resting (.start client server (handshake client server))
      (.start client server (handshake client server)) where
  host x := by cases x <;> rfl
  stream x := by cases x <;> rfl
  sender x := by cases x <;> rfl
  retrans x := by cases x <;> rfl
  handler x := by cases x <;> rfl
  net := rfl
  read := rfl

/-- **The passes are runs of statements.**  What a connection reaches by whole passes, with streams
    that are short and alarms of timers that are armed, the statements reach as well, and no pass of
    `retrans_thread` reads the fields of two ACKs. -/
theorem passes_are_statements (client server : TjuSockAddr)
    (hr : ReachBy connStep ByTimer (.start client server (handshake client server)) c)
    (hS : ShortAll c) :
    ∃ s, ReachBy fineStep Together (.start client server (handshake client server)) s ∧
      Resting c s := by
  let R : FineConn → Conn → Prop := fun s c => Resting c s ∧ (FineShort s → FineInv s)
  have hstart : R (.start client server (handshake client server))
      (.start client server (handshake client server)) :=
    ⟨resting_start client server, fun _ => fineInv_start client server⟩
  have hshort := hr.back (fun _ _ _ he hS => ShortAll.back hS he) hS
  obtain ⟨s, hs, hR, -⟩ := hshort.realised hstart (by
    rintro s c e c' ⟨hR, hi⟩ ⟨hG, hS⟩ he
    obtain ⟨s', hs', hR'⟩ := resting_step hR (hi (hR.short hS)) (hR.short hS) hG he
    exact ⟨s', hs', hR', fineInv_run hs' hi⟩)
  exact ⟨s, hs, hR⟩

/-- A byte is sent, and after the timeout sent again; the server takes one of the two. -/
def resentByte : List ConnEv :=
  [.append .client [7], .sendPass .client 0, .alarm .client, .retransPass .client,
    .deliver .server (dataPacket clientHost.sock 1 [7]) false 0]

theorem passes_are_statements_resent : ∃ s, ReachBy fineStep Together freshFine s ∧
    Resting ((exec connStep freshConn resentByte).getD freshConn) s :=
  passes_are_statements ⟨clientIp, 5678⟩ ⟨serverIp, 1234⟩
    (.of_along resentByte (by decide +kernel) (exec_getD (by decide +kernel) freshConn))
    (by intro x; cases x <;> decide +kernel)

end Tju
