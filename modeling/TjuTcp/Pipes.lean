/-
  What the applications see of a connection.

  The applications see the bytes that they append and the bytes that `tju_recv`
  returns.  For them a connection is two pipes, one in each direction; what is
  in a pipe lies in `sending_buf`, in flight or in `received_buf`, and is never
  more than the two buffers hold.

  * `outstanding_le`: the bytes sent and not yet read fit into the buffers;
  * `conn_simulates`: a step of the connection shows steps of the pipes, or none;
  * `conn_is_pipes`: what a run of the connection shows, under any losses,
    duplicates, timeouts and while it closes, is a run of the two pipes.
-/
import TjuTcp.Stream
import TjuTcp.Lib.Simulation
import TjuTcp.Lib.Pipe

namespace Tju

open Lib

/-- What a step shows to the applications, and of which pipe.  A pipe has the name of its writer. -/
def visible (s : Conn) : ConnEv → List (Side × PipeOp Byte)
  | .append x data => [(x, .write data)]
  | .recv x len => ((tjuRecv (s.ep x).sock len).map fun r => (x.peer, PipeOp.read r.2)).toList
  | _ => []

/-- The two buffers of a direction. -/
def pipeSize : ℕ := maxSockBufSize + maxSockBufSize

/-- What was sent and has not been read. -/
def outstanding (s : Conn) (x : Side) : List Byte := (s.sent x).drop (s.read x.peer).length

variable {s s' : Conn} {x y : Side} {e : ConnEv} {es : List ConnEv}

/-! ## The bytes on the way -/

theorem FlowAll.received_le (hf : FlowAll s) (x : Side) :
    (s.ep x.peer).sock.receivedBuf.length ≤ maxSockBufSize := by
  obtain ⟨r, h1, -, -⟩ := (hf x).recv
  rw [h1.received_length]
  exact h1.inv.room

theorem FlowAll.read_prefix (hf : FlowAll s) (hS : ShortAll s) (x : Side) :
    s.sent x = s.read x.peer ++ outstanding s x := by
  have hd := hf.delivered hS x
  have hpre : s.read x.peer <+: s.sent x :=
    (List.prefix_append _ _).trans (hd.front ▸ List.take_prefix _ _)
  exact (List.prefix_iff_eq_append.1 hpre).symm

/-- What waits to be read is in front. -/
theorem FlowAll.received_prefix (hf : FlowAll s) (hS : ShortAll s) (x : Side) :
    (s.ep x.peer).sock.receivedBuf <+: outstanding s x := by
  have hd := hf.delivered hS x
  have hpre : s.read x.peer ++ (s.ep x.peer).sock.receivedBuf <+: s.sent x :=
    hd.front ▸ List.take_prefix _ _
  rwa [hf.read_prefix hS x, List.prefix_append_right_inj] at hpre

/-- **The size of a pipe.**  What is not yet acknowledged lies in `sending_buf`, and what is
    acknowledged and not yet read in `received_buf`. -/
theorem outstanding_le (hf : FlowAll s) (hS : ShortAll s) (x : Side) :
    (outstanding s x).length ≤ pipeSize := by
  have hd := hf.delivered hS x
  have hrecv := hf.received_le x
  have hsend := (hf x).send.cursors.len_le
  have hlen := hd.length
  have hun := congrArg List.length hd.unacked
  have hbase := hd.base_le
  have hone := hd.expect
  rw [List.length_append] at hlen
  rw [List.length_drop, List.length_drop] at hun
  unfold outstanding pipeSize
  rw [List.length_drop]
  omega

/-! ## The pipes -/

/-- The connection is in order as long as its streams are short, and the pipes hold what is on the
    way. -/
structure ShowsPipes (s : Conn) (p : Side → List Byte) : Prop where
  ctl : CtlInv s
  flow : FlowAll s
  short : ShortAll s
  pipe : p = outstanding s

theorem put_quiet_sent {h : Host} {out : List Buf} : (s.put x h out [] []).sent = s.sent := by
  simp [Conn.put]

theorem put_quiet_read {h : Host} {out : List Buf} : (s.put x h out [] []).read = s.read := by
  simp [Conn.put]

/-- A step that neither appends nor reads. -/
theorem outstanding_same (hs : s'.sent = s.sent) (hr : s'.read = s.read) :
    outstanding s' = outstanding s := by
  unfold outstanding
  rw [hs, hr]

theorem outstanding_append {h : Host} {data : List Byte} (hf : FlowAll s) (hS : ShortAll s) :
    outstanding (s.put x h [] data []) =
      Function.update (outstanding s) x (outstanding s x ++ data) := by
  funext y
  rcases Side.eq_or_peer x y with rfl | rfl
  · have hle : (s.read y.peer).length ≤ (s.sent y).length := by
      rw [hf.read_prefix hS y, List.length_append]
      omega
    simp only [outstanding, Function.update_self, Conn.put_sent_self, Conn.put_read_peer]
    exact List.drop_append_of_le_length hle
  · rw [Function.update_of_ne (Side.peer_ne x)]
    simp [outstanding]

theorem outstanding_read {h : Host} {bytes : List Byte} : outstanding (s.put x h [] [] bytes) =
    Function.update (outstanding s) x.peer ((outstanding s x.peer).drop bytes.length) := by
  funext y
  rcases Side.eq_or_peer x y with rfl | rfl
  · rw [Function.update_of_ne (Side.ne_peer y)]
    simp [outstanding]
  · simp [outstanding, List.drop_drop]

/-- **One step** of the connection. -/
theorem conn_simulates : Simulates connStep (fun s e => ∀ t, connStep s e = some t → ShortAll t)
    (family (pipeStep pipeSize)) visible ShowsPipes := by
  rintro s e s' _ ⟨hi, hf, hS, rfl⟩ hshort he
  have hS' := hshort s' he
  have hf' := flowAll_step hi hf hS' he
  have hi' := ctlInv_step hi he
  -- most steps show nothing
  have hquiet : visible s e = [] → s'.sent = s.sent → s'.read = s.read →
      ∃ p, exec (family (pipeStep pipeSize)) (outstanding s) (visible s e) = some p ∧
        ShowsPipes s' p := fun hv hsent hread =>
    ⟨_, by rw [hv]; rfl, hi', hf', hS', (outstanding_same hsent hread).symm⟩
  cases connStep_move he with
  | @append x data sock _ ha =>
    have happ : outstanding (s.put x { s.ep x with sock := sock } [] data []) =
        Function.update (outstanding s) x (outstanding s x ++ data) := outstanding_append hf hS
    have hroom : (outstanding s x).length + data.length ≤ pipeSize := by
      have hle := outstanding_le hf' hS' x
      rw [happ, Function.update_self, List.length_append] at hle
      exact hle
    refine ⟨_, ?_, hi', hf', hS', rfl⟩
    rw [happ]
    simp only [visible, exec, family, pipeStep, if_pos hroom, Option.map_some, Option.bind_some]
  | @recv x len sock bytes hlen hr =>
    obtain ⟨hne, -, hbytes⟩ := tjuRecv_eq_some hr
    have hpre : bytes <+: outstanding s x.peer := by
      have hrec := hf.received_prefix hS x.peer
      rw [Side.peer_peer] at hrec
      rw [hbytes]
      exact (List.take_prefix _ _).trans hrec
    have hnil : bytes ≠ [] := by
      rw [hbytes]
      intro h
      have := congrArg List.length h
      rw [List.length_take, List.length_nil] at this
      omega
    refine ⟨_, ?_, hi', hf', hS', rfl⟩
    rw [outstanding_read]
    simp only [visible, hr, Option.map_some, Option.toList_some, exec, family, pipeStep,
      if_pos (And.intro hnil hpre), Option.bind_some]
  | deliver => exact hquiet rfl (by simp [put_quiet_sent]) (by simp [put_quiet_read])
  | lose => exact hquiet rfl (by simp) (by simp)
  | _ => exact hquiet rfl put_quiet_sent put_quiet_read

/-- The two pipes make the run `ops`, and end with `p`; so what was written to each of them is what
    was read from it, followed by what it still holds. -/
def PipesRun (ops : List (Side × PipeOp Byte)) (p : Side → List Byte) : Prop :=
  exec (family (pipeStep pipeSize)) (fun _ => []) ops = some p ∧ ∀ x,
    writtenBy (eventsOf x ops) = readBy (eventsOf x ops) ++ p x ∧ (p x).length ≤ pipeSize

theorem PipesRun.of_exec {ops : List (Side × PipeOp Byte)} {p : Side → List Byte}
    (h : exec (family (pipeStep pipeSize)) (fun _ => []) ops = some p) : PipesRun ops p :=
  ⟨h, family_pipes h⟩

/-- **A connection is two pipes.**  What the applications see of any run of a connection with short
    streams is a run of two bounded pipes, which end with what is on the way. -/
theorem conn_is_pipes (client server : TjuSockAddr)
    (he : exec connStep (.start client server (handshake client server)) es = some s)
    (hS : ShortAll s) :
    PipesRun (shown connStep visible (.start client server (handshake client server)) es)
      (outstanding s) := by
  obtain ⟨hS₀, halong⟩ := along_of_back (P := ShortAll) (fun _ _ _ he hS => hS.back he) es he hS
  have hstart : ShowsPipes (.start client server (handshake client server)) fun _ => [] :=
    ⟨ctlInv_start (handshake_not_isFin client server),
      flowAll_start (handshake_quiet client server), hS₀, rfl⟩
  obtain ⟨p, hp, hrel⟩ := conn_simulates.run es hstart halong he
  rw [hrel.pipe] at hp
  exact .of_exec hp

theorem conn_is_pipes_byte : PipesRun (shown connStep visible freshConn oneByte)
    (outstanding ((exec connStep freshConn oneByte).getD freshConn)) :=
  conn_is_pipes ⟨clientIp, 5678⟩ ⟨serverIp, 1234⟩ rfl (by intro x; cases x <;> decide)

end Tju
