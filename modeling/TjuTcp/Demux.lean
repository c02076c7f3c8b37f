/-
  The socket that a packet is handed to (src/kernel.c).

  `cal_hash` is to find "the unique socket" of a 4-tuple, but the tables keep no
  4-tuples: a socket is found if it is the one that was registered last in its
  slot.  `Process` is one process of either host with its tables, its queues and
  its sockets; `processStep` makes the calls `tju_listen`, `tju_connect`,
  `tju_accept` and `tju_close`, hands packets to the sockets, and lets these do
  what they do on their own.  The 4-tuple of a socket is read off its addresses;
  while `tju_connect` runs, the remote one is its argument.

  * `step_changes`: what a step does to the tables and to the 4-tuples;
  * `Registered`: both tables hold what is registered and nothing else
    (`Lib.Stores`), as long as every registration finds its slot free;
  * `demultiplexing`: what is found, and by which packets, in every such run;
  * `demultiplexing_hidden`: a connection that is hidden by a later one.
-/
import TjuTcp.Net
import TjuTcp.Hash
import TjuTcp.Lib.Slots

namespace Tju

open Lib

/-- What `gethostname` tells the process. -/
inductive Hostname where
  | server | client
  deriving DecidableEq, Repr

def Hostname.localIp : Hostname → BitVec 32
  | .server => serverIp
  | .client => clientIp

def Hostname.remoteIp : Hostname → BitVec 32
  | .server => clientIp
  | .client => serverIp

structure FourTuple where
  localAddr : TjuSockAddr
  remoteAddr : TjuSockAddr
  deriving DecidableEq, Repr

/-- The slot of a connection. -/
def FourTuple.slot (t : FourTuple) : ℤ :=
  calHash t.localAddr.ip t.localAddr.port t.remoteAddr.ip t.remoteAddr.port

/-- The slot of a listening socket. -/
def TjuSockAddr.slot (a : TjuSockAddr) : ℤ := calHash a.ip a.port 0 0

/-- The 4-tuple of a packet that comes in. -/
def packetTuple (host : Hostname) (pkt : Buf) : FourTuple :=
  ⟨⟨host.localIp, getDst pkt⟩, ⟨host.remoteIp, getSrc pkt⟩⟩

def TjuTcp.tuple (sock : TjuTcp) : FourTuple :=
  ⟨sock.establishedLocalAddr, sock.establishedRemoteAddr⟩

/-- `onTCPPocket` up to the call of the handler, on either host.  `none` if it reads outside of a
    table. -/
def onTcpPocketOn (host : Hostname) (k : Kernel) (pkt : Buf) : Option Target :=
  let t := packetTuple host pkt
  if InTable t.slot then
    match k.establishedSocks t.slot with
    | some n => some (.established n)
    | none =>
      if InTable t.localAddr.slot then
        match k.listenSocks t.localAddr.slot with
        | some sock => some (.listening sock)
        | none => some .dropped
      else none
  else none

/-! ## A process -/

/-- The tables, queues and sockets, the `target_addr` of the calls of `tju_connect` that have not
    returned, and the sockets on which `tju_listen` was called. -/
structure Process where
  kernel : Kernel
  connecting : ℕ → Option TjuSockAddr
  listeners : List TjuTcp

inductive ProcessEv where
  | listen (sock : TjuTcp)
  | connect (n : ℕ) (sock : TjuTcp) (port : BitVec 16) (targetAddr : TjuSockAddr)
  | connectReturn (n : ℕ)
  | accept (n : ℕ)
  | packet (pkt : Buf) (now : ℕ)
  | host (n : ℕ) (e : HostEv)
  | close (n : ℕ)

namespace Process

def start : Process := ⟨startSimulation, fun _ => none, []⟩

/-- The socket `n` goes on as `h`. -/
def putSock (p : Process) (n : ℕ) (h : Host) : Process :=
  { p with kernel := { p.kernel with socks := Function.update p.kernel.socks n (some h) } }

/-- The 4-tuple of the socket `n`. -/
def tuple (p : Process) (n : ℕ) : Option FourTuple :=
  (p.kernel.socks n).map fun h =>
    ⟨h.sock.establishedLocalAddr, (p.connecting n).getD h.sock.establishedRemoteAddr⟩

end Process

/-- One step.  The new sockets of `tju_connect` and `tju_accept` have new numbers; `tju_close` is
    called after `tju_connect` has returned. -/
def processStep (host : Hostname) (p : Process) : ProcessEv → Option Process
  | .listen sock =>
    some { p with
      kernel := tjuListen p.kernel sock
      listeners := p.listeners ++ [{ sock with state := .listen }] }
  | .connect n sock port targetAddr =>
    if (p.kernel.socks n).isNone then
      some { p with
        kernel := { p.kernel with
          establishedSocks := Function.update p.kernel.establishedSocks
            (calHash clientIp port targetAddr.ip targetAddr.port) (some n)
          socks := Function.update p.kernel.socks n
            (some (sockHost (tjuConnect sock port targetAddr).1)) }
        connecting := Function.update p.connecting n (some targetAddr) }
    else none
  | .connectReturn n =>
    match p.connecting n, p.kernel.socks n with
    | some targetAddr, some h =>
      if h.sock.state = .established then
        some { p.putSock n { h with sock := { h.sock with establishedRemoteAddr := targetAddr } } with
          connecting := Function.update p.connecting n none }
      else none
    | _, _ => none
  | .accept n =>
    if (p.kernel.socks n).isNone ∧ p.kernel.queues.acceptNum ≠ 0 then
      (tjuAccept p.kernel n).map fun r =>
        { p with kernel := r.1, connecting := Function.update p.connecting n none }
    else none
  | .packet pkt now =>
    (onTcpPocketOn host p.kernel pkt).bind fun
      | .established n => (p.kernel.socks n).bind fun h =>
        (tjuHandlePacket now h pkt).map fun r => p.putSock n r.1
      | .listening l =>
        some { p with kernel := { p.kernel with queues := (handleListen now l p.kernel.queues pkt).1 } }
      | .dropped => some p
  | .host n e =>
    if (p.connecting n).isSome ∧ e.waits then none
    else (p.kernel.socks n).bind fun h => (hostStep h e).map fun r => p.putSock n r.1
  | .close n =>
    (p.kernel.socks n).bind fun h =>
      if p.connecting n = none ∧ h.sock.state = .closed then
        some { p with kernel := closeDone p.kernel n h.sock }
      else none

/-! ## What is registered -/

/-- What a socket is registered for. -/
inductive Key where
  | conn (t : FourTuple)
  | listener (a : TjuSockAddr)

/-- What the event registers a socket for, if it does. -/
def ProcessEv.key (p : Process) : ProcessEv → Option Key
  | .listen sock => some (.listener sock.bindAddr)
  | .connect _ _ port targetAddr => some (.conn ⟨⟨clientIp, port⟩, targetAddr⟩)
  | .accept n => (tjuAccept p.kernel n).map fun r => .conn r.2.tuple
  | _ => none

namespace Process

/-- No socket is registered for this. -/
def IsNew (p : Process) : Key → Prop
  | .conn t => ∀ n, p.tuple n ≠ some t
  | .listener a => ∀ l ∈ p.listeners, l.bindAddr ≠ a

/-- The slot is an index of the table, and no registered socket belongs there. -/
def IsFree (p : Process) : Key → Prop
  | .conn t => InTable t.slot ∧ ∀ n t', p.tuple n = some t' → t'.slot ≠ t.slot
  | .listener a => InTable a.slot ∧ ∀ l ∈ p.listeners, l.bindAddr.slot ≠ a.slot

/-- The event registers a socket, if it does, for something new. -/
def OnNew (p : Process) (e : ProcessEv) : Prop := ∀ k ∈ e.key p, p.IsNew k

/-- The event registers a socket, if it does, in a free slot. -/
def OnFree (p : Process) (e : ProcessEv) : Prop := ∀ k ∈ e.key p, p.IsFree k

/-- Every registered socket is found where the kernel looks for it. -/
structure AllFound (p : Process) : Prop where
  conns : ∀ n t, p.tuple n = some t → InTable t.slot ∧ p.kernel.establishedSocks t.slot = some n
  listeners : ∀ l ∈ p.listeners,
    InTable l.bindAddr.slot ∧ p.kernel.listenSocks l.bindAddr.slot = some l

/-- The socket that a packet is to be handed to: the one with its 4-tuple, otherwise one that
    listens at its local address, otherwise none. -/
def IsFor (p : Process) (t : FourTuple) : Target → Prop
  | .established n => p.tuple n = some t
  | .listening l => p.IsNew (.conn t) ∧ l ∈ p.listeners ∧ l.bindAddr = t.localAddr
  | .dropped => p.IsNew (.conn t) ∧ p.IsNew (.listener t.localAddr)

/-- The 4-tuple shares its slot with no other one; and if no socket has this 4-tuple, its local
    address shares its slot, an index of the table, with that of no other listening socket. -/
def IsApart (p : Process) (t : FourTuple) : Prop :=
  (∀ n t', p.tuple n = some t' → t'.slot = t.slot → t' = t) ∧
    (p.IsNew (.conn t) → InTable t.localAddr.slot ∧
      ∀ l ∈ p.listeners, l.bindAddr.slot = t.localAddr.slot → l.bindAddr = t.localAddr)

end Process

variable {host : Hostname} {p p' : Process} {pkt : Buf} {h h' : Host} {out : List Buf} {n : ℕ}

/-! ## The steps -/

/-- The handler keeps the addresses of the socket. -/
theorem handle_tuple {now : ℕ} (he : tjuHandlePacket now h pkt = some (h', out)) :
    h'.sock.tuple = h.sock.tuple := by
  cases tjuHandlePacket_cases he with
  | data _ _ hd =>
    show TjuTcp.tuple _ = _
    rw [(handleData_frame hd).1]
    rfl
  | ack _ _ ha =>
    have hrest := handleAck_rest ha
    unfold TjuTcp.tuple
    rw [hrest.localAddr, hrest.remoteAddr]
  | fin | ignored | closing => rfl

/-- So does everything that the socket does on its own. -/
theorem hostStep_tuple {e : HostEv} (he : hostStep h e = some (h', out)) :
    h'.sock.tuple = h.sock.tuple := by
  unfold hostStep at he
  split_ifs at he
  cases e with
  | data d => cases he; rfl
  | send seq data => cases he; rfl
  | close => rcases tjuClose_cases he with ⟨-, hr⟩ | ⟨-, hr⟩ <;> cases hr <;> rfl
  | closeRetrans => cases he; rfl
  | wake => rcases wake_cases he with ⟨-, hr⟩ | ⟨-, hr⟩ <;> cases hr <;> rfl

namespace Process

theorem tuple_eq_none : p.tuple n = none ↔ p.kernel.socks n = none := Option.map_eq_none_iff

theorem putSock_tuple (hn : p.kernel.socks n = some h) (ht : h'.sock.tuple = h.sock.tuple) :
    (p.putSock n h').tuple = p.tuple := by
  obtain ⟨hl, hr⟩ := FourTuple.mk.inj ht
  funext m
  by_cases hm : m = n
  · subst hm
    simp only [tuple, putSock, Function.update_self, hn, Option.map_some, hl, hr]
  · simp only [tuple, putSock, Function.update_of_ne hm]

/-- What a step does to what is registered. -/
inductive Changes (p p' : Process) : Option Key → Prop
  | keeps : p'.kernel.establishedSocks = p.kernel.establishedSocks →
      p'.kernel.listenSocks = p.kernel.listenSocks → p'.tuple = p.tuple →
      p'.listeners = p.listeners → Changes p p' none
  | registers (n : ℕ) (t : FourTuple) : p.tuple n = none →
      p'.kernel.establishedSocks = Function.update p.kernel.establishedSocks t.slot (some n) →
      p'.kernel.listenSocks = p.kernel.listenSocks → p'.tuple = Function.update p.tuple n (some t) →
      p'.listeners = p.listeners → Changes p p' (some (.conn t))
  | listens (l : TjuTcp) : p'.kernel.establishedSocks = p.kernel.establishedSocks →
      p'.kernel.listenSocks = Function.update p.kernel.listenSocks l.bindAddr.slot (some l) →
      p'.tuple = p.tuple → p'.listeners = p.listeners ++ [l] →
      Changes p p' (some (.listener l.bindAddr))
  | removes (n : ℕ) (t : FourTuple) : p.tuple n = some t →
      p'.kernel.establishedSocks = Function.update p.kernel.establishedSocks t.slot none →
      p'.kernel.listenSocks = p.kernel.listenSocks → p'.tuple = Function.update p.tuple n none →
      p'.listeners = p.listeners → Changes p p' none

/-- The 4-tuples after the socket `n` is new, or gone. -/
theorem tuple_update {x : Option Host} {a : Option TjuSockAddr} {t : Option FourTuple}
    (hs : p'.kernel.socks = Function.update p.kernel.socks n x)
    (hc : p'.connecting = Function.update p.connecting n a)
    (ht : x.map (fun h => ⟨h.sock.establishedLocalAddr, a.getD h.sock.establishedRemoteAddr⟩) = t) :
    p'.tuple = Function.update p.tuple n t := by
  funext m
  by_cases hm : m = n
  · subst hm
    simp only [tuple, hs, hc, Function.update_self, ht]
  · simp only [tuple, hs, hc, Function.update_of_ne hm]

end Process

open Process

theorem step_changes {e : ProcessEv} (he : processStep host p e = some p') :
    Changes p p' (e.key p) := by
  cases e with
  | listen sock =>
    cases he
    exact .listens { sock with state := .listen } rfl rfl rfl rfl
  | connect n sock port targetAddr =>
    simp only [processStep] at he
    split_ifs at he with hn
    cases he
    exact .registers n _ (tuple_eq_none.2 (Option.isNone_iff_eq_none.1 hn)) rfl rfl
      (tuple_update rfl rfl rfl) rfl
  | connectReturn n =>
    simp only [processStep] at he
    split at he
    · next targetAddr h hc hn =>
      split_ifs at he
      cases he
      have htuple : p.tuple n = some ⟨h.sock.establishedLocalAddr, targetAddr⟩ := by
        simp only [tuple, hn, hc, Option.map_some, Option.getD_some]
      refine .keeps rfl rfl ((tuple_update rfl rfl rfl).trans ?_) rfl
      exact Function.update_eq_self_iff.2 htuple.symm
    · cases he
  | accept n =>
    simp only [processStep] at he
    split_ifs at he with hn
    obtain ⟨⟨k, sock⟩, ha, hr⟩ := Option.map_eq_some_iff.1 he
    cases hr
    simp only [ProcessEv.key, ha, Option.map_some]
    unfold tjuAccept at ha
    split at ha
    · cases ha
      exact .registers n _ (tuple_eq_none.2 (Option.isNone_iff_eq_none.1 hn.1)) rfl rfl
        (tuple_update rfl rfl rfl) rfl
    · cases ha
  | packet pkt now =>
    obtain ⟨t, ht, he⟩ := Option.bind_eq_some_iff.1 he
    cases t with
    | established n =>
      obtain ⟨h, hn, he⟩ := Option.bind_eq_some_iff.1 he
      obtain ⟨⟨h', out⟩, hh, hr⟩ := Option.map_eq_some_iff.1 he
      cases hr
      exact .keeps rfl rfl (putSock_tuple hn (handle_tuple hh)) rfl
    | listening l =>
      cases he
      exact .keeps rfl rfl rfl rfl
    | dropped =>
      cases he
      exact .keeps rfl rfl rfl rfl
  | host n e =>
    simp only [processStep] at he
    split_ifs at he
    obtain ⟨h, hn, he⟩ := Option.bind_eq_some_iff.1 he
    obtain ⟨⟨h', out⟩, hh, hr⟩ := Option.map_eq_some_iff.1 he
    cases hr
    exact .keeps rfl rfl (putSock_tuple hn (hostStep_tuple hh)) rfl
  | close n =>
    obtain ⟨h, hn, he⟩ := Option.bind_eq_some_iff.1 he
    split_ifs at he with hc
    cases he
    refine .removes n h.sock.tuple ?_ rfl rfl ?_ rfl
    · simp only [tuple, hn, hc.1, Option.map_some, Option.getD_none]
      rfl
    · exact tuple_update rfl (Function.update_eq_self_iff.2 hc.1.symm).symm rfl

/-! ## What is found -/

/-- Both tables hold what is registered, at indices of the tables, and nothing else. -/
structure Registered (p : Process) : Prop where
  conns : Stores FourTuple.slot p.kernel.establishedSocks fun n t => p.tuple n = some t
  listeners : Stores TjuSockAddr.slot p.kernel.listenSocks fun l a => l ∈ p.listeners ∧ l.bindAddr = a
  connSlots : ∀ n t, p.tuple n = some t → InTable t.slot
  listenerSlots : ∀ l ∈ p.listeners, InTable l.bindAddr.slot

theorem registered_start : Registered start where
  conns := (Stores.empty _).congr fun n t => ⟨fun h => Option.some_ne_none _ h.symm, False.elim⟩
  listeners := (Stores.empty _).congr fun l a => ⟨fun h => List.not_mem_nil h.1, False.elim⟩
  connSlots n t h := by cases h
  listenerSlots l h := by cases h

theorem Registered.allFound (h : Registered p) : AllFound p where
  conns n t hn := ⟨h.connSlots n t hn, h.conns.found n t hn⟩
  listeners l hl := ⟨h.listenerSlots l hl, h.listeners.found l _ ⟨hl, rfl⟩⟩

/-- The live values of the two tables, when one more is registered, and when one is gone. -/
theorem tuple_update_some {f : ℕ → Option FourTuple} {t : FourTuple} (hn : f n = none) (m : ℕ)
    (t' : FourTuple) : Function.update f n (some t) m = some t' ↔
      withLive (fun n t => f n = some t) n t m t' := by
  unfold withLive
  by_cases hm : m = n
  · subst hm
    simp [hn, eq_comm]
  · rw [Function.update_of_ne hm]
    simp [hm]

theorem tuple_update_none {f : ℕ → Option FourTuple} (m : ℕ) (t' : FourTuple) :
    Function.update f n none m = some t' ↔ withoutLive (fun n t => f n = some t) n m t' := by
  unfold withoutLive
  by_cases hm : m = n
  · subst hm
    simp
  · rw [Function.update_of_ne hm]
    simp [hm]

theorem listeners_append {ls : List TjuTcp} {l : TjuTcp} (l' : TjuTcp) (a : TjuSockAddr) :
    (l' ∈ ls ++ [l] ∧ l'.bindAddr = a) ↔
      withLive (fun l a => l ∈ ls ∧ l.bindAddr = a) l l.bindAddr l' a := by
  unfold withLive
  rw [List.mem_append, List.mem_singleton]
  constructor
  · rintro ⟨hl | rfl, rfl⟩
    · exact Or.inl ⟨hl, rfl⟩
    · exact Or.inr ⟨rfl, rfl⟩
  · rintro (⟨hl, rfl⟩ | ⟨rfl, rfl⟩)
    · exact ⟨Or.inl hl, rfl⟩
    · exact ⟨Or.inr rfl, rfl⟩

/-- A registration in a free slot, and every other step, keeps the tables right. -/
theorem Registered.changes {key : Option Key} (h : Registered p) (hc : Changes p p' key)
    (hfree : ∀ k ∈ key, p.IsFree k) : Registered p' := by
  cases hc with
  | keeps he hl ht hls =>
    refine ⟨?_, ?_, ?_, ?_⟩
    · rw [he, ht]; exact h.conns
    · rw [hl, hls]; exact h.listeners
    · rw [ht]; exact h.connSlots
    · rw [hls]; exact h.listenerSlots
  | registers n t hn he hl ht hls =>
    obtain ⟨hin, hslot⟩ := hfree _ rfl
    refine ⟨?_, ?_, ?_, ?_⟩
    · rw [he, ht]
      exact (h.conns.insert (fun t' h' => by rw [hn] at h'; cases h') hslot).congr
        (tuple_update_some hn)
    · rw [hl, hls]; exact h.listeners
    · intro m t' hm
      rw [ht, tuple_update_some hn] at hm
      rcases hm with hm | ⟨-, rfl⟩
      · exact h.connSlots m t' hm
      · exact hin
    · rw [hls]; exact h.listenerSlots
  | listens l he hl ht hls =>
    obtain ⟨hin, hslot⟩ := hfree _ rfl
    refine ⟨?_, ?_, ?_, ?_⟩
    · rw [he, ht]; exact h.conns
    · rw [hl, hls]
      refine (h.listeners.insert (k := l.bindAddr) ?_ ?_).congr listeners_append
      · rintro a ⟨hmem, -⟩
        exact hslot l hmem rfl
      · rintro l' a ⟨hmem, rfl⟩
        exact hslot l' hmem
    · rw [ht]; exact h.connSlots
    · intro l' hmem
      rw [hls, List.mem_append, List.mem_singleton] at hmem
      rcases hmem with hmem | rfl
      · exact h.listenerSlots l' hmem
      · exact hin
  | removes n t hn he hl ht hls =>
    refine ⟨?_, ?_, ?_, ?_⟩
    · rw [he, ht]
      exact (h.conns.remove hn).congr tuple_update_none
    · rw [hl, hls]; exact h.listeners
    · intro m t' hm
      rw [ht, tuple_update_none] at hm
      exact h.connSlots m t' hm.1
    · rw [hls]; exact h.listenerSlots

/-- **A registration for something new hides nothing** exactly if its slot is free. -/
theorem Registered.allFound_iff {key : Option Key} (h : Registered p) (hc : Changes p p' key)
    (hnew : ∀ k ∈ key, p.IsNew k) : AllFound p' ↔ ∀ k ∈ key, p.IsFree k := by
  refine ⟨fun hf k hk => ?_, fun hfree => (h.changes hc hfree).allFound⟩
  cases hc with
  | keeps => cases hk
  | removes => cases hk
  | registers n t hn he hl ht hls =>
    cases hk
    have hlive : ∀ m t', withLive (fun n t => p.tuple n = some t) n t m t' →
        p'.tuple m = some t' := fun m t' hm => by rw [ht]; exact (tuple_update_some hn m t').2 hm
    refine ⟨(hf.conns n t (hlive n t (Or.inr ⟨rfl, rfl⟩))).1, ?_⟩
    have hno : ∀ t', p.tuple n ≠ some t' := fun t' h' => by rw [hn] at h'; cases h'
    refine (h.conns.found_insert_iff hno).1 fun m t' hm => ?_
    rw [← he]
    exact (hf.conns m t' (hlive m t' hm)).2
  | listens l he hl ht hls =>
    cases hk
    have hmem : ∀ l' a, withLive (fun l a => l ∈ p.listeners ∧ l.bindAddr = a) l l.bindAddr l' a →
        l' ∈ p'.listeners ∧ l'.bindAddr = a := fun l' a hm => by
      rw [hls]; exact (listeners_append l' a).2 hm
    refine ⟨(hf.listeners l (hmem l _ (Or.inr ⟨rfl, rfl⟩)).1).1, fun l' hl' => ?_⟩
    have hno : ∀ a, ¬ (l ∈ p.listeners ∧ l.bindAddr = a) := fun a ha => hnew _ rfl l ha.1 rfl
    refine (h.listeners.found_insert_iff hno).1 (fun l'' a hm => ?_) l' _ ⟨hl', rfl⟩
    obtain ⟨h1, rfl⟩ := hmem l'' a hm
    rw [← hl]
    exact (hf.listeners l'' h1).2

theorem registered_reach (h : ReachBy (processStep host) OnFree start p) : Registered p :=
  h.inv registered_start fun _ _ _ hr hG he => hr.changes (step_changes he) hG

/-! ## Which packets find their socket -/

/-- The slot of a packet's 4-tuple is an index, on both hosts. -/
theorem packetTuple_inTable (host : Hostname) (pkt : Buf) : InTable (packetTuple host pkt).slot := by
  obtain ⟨hs, hc⟩ := calHash_connection (getDst pkt) (getSrc pkt)
  have hslot : (packetTuple host pkt).slot =
      ((5 + (getDst pkt).toNat + (getSrc pkt).toNat) % 32 : ℕ) := by
    cases host with
    | server => exact hs
    | client => exact hc
  rw [hslot]
  constructor <;> simp <;> omega

/-- The search, as the index of a connection is never outside of its table. -/
theorem onTcpPocketOn_eq (host : Hostname) (k : Kernel) (pkt : Buf) : onTcpPocketOn host k pkt =
    match k.establishedSocks (packetTuple host pkt).slot with
    | some n => some (.established n)
    | none =>
      if InTable (packetTuple host pkt).localAddr.slot then
        match k.listenSocks (packetTuple host pkt).localAddr.slot with
        | some sock => some (.listening sock)
        | none => some .dropped
      else none := by
  unfold onTcpPocketOn
  exact if_pos (packetTuple_inTable host pkt)

/-- Where no connection answers, the search among the listening sockets is right exactly if none of
    another address belongs in the slot. -/
theorem Registered.listening_iff (h : Registered p) {t : FourTuple} (hnew : p.IsNew (.conn t)) :
    (∃ r, (match p.kernel.listenSocks t.localAddr.slot with
        | some sock => some (.listening sock)
        | none => some Target.dropped) = some r ∧ p.IsFor t r) ↔
      ∀ l ∈ p.listeners, l.bindAddr.slot = t.localAddr.slot → l.bindAddr = t.localAddr := by
  cases hl : p.kernel.listenSocks t.localAddr.slot with
  | some l =>
    obtain ⟨a, ⟨hmem, rfl⟩, hslot⟩ := (h.listeners.slot t.localAddr.slot l).1 hl
    constructor
    · rintro ⟨_, hr, hfor⟩ l' hmem' hslot'
      cases hr
      have hll : l' = l := h.listeners.unique ⟨hmem', rfl⟩ ⟨hmem, rfl⟩ (hslot'.trans hslot.symm)
      rw [hll]
      exact hfor.2.2
    · exact fun hap => ⟨_, rfl, hnew, hmem, hap l hmem hslot⟩
  | none =>
    have hno : ∀ l ∈ p.listeners, l.bindAddr.slot ≠ t.localAddr.slot := fun l hmem hs => by
      rw [← hs, h.listeners.found l _ ⟨hmem, rfl⟩] at hl
      cases hl
    constructor
    · exact fun _ l hmem hs => absurd hs (hno l hmem)
    · exact fun _ => ⟨_, rfl, hnew, fun l hmem ha => hno l hmem (congrArg TjuSockAddr.slot ha)⟩

/-- **A packet is handed to the socket it is for** exactly if its 4-tuple is apart from those of
    the other sockets. -/
theorem Registered.handed_iff (h : Registered p) (host : Hostname) (pkt : Buf) :
    (∃ r, onTcpPocketOn host p.kernel pkt = some r ∧ p.IsFor (packetTuple host pkt) r) ↔
      p.IsApart (packetTuple host pkt) := by
  rw [onTcpPocketOn_eq]
  generalize packetTuple host pkt = t
  cases he : p.kernel.establishedSocks t.slot with
  | some n =>
    obtain ⟨t', hn, hslot⟩ := (h.conns.slot t.slot n).1 he
    constructor
    · rintro ⟨_, hr, hfor⟩
      cases hr
      refine ⟨fun m t₂ hm hs => ?_, fun hnew => absurd hfor (hnew n)⟩
      obtain rfl : m = n := h.conns.unique hm hfor hs
      exact h.conns.key m t₂ t hm hfor
    · rintro ⟨hap, -⟩
      exact ⟨_, rfl, hap n t' hn hslot ▸ hn⟩
  | none =>
    have hno : ∀ n t', p.tuple n = some t' → t'.slot ≠ t.slot := fun n t' hn hs => by
      rw [← hs, h.conns.found n t' hn] at he
      cases he
    have hnew : p.IsNew (.conn t) := fun n hn => hno n t hn rfl
    by_cases hin : InTable t.localAddr.slot
    · simp only [if_pos hin]
      rw [h.listening_iff hnew]
      exact ⟨fun hap => ⟨fun n t' hn hs => absurd hs (hno n t' hn), fun _ => ⟨hin, hap⟩⟩,
        fun hap => (hap.2 hnew).2⟩
    · simp only [if_neg hin]
      constructor
      · rintro ⟨_, hr, -⟩
        cases hr
      · exact fun hap => absurd (hap.2 hnew).1 hin

/-- **Demultiplexing**: in every run whose registrations all find their slot free, every
    registered socket is found; a packet is handed to the socket that has its 4-tuple, otherwise to
    one that listens at its local address, otherwise dropped, exactly if its 4-tuple is apart from
    those of the other sockets; and a next step on new 4-tuples leaves every registered socket
    where it is found exactly if it registers none, or one in a free slot. -/
theorem demultiplexing (host : Hostname) {p : Process}
    (h : ReachBy (processStep host) OnFree start p) :
    AllFound p ∧
      (∀ pkt, (∃ r, onTcpPocketOn host p.kernel pkt = some r ∧ p.IsFor (packetTuple host pkt) r) ↔
        p.IsApart (packetTuple host pkt)) ∧
      ∀ e p', p.OnNew e → processStep host p e = some p' → (AllFound p' ↔ p.OnFree e) := by
  have hr := registered_reach h
  exact ⟨hr.allFound, hr.handed_iff host, fun e p' hnew he => hr.allFound_iff (step_changes he) hnew⟩

/-- A client that connects from its port to one port of the server. -/
def firstConnect : List ProcessEv :=
  [.connect 0 tjuSocket 5678 ⟨serverIp, 1245⟩, .packet (synAckPacket (synPacket 5678 1245)) 0,
    .connectReturn 0]

/-- Only the socket 0 has a 4-tuple then. -/
theorem firstConnect_tuple {p : Process} {n : ℕ} {t : FourTuple}
    (h : exec (processStep .client) start firstConnect = some p) (hn : p.tuple n = some t) :
    t = ⟨⟨clientIp, 5678⟩, ⟨serverIp, 1245⟩⟩ := by
  have hother : ∀ n, (exec (processStep .client) start firstConnect).bind
      (fun p => p.tuple (n + 1)) = none := fun n => rfl
  cases n with
  | zero =>
    have hself : (exec (processStep .client) start firstConnect).bind
      (fun p => p.tuple 0) = some ⟨⟨clientIp, 5678⟩, ⟨serverIp, 1245⟩⟩ := by decide
    rw [h, Option.bind_some, hn] at hself
    exact Option.some.inj hself
  | succ n =>
    have hnone := hother n
    rw [h, Option.bind_some, hn] at hnone
    cases hnone

/-- A second connection, to the next port of the server. -/
def apartConnects : List ProcessEv :=
  firstConnect ++ [.connect 1 tjuSocket 5678 ⟨serverIp, 1246⟩,
    .packet (synAckPacket (synPacket 5678 1246)) 0, .connectReturn 1]

theorem apartConnects_onFree : Along (processStep .client) OnFree start apartConnects := by
  refine ⟨?_, fun p₁ h₁ => ⟨?_, fun p₂ h₂ => ⟨?_, fun p₃ h₃ => ⟨?_, fun p₄ _ => ⟨?_, fun p₅ _ =>
    ⟨?_, fun _ _ => trivial⟩⟩⟩⟩⟩⟩
  · rintro _ ⟨⟩
    exact ⟨by decide, fun n t hn => by cases hn⟩
  · rintro _ ⟨⟩
  · rintro _ ⟨⟩
  · have hrun : exec (processStep .client) start firstConnect = some p₃ := by
      simp only [firstConnect, exec, h₁, h₂, h₃, Option.bind_some]
    rintro _ ⟨⟩
    refine ⟨by decide, fun n t hn => ?_⟩
    rw [firstConnect_tuple hrun hn]
    decide
  · rintro _ ⟨⟩
  · rintro _ ⟨⟩

/-- The two connections are in two slots. -/
theorem demultiplexing_apart : ∃ p, exec (processStep .client) start apartConnects = some p ∧
    AllFound p ∧
    (∀ pkt, (∃ r, onTcpPocketOn .client p.kernel pkt = some r ∧
        p.IsFor (packetTuple .client pkt) r) ↔ p.IsApart (packetTuple .client pkt)) ∧
    ∀ e p', p.OnNew e → processStep .client p e = some p' → (AllFound p' ↔ p.OnFree e) :=
  ⟨_, rfl, demultiplexing .client (ReachBy.of_along apartConnects apartConnects_onFree rfl)⟩

/-- A client that connects from its port to two ports of the server that are 32 apart. -/
def twoConnects : List ProcessEv :=
  [.connect 0 tjuSocket 5678 ⟨serverIp, 1245⟩, .packet (synAckPacket (synPacket 5678 1245)) 0,
    .connectReturn 0, .connect 1 tjuSocket 5678 ⟨serverIp, 1277⟩]

theorem twoConnects_onNew : Along (processStep .client) OnNew start twoConnects := by
  refine ⟨?_, fun p₁ h₁ => ⟨?_, fun p₂ h₂ => ⟨?_, fun p₃ h₃ => ⟨?_, fun _ _ => trivial⟩⟩⟩⟩
  · rintro _ ⟨⟩ n hn
    cases hn
  · rintro _ ⟨⟩
  · rintro _ ⟨⟩
  · have hrun : exec (processStep .client) start firstConnect = some p₃ := by
      simp only [firstConnect, exec, h₁, h₂, h₃, Option.bind_some]
    rintro _ ⟨⟩ n hn
    exact absurd (firstConnect_tuple hrun hn) (by decide)

/-- **A hidden connection.**  The second connection takes the slot of the first one, which is
    established; the packets of the first one are handed to the socket of the second. -/
theorem demultiplexing_hidden : ∃ p pkt, ReachBy (processStep .client) OnNew start p ∧
    p.tuple 0 = some ⟨⟨clientIp, 5678⟩, ⟨serverIp, 1245⟩⟩ ∧
    p.tuple 1 = some ⟨⟨clientIp, 5678⟩, ⟨serverIp, 1277⟩⟩ ∧
    packetTuple .client pkt = ⟨⟨clientIp, 5678⟩, ⟨serverIp, 1245⟩⟩ ∧
    (∃ r, onTcpPocketOn .client p.kernel pkt = some r ∧ ¬ p.IsFor (packetTuple .client pkt) r) ∧
    ¬ AllFound p := by
  obtain ⟨p, hp⟩ : ∃ p, exec (processStep .client) start twoConnects = some p := ⟨_, rfl⟩
  have h0 : (exec (processStep .client) start twoConnects).bind (fun p => p.tuple 0) =
      some ⟨⟨clientIp, 5678⟩, ⟨serverIp, 1245⟩⟩ := by decide
  have h1 : (exec (processStep .client) start twoConnects).bind (fun p => p.tuple 1) =
      some ⟨⟨clientIp, 5678⟩, ⟨serverIp, 1277⟩⟩ := by decide
  have hslot : (exec (processStep .client) start twoConnects).bind
      (fun p => p.kernel.establishedSocks 16) = some 1 := by decide
  rw [hp, Option.bind_some] at h0 h1 hslot
  let pkt := dataPacket (establishedHost ⟨serverIp, 1245⟩ ⟨clientIp, 5678⟩).sock 1 [104]
  have htuple : packetTuple .client pkt = ⟨⟨clientIp, 5678⟩, ⟨serverIp, 1245⟩⟩ := by decide
  have h16 : (packetTuple .client pkt).slot = 16 := by rw [htuple]; decide
  refine ⟨p, pkt, ReachBy.of_along twoConnects twoConnects_onNew hp, h0, h1, htuple,
    ⟨.established 1, ?_, ?_⟩, fun hf => ?_⟩
  · rw [onTcpPocketOn_eq, h16, hslot]
  · intro hfor
    rw [htuple] at hfor
    exact absurd (h1.symm.trans hfor) (by decide)
  · have hfound := (hf.conns 0 _ h0).2
    have h16' : FourTuple.slot ⟨⟨clientIp, 5678⟩, ⟨serverIp, 1245⟩⟩ = 16 := by decide
    rw [h16', hslot] at hfound
    exact absurd hfound (by decide)

end Tju
