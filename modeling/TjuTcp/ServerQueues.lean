/-
  The queues of the server among its clients.

  The queues of the server change only by the operations of `syn.c`, in every
  run of the server and its clients (`net_queues`), so that what is known about
  sequences of operations holds there.

  * `server_counted`: both numbers are right;
  * `accept_drains`: calls of `tju_accept` in a row return what is in the queue.
-/
import TjuTcp.Accept
import TjuTcp.Acceptors
import TjuTcp.SynRetrans
import TjuTcp.Lib.Simulation

namespace Tju

open Lib

/-- The queues are reached by these operations, and all listening sockets are on the server. -/
structure ServerQueues (s : Net) : Prop where
  reach : ReachBy queueStep ServerOps initQueue s.server.queues
  listeners : ∀ i l, s.server.listenSocks i = some l → l.bindAddr.ip = serverIp

variable {s s' : Net} {e : NetEv} {q : Queues} {k : Kernel × TjuTcp} {n : ℕ}

theorem others_expires {f : QueueEv} (h : Others q f) : f.expires q = false := by
  cases f with
  | synRetrans => exact h.elim
  | _ => rfl

theorem tjuAccept_kernel {server : Kernel} (h : tjuAccept server n = some k) :
    k.1.listenSocks = server.listenSocks ∧ k.1.queues = (getFromAccept server.queues).1 := by
  unfold tjuAccept at h
  split at h
  · next hq =>
    cases h
    exact ⟨rfl, by rw [hq]⟩
  · cases h

/-- No step registers a listening socket. -/
theorem netStep_listenSocks (he : netStep s e = some s') :
    s'.server.listenSocks = s.server.listenSocks := by
  cases netStep_move he with
  | clientHandles => rw [Net.dropToClient_server]; rfl
  | clientDrops => rw [Net.dropToClient_server]
  | serverHandles => rw [Net.dropToServer_server]; rfl
  | listens => rw [Net.dropToServer_server]; rfl
  | serverDrops => rw [Net.dropToServer_server]
  | accept _ hr => exact (tjuAccept_kernel hr).1
  | _ => rfl

theorem ServerQueues.step (h : ServerQueues s) (he : netStep s e = some s') : ServerQueues s' where
  reach := by
    rcases netStep_queueView he with hv | ⟨a, pkt, keep, now, l, rfl, -, hl, hv⟩ | rfl
    · have hq : s'.server.queues = s.server.queues := congrArg Prod.fst hv
      rw [hq]
      exact h.reach
    · have hq : s'.server.queues = (handleListen now l s.server.queues pkt).1 :=
        congrArg Prod.fst hv
      have hip : l.bindAddr.ip = serverIp := by
        unfold onTcpPocket at hl
        split at hl
        · cases hl
        · split at hl
          · next hsock =>
            cases hl
            exact h.listeners _ _ hsock
          · cases hl
      rw [hq]
      exact h.reach.trans (handleListen_reach hip (.of_reach h.reach) now pkt)
    · simp only [netStep] at he
      split_ifs at he
      obtain ⟨r, hr, rfl⟩ := Option.map_eq_some_iff.1 he
      have hget : queueStep s.server.queues .getFromAccept =
          some (getFromAccept s.server.queues).1 := rfl
      simp only [(tjuAccept_kernel hr).2]
      refine h.reach.tail ?_ hget
      exact ⟨trivial, trivial⟩
  listeners := by
    rw [netStep_listenSocks he]
    exact h.listeners

/-- **The queues of the server** are reached by operations of `syn.c`. -/
theorem net_queues {port : BitVec 16} (h : Reach netStep (.start ⟨serverIp, port⟩) s) :
    ServerQueues s := by
  refine h.inv ⟨ReachBy.refl, fun i l hl => ?_⟩ fun _ _ _ hi _ he => hi.step he
  rcases update_eq_some hl with ⟨-, rfl⟩ | ⟨-, hl⟩
  · rfl
  · cases hl

/-- **The numbers of elements** are right in every run of the server and its clients. -/
theorem server_counted {port : BitVec 16} (h : Reach netStep (.start ⟨serverIp, port⟩) s) :
    Counted s.server.queues := by
  have htallied : Tallied 0 s.server.queues := by
    refine (net_queues h).reach.inv tallied_init fun q e q' hq hG he => ?_
    have hstep := hq.step he
    rw [others_expires hG.1] at hstep
    exact hstep
  exact htallied.counted_iff.2 (Nat.dvd_zero _)

/-! ## The calls of `tju_accept` -/

/-- The sockets that lie in the accept queue, in the order of their slots. -/
def Queues.waiting (q : Queues) : List TjuTcp :=
  (List.range maxSock).filterMap fun i : ℕ => q.acceptQueue i

/-- `m` calls of `tju_accept`, one after the other, none of which waits; the sockets get the numbers
    from `n` on. -/
def acceptMany (n : ℕ) : ℕ → Kernel → Option (Kernel × List TjuTcp)
  | 0, k => some (k, [])
  | m + 1, k => do
    if k.queues.acceptNum = 0 then none
    let (k', sock) ← tjuAccept k n
    let (k'', socks) ← acceptMany (n + 1) m k'
    some (k'', sock :: socks)

/-- What is left in the queue when the first socket is taken out. -/
theorem waiting_cons {i : ℕ} {sock : TjuTcp} {q' : Queues} (hf : firstAccept q = some i)
    (hs : q.acceptQueue i = some sock)
    (hq : q'.acceptQueue = Function.update q.acceptQueue i none) :
    q.waiting = sock :: q'.waiting := by
  have hcast : (fun j : ℕ => q'.acceptQueue j) =
      Function.update (fun j : ℕ => q.acceptQueue j) i none := by
    rw [hq]
    exact Function.update_comp_eq_of_injective q.acceptQueue Nat.cast_injective i none
  unfold Queues.waiting
  rw [hcast]
  exact filterMap_clear List.nodup_range hf hs

theorem waiting_nil (h : filled slots q.acceptQueue = 0) : q.waiting = [] := by
  refine List.filterMap_eq_nil_iff.2 fun i hi => ?_
  refine filled_eq_zero_iff.1 h i (mem_slots.2 ⟨Int.natCast_nonneg i, ?_⟩)
  exact_mod_cast List.mem_range.1 hi

/-- As many calls as there are sockets empty the queue. -/
theorem acceptMany_spec {m : ℕ} {server : Kernel} (hm : server.queues.acceptNum.toNat = m)
    (hfill : filled slots server.queues.acceptQueue = m) :
    ∃ k', acceptMany n m server = some (k', server.queues.waiting) ∧ k'.queues.acceptNum = 0 ∧
      k'.queues.waiting = [] := by
  induction m generalizing server n with
  | zero =>
    refine ⟨server, ?_, BitVec.eq_of_toNat_eq hm, waiting_nil hfill⟩
    rw [waiting_nil hfill]
    rfl
  | succ m ih =>
    rcases tjuAccept_cases server n with ⟨-, hz⟩ | ⟨i, sock, k, hf, hi, hs, hk, hq⟩
    · omega
    · have hqueue : k.queues.acceptQueue = Function.update server.queues.acceptQueue i none := by
        rw [hq]
      have hnum : k.queues.acceptNum.toNat = m := by
        rw [hq]
        show (server.queues.acceptNum - 1).toNat = m
        bv_omega
      have hrest : filled slots k.queues.acceptQueue = m := by
        have hclear := filled_clear (mem_slots.2 hi)
          (show (server.queues.acceptQueue i).isSome by rw [hs]; rfl)
        rw [← hqueue] at hclear
        omega
      obtain ⟨k', hmany, hnum', hnil⟩ := ih (n := n + 1) hnum hrest
      refine ⟨k', ?_, hnum', hnil⟩
      have hne : server.queues.acceptNum ≠ 0 := fun h => by
        rw [h] at hm
        cases hm
      simp only [acceptMany, if_neg hne, hk, Option.bind_eq_bind, Option.bind_some, hmany,
        waiting_cons hf hs hqueue]

/-- **The accept queue is emptied in the order of its slots.**  In every run of the server and its
    clients, `accept_num` calls of `tju_accept` in a row return, with the sockets of the queue in
    the order of their slots; then the queue is empty, and the next call waits. -/
theorem accept_drains {port : BitVec 16} (h : Reach netStep (.start ⟨serverIp, port⟩) s) (n : ℕ) :
    ∃ k', acceptMany n s.server.queues.acceptNum.toNat s.server =
        some (k', s.server.queues.waiting) ∧ k'.queues.acceptNum = 0 ∧ k'.queues.waiting = [] :=
  acceptMany_spec rfl (server_counted h).accept.symm

/-- Two clients connect; the slot of the second one stands in front of that of the first one. -/
def twoWait : List NetEv :=
  (handshakeRun 5679).take 4 ++ (handshakeRun 5678).take 4

/-- The server after `twoWait`. -/
def queuedTwo : Net := (exec netStep (.start serverAddr) twoWait).getD (.start serverAddr)

theorem accept_drains_two :
    queuedTwo.server.queues.waiting.map (fun sock => sock.establishedRemoteAddr.port) =
      [5678, 5679] ∧
    ∃ k', acceptMany 0 queuedTwo.server.queues.acceptNum.toNat queuedTwo.server =
        some (k', queuedTwo.server.queues.waiting) ∧ k'.queues.acceptNum = 0 ∧
      k'.queues.waiting = [] := by
  have hrun : exec netStep (.start serverAddr) twoWait = some queuedTwo :=
    exec_getD (by decide +kernel) (.start serverAddr)
  have hr : Reach netStep (.start ⟨serverIp, 1234⟩) queuedTwo := .of_exec twoWait hrun
  exact ⟨by decide +kernel, accept_drains hr 0⟩

end Tju
