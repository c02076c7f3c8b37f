/-
  Threads that call `tju_accept` at the same time (src/syn.c, src/tju_tcp.c).

  `get_from_accept` waits for `accept_num` outside of its lock, and looks for a
  socket under it.  Any number of callers take these two steps in any order,
  and `en_accept_queue` is one step between them.  A caller that finds no socket
  ends the process.  The calls of `en_accept_queue` are numbered, so that
  sockets with the same contents are told apart: `storedBy` is the call that has
  filled a slot.

  * `acceptorStep_move`: what a step can do;
  * `accept_always_iff`: no caller fails in a run exactly if `accept_num` is not 0
    at any search, and what one call has stored is returned once in any run;
  * `accept_reserved`: no caller fails if fewer callers than sockets are let
    through the test, in particular if they come one at a time.
-/
import TjuTcp.Kernel
import TjuTcp.Counters
import TjuTcp.Lib.Handout

namespace Tju

open Lib

/-! ## Runs -/

/-- A socket that `tju_accept` has returned: to whom, and which call of `en_accept_queue` has
    stored it. -/
structure Returned where
  caller : ℕ
  call : ℕ
  sock : TjuTcp

/-- The process, and the callers between their test and their search. -/
structure Acceptors where
  server : Kernel
  passed : Finset ℕ
  enqueued : List TjuTcp
  storedBy : ℤ → ℕ
  returned : List Returned
  exited : Bool

inductive AcceptorEv where
  | test (caller : ℕ)
  | search (caller : ℕ)
  | enqueue (sock : TjuTcp)

/-- The process after `tju_listen`. -/
def acceptorsStart (server : Kernel) (sock : TjuTcp) : Acceptors where
  server := tjuListen server sock
  passed := ∅
  enqueued := []
  storedBy _ := 0
  returned := []
  exited := false

/-- The search of `get_from_accept` and the rest of `tju_accept`, or its `exit(-1)`. -/
def Acceptors.search (s : Acceptors) (caller : ℕ) : Acceptors :=
  match tjuAccept s.server s.returned.length with
  | some (server, sock) =>
    { s with
      server := server
      passed := s.passed.erase caller
      returned := s.returned ++
        [⟨caller, (firstAccept s.server.queues).elim 0 fun i => s.storedBy i, sock⟩] }
  | none => { s with passed := s.passed.erase caller, exited := true }

/-- `en_accept_queue`. -/
def Acceptors.enqueue (s : Acceptors) (sock : TjuTcp) : Acceptors :=
  { s with
    server := { s.server with queues := enAcceptQueue s.server.queues sock }
    enqueued := s.enqueued ++ [sock]
    storedBy :=
      if (s.server.queues.acceptQueue (sockHash sock)).isNone
      then Function.update s.storedBy (sockHash sock) s.enqueued.length
      else s.storedBy }

/-- A caller at its test goes on only if `accept_num` is not 0.  `none` if the process has ended, or
    the queue is indexed outside of its slots. -/
def acceptorStep (s : Acceptors) (e : AcceptorEv) : Option Acceptors :=
  if s.exited then none
  else
    match e with
    | .test c =>
      if c ∉ s.passed ∧ s.server.queues.acceptNum ≠ 0
      then some { s with passed := insert c s.passed } else none
    | .search c => if c ∈ s.passed then some (s.search c) else none
    | .enqueue sock => if InTable (sockHash sock) then some (s.enqueue sock) else none

/-- The event is a search when `accept_num` has become 0 again behind the test. -/
def AcceptorEv.late (s : Acceptors) : AcceptorEv → Bool
  | .search _ => s.server.queues.acceptNum == 0
  | _ => false

/-- What is returned has been stored, and what one call has stored is returned at most once. -/
structure ReturnedOnce (s : Acceptors) : Prop where
  own : ∀ r ∈ s.returned, s.enqueued[r.call]? = some r.sock
  once : s.returned.Pairwise fun r r' => r.call ≠ r'.call

/-- And no caller has got NULL, which ends the process. -/
structure NeverFails (s : Acceptors) : Prop extends ReturnedOnce s where
  running : s.exited = false

variable {s s' : Acceptors} {e : AcceptorEv} {c n : ℕ} {k : Kernel}

/-! ## What a step can do -/

/-- `tju_accept` ends the process just when `get_from_accept` returns NULL. -/
theorem tjuAccept_eq_none_iff : tjuAccept k n = none ↔ (getFromAccept k.queues).2 = none := by
  unfold tjuAccept
  split
  · next h => rw [h]; simp
  · next h => rw [h]; simp

/-- What `tju_accept` returns is the socket of the first slot that is taken. -/
theorem tjuAccept_cases (k : Kernel) (n : ℕ) :
    (tjuAccept k n = none ∧ filled slots k.queues.acceptQueue = 0) ∨
      ∃ (i : ℕ) (sock : TjuTcp) (k' : Kernel), firstAccept k.queues = some i ∧ InTable i ∧
        k.queues.acceptQueue i = some sock ∧ tjuAccept k n = some (k', sock) ∧
        k'.queues = { k.queues with
          acceptQueue := Function.update k.queues.acceptQueue i none
          acceptNum := k.queues.acceptNum - 1 } := by
  rcases hf : firstAccept k.queues with _ | i
  · left
    refine ⟨?_, firstAccept_eq_none_iff.1 hf⟩
    rw [tjuAccept_eq_none_iff]
    unfold getFromAccept
    rw [hf]
  · right
    obtain ⟨hi, hs⟩ := firstAccept_eq_some hf
    obtain ⟨sock, hsock⟩ := Option.isSome_iff_exists.1 hs
    unfold tjuAccept getFromAccept
    rw [hf]
    simp only [hsock]
    exact ⟨i, sock, _, rfl, hi, hsock, rfl, rfl⟩

/-- What the event `e` makes of the state. -/
inductive AcceptorMove (s : Acceptors) : AcceptorEv → Acceptors → Prop
  | tests {c : ℕ} : s.server.queues.acceptNum ≠ 0 → c ∉ s.passed →
      AcceptorMove s (.test c) { s with passed := insert c s.passed }
  | takes {c : ℕ} {i : ℕ} {sock : TjuTcp} {k : Kernel} : c ∈ s.passed → InTable i →
      s.server.queues.acceptQueue i = some sock →
      k.queues = { s.server.queues with
        acceptQueue := Function.update s.server.queues.acceptQueue i none
        acceptNum := s.server.queues.acceptNum - 1 } →
      AcceptorMove s (.search c) { s with
        server := k
        passed := s.passed.erase c
        returned := s.returned ++ [⟨c, s.storedBy i, sock⟩] }
  | exits {c : ℕ} : c ∈ s.passed → filled slots s.server.queues.acceptQueue = 0 →
      AcceptorMove s (.search c) { s with passed := s.passed.erase c, exited := true }
  | stores {sock : TjuTcp} : InTable (sockHash sock) →
      s.server.queues.acceptQueue (sockHash sock) = none →
      AcceptorMove s (.enqueue sock) { s with
        server := { s.server with queues := { s.server.queues with
          acceptQueue := Function.update s.server.queues.acceptQueue (sockHash sock) (some sock)
          acceptNum := s.server.queues.acceptNum + 1 } }
        enqueued := s.enqueued ++ [sock]
        storedBy := Function.update s.storedBy (sockHash sock) s.enqueued.length }
  | refuses {sock : TjuTcp} :
      AcceptorMove s (.enqueue sock) { s with enqueued := s.enqueued ++ [sock] }

/-- **What a step can do.** -/
theorem acceptorStep_move (he : acceptorStep s e = some s') :
    s.exited = false ∧ AcceptorMove s e s' := by
  unfold acceptorStep at he
  split_ifs at he with hx
  refine ⟨Bool.eq_false_iff.2 hx, ?_⟩
  cases e with
  | test c =>
    simp only at he
    split_ifs at he with hg
    cases he
    exact .tests hg.2 hg.1
  | search c =>
    simp only at he
    split_ifs at he with hg
    cases he
    unfold Acceptors.search
    rcases tjuAccept_cases s.server s.returned.length with
      ⟨hnone, hz⟩ | ⟨i, sock, k, hf, hi, hs, hk, hq⟩
    · rw [hnone]
      exact .exits hg hz
    · rw [hk, hf]
      exact .takes hg hi hs hq
  | enqueue sock =>
    simp only at he
    split_ifs at he with hi
    cases he
    unfold Acceptors.enqueue enAcceptQueue
    simp only
    split_ifs with hnone
    · exact .stores hi (Option.isNone_iff_eq_none.1 hnone)
    · exact .refuses

/-! ## What every run keeps -/

/-- What has been returned, as the library's `given`. -/
def Acceptors.given (s : Acceptors) : List (ℕ × TjuTcp) := s.returned.map fun r => (r.call, r.sock)

/-- `accept_num` is right, and the calls that have filled the slots and those whose sockets have
    been returned are all different. -/
structure AcceptorInv (s : Acceptors) : Prop where
  tally : Tally slots s.server.queues.acceptQueue 0 s.server.queues.acceptNum
  handout : Handout s.server.queues.acceptQueue s.storedBy s.enqueued s.given

theorem acceptorInv_start (server : Kernel) (sock : TjuTcp) :
    AcceptorInv (acceptorsStart server sock) where
  tally := rfl
  handout := Handout.empty _

theorem AcceptorInv.step (hi : AcceptorInv s) (he : acceptorStep s e = some s') :
    AcceptorInv s' := by
  obtain ⟨-, hm⟩ := acceptorStep_move he
  cases hm with
  | tests => exact ⟨hi.tally, hi.handout⟩
  | exits => exact ⟨hi.tally, hi.handout⟩
  | @takes c i sock k hc hin hs hq =>
    constructor
    · simp only [hq]
      exact hi.tally.clear (mem_slots.2 hin) (by rw [hs]; rfl)
    · simp only [hq, Acceptors.given, List.map_append]
      exact hi.handout.take hs
  | stores hin hnone => exact ⟨hi.tally.put (mem_slots.2 hin) hnone _, hi.handout.put _ _⟩
  | refuses => exact ⟨hi.tally, hi.handout.refuse _⟩

theorem acceptorInv_reach {server : Kernel} {sock : TjuTcp}
    (h : Reach acceptorStep (acceptorsStart server sock) s) : AcceptorInv s :=
  h.inv (acceptorInv_start server sock) fun _ _ _ hi _ he => hi.step he

theorem AcceptorInv.acceptNum_eq (hi : AcceptorInv s) :
    s.server.queues.acceptNum.toNat = filled slots s.server.queues.acceptQueue :=
  (hi.tally.toNat_eq_iff (by decide)).2 (Nat.dvd_zero _)

theorem AcceptorInv.returnedOnce (hi : AcceptorInv s) : ReturnedOnce s where
  own r hr := hi.handout.own _ (List.mem_map_of_mem hr)
  once := by
    have honce := hi.handout.once
    unfold Acceptors.given at honce
    rwa [List.pairwise_map] at honce

/-- **A search ends the process** exactly if it is late. -/
theorem AcceptorInv.exited_step (hi : AcceptorInv s) (he : acceptorStep s e = some s') :
    s'.exited = e.late s := by
  obtain ⟨hx, hm⟩ := acceptorStep_move he
  have hnum := hi.acceptNum_eq
  cases hm with
  | tests => exact hx
  | stores => exact hx
  | refuses => exact hx
  | @takes c i sock k hc hin hs hq =>
    have hne : s.server.queues.acceptNum ≠ 0 := by
      intro h0
      rw [h0] at hnum
      have hempty := filled_eq_zero_iff.1 hnum.symm i (mem_slots.2 hin)
      rw [hs] at hempty
      cases hempty
    unfold AcceptorEv.late
    rw [hx, beq_eq_false_iff_ne.2 hne]
  | exits hc hz =>
    have h0 : s.server.queues.acceptNum = 0 := by
      rw [hz] at hnum
      exact BitVec.eq_of_toNat_eq hnum
    unfold AcceptorEv.late
    rw [h0]
    rfl

/-- **No caller fails in a run**, and nobody gets what another one has got, exactly if no search
    comes when `accept_num` is 0 again.  The second part holds in any run. -/
theorem accept_always_iff (server : Kernel) (sock : TjuTcp) (es : List AcceptorEv)
    (h : exec acceptorStep (acceptorsStart server sock) es = some s) :
    (Always acceptorStep NeverFails (acceptorsStart server sock) es ↔
        Along acceptorStep (fun s e => e.late s = false) (acceptorsStart server sock) es) ∧
      ReturnedOnce s := by
  refine ⟨?_, (acceptorInv_reach (ReachBy.of_exec es h)).returnedOnce⟩
  refine always_iff_along (I := fun s => AcceptorInv s ∧ s.exited = false)
    (fun s hi => ⟨hi.1.returnedOnce, hi.2⟩) ?_ ?_ es ⟨acceptorInv_start server sock, rfl⟩ h
  · intro s e s' hi hlate he
    exact ⟨hi.1.step he, (hi.1.exited_step he).trans hlate⟩
  · intro s e s' hi hlate he hnever
    exact hlate ((hi.1.exited_step he).symm.trans hnever.running)

/-- The connected socket for a client at the port. -/
def connectedTo (port : BitVec 16) : TjuTcp :=
  { newConn { tjuSocket with bindAddr := ⟨serverIp, 1234⟩ } (synPacket port 1234) with
    state := .established }

/-- Two callers for two sockets. -/
theorem accept_always_two : Always acceptorStep NeverFails (acceptorsStart startSimulation tjuSocket)
    [.enqueue (connectedTo 5678), .test 0, .enqueue (connectedTo 5679), .test 1, .search 1,
      .search 0] := by
  obtain ⟨s, hs⟩ := Option.isSome_iff_exists.1 (show (exec acceptorStep
    (acceptorsStart startSimulation tjuSocket)
    [.enqueue (connectedTo 5678), .test 0, .enqueue (connectedTo 5679), .test 1, .search 1,
      .search 0]).isSome = true by decide +kernel)
  exact (accept_always_iff _ _ _ hs).1.2 (by decide +kernel)

/-- Two callers for one socket: both see it, one takes it, and the other one ends the process. -/
theorem accept_races : ¬ ∀ server sock es s,
    exec acceptorStep (acceptorsStart server sock) es = some s → NeverFails s := by
  intro hall
  obtain ⟨s, hs⟩ := Option.isSome_iff_exists.1 (show (exec acceptorStep
    (acceptorsStart startSimulation tjuSocket)
    [.enqueue (connectedTo 5678), .test 0, .test 1, .search 0, .search 1]).isSome = true
    by decide +kernel)
  have hexit : (exec acceptorStep (acceptorsStart startSimulation tjuSocket)
      [.enqueue (connectedTo 5678), .test 0, .test 1, .search 0, .search 1]).map
      Acceptors.exited = some true := by decide +kernel
  rw [hs, Option.map_some, Option.some.injEq] at hexit
  rw [(hall _ _ _ s hs).running] at hexit
  cases hexit

/-! ## Callers that leave each other enough -/

/-- A test comes only while there are more sockets than callers behind their test. -/
def Reserved (s : Acceptors) (e : AcceptorEv) : Prop :=
  ∀ c, e = .test c → s.server.queues.acceptNum ≠ 0 →
    s.passed.card < s.server.queues.acceptNum.toNat

/-- A test comes only while no other caller is between its test and its search. -/
def OneAtATime (s : Acceptors) (e : AcceptorEv) : Prop := ∀ c, e = .test c → s.passed = ∅

/-- Callers that reserve a socket each never outnumber them. -/
theorem AcceptorMove.reserved (hm : AcceptorMove s e s') (hi : AcceptorInv s) (hi' : AcceptorInv s')
    (hres : Reserved s e) (hle : s.passed.card ≤ s.server.queues.acceptNum.toNat) :
    s'.exited = s.exited ∧ s'.passed.card ≤ s'.server.queues.acceptNum.toNat := by
  have hnum := hi.acceptNum_eq
  have hnum' := hi'.acceptNum_eq
  cases hm with
  | @tests c hne hc =>
    refine ⟨rfl, ?_⟩
    rw [Finset.card_insert_of_notMem hc]
    exact hres c rfl hne
  | @takes c i sock k hc hin hs hq =>
    have hclear := filled_clear (t := s.server.queues.acceptQueue) (mem_slots.2 hin) (by rw [hs]; rfl)
    have herase := Finset.card_erase_add_one hc
    refine ⟨rfl, ?_⟩
    simp only [hq] at hnum' ⊢
    omega
  | exits hc hz =>
    have hpos := Finset.card_pos.2 ⟨_, hc⟩
    omega
  | stores hin hnone =>
    have hput := fun sock => filled_put (t := s.server.queues.acceptQueue) (mem_slots.2 hin) hnone sock
    refine ⟨rfl, ?_⟩
    simp only [hput] at hnum' ⊢
    omega
  | refuses => exact ⟨rfl, hle⟩

/-- **With a socket for each caller behind its test** no caller fails. -/
theorem accept_reserved {server : Kernel} {sock : TjuTcp}
    (h : ReachBy acceptorStep Reserved (acceptorsStart server sock) s) : NeverFails s := by
  have hinv : AcceptorInv s ∧ s.exited = false ∧
      s.passed.card ≤ s.server.queues.acceptNum.toNat := by
    refine h.inv (I := fun s => AcceptorInv s ∧ s.exited = false ∧
      s.passed.card ≤ s.server.queues.acceptNum.toNat)
      ⟨acceptorInv_start server sock, rfl, Nat.zero_le _⟩ ?_
    rintro s e s' ⟨hi, hx, hle⟩ hres he
    have hi' := hi.step he
    obtain ⟨hsame, hcard⟩ := (acceptorStep_move he).2.reserved hi hi' hres hle
    exact ⟨hi', hsame.trans hx, hcard⟩
  exact ⟨hinv.1.returnedOnce, hinv.2.1⟩

/-- Callers that come one at a time never fail. -/
theorem accept_oneAtATime {server : Kernel} {sock : TjuTcp}
    (h : ReachBy acceptorStep OneAtATime (acceptorsStart server sock) s) : NeverFails s := by
  refine accept_reserved (h.weaken fun s e hone c he hne => ?_)
  rw [hone c he, Finset.card_empty]
  bv_omega

end Tju
