/-
  What `tju_accept` may rely on.

  The half-open sockets are kept by a hash value of their addresses, and the
  ACK of a handshake takes whatever socket is in its slot: that of another
  client, or one that a repeated SYN has left behind.  `OwnSlot` are the steps
  in which it takes the socket of its own client, and for the first time.

  `accept_sound`: in a run of such steps every socket that `tju_accept` returns
  stands for a handshake that the client at its remote address has completed,
  and no two of them stand for the same one.
-/
import TjuTcp.Connect

namespace Tju

open Lib

/-- If the listening socket takes a half-open socket for an ACK, then it is one of the client that
    has sent the ACK, and the first one for its attempt. -/
def OwnSlot (s : Net) : NetEv → Prop
  | .serverDeliver a pkt _ _ => ∀ l sock, onTcpPocket s.server pkt = .listening l →
      listenTakes s.server.queues pkt = some sock →
      sock.establishedRemoteAddr.port = getSrc pkt ∧ s.taken a = false
  | _ => True

/-- The returned sockets stand for different handshakes, each completed by the client at the remote
    address of the socket. -/
def Justified (s : Net) : Prop :=
  ∃ js : List Attempt, js.Nodup ∧ List.Forall₂ (fun sock a =>
    sock.establishedRemoteAddr = ⟨clientIp, a.port⟩ ∧ s.completed a = true) s.accepted js

/-- The sockets in the accept queue and the returned ones stand for different attempts. -/
structure AcceptInv (s : Net) : Prop where
  half : ∀ i sock, (s.server.queues.synQueue i).sock = some sock →
    sock.establishedRemoteAddr.ip = clientIp
  slot : ∀ i sock, s.server.queues.acceptQueue i = some sock →
    sock.establishedRemoteAddr = ⟨clientIp, (s.acceptBy i).port⟩ ∧
      s.taken (s.acceptBy i) = true ∧ s.acceptBy i ∉ s.justified
  inj : ∀ i j t u, s.server.queues.acceptQueue i = some t → s.server.queues.acceptQueue j = some u →
    s.acceptBy i = s.acceptBy j → i = j
  taken : ∀ a ∈ s.justified, s.taken a = true
  returned : List.Forall₂ (fun sock a => sock.establishedRemoteAddr = ⟨clientIp, a.port⟩)
    s.accepted s.justified
  nodup : s.justified.Nodup

variable {s s' : Net} {e : NetEv} {a : Attempt} {pkt : Buf} {now : ℕ}

/-! ## One step -/

/-- The invariant is about the queues and their history. -/
theorem AcceptInv.congr (hi : AcceptInv s) (hv : s'.queueView = s.queueView) : AcceptInv s' := by
  simp only [Net.queueView, Prod.mk.injEq] at hv
  obtain ⟨h1, h2, h3, h4, h5⟩ := hv
  constructor
  · rw [h1]; exact hi.half
  · rw [h1, h2, h3, h5]; exact hi.slot
  · rw [h1, h3]; exact hi.inj
  · rw [h2, h5]; exact hi.taken
  · rw [h4, h5]; exact hi.returned
  · rw [h5]; exact hi.nodup

/-- Only the listening socket and `tju_accept` touch the queues. -/
theorem netStep_queueView (he : netStep s e = some s') : s'.queueView = s.queueView ∨
    (∃ a pkt keep now l, e = .serverDeliver a pkt keep now ∧ (a, pkt) ∈ s.toServer ∧
      onTcpPocket s.server pkt = .listening l ∧
      s'.queueView = (s.listens now l a pkt).queueView) ∨ e = .accept := by
  cases netStep_move he with
  | clientHandles => exact Or.inl (by rw [Net.dropToClient_queueView]; rfl)
  | clientDrops => exact Or.inl (by simp)
  | serverHandles => exact Or.inl (by rw [Net.dropToServer_queueView]; rfl)
  | listens hm _ hl =>
    exact Or.inr (Or.inl ⟨_, _, _, _, _, rfl, hm, hl, by rw [Net.dropToServer_queueView]⟩)
  | serverDrops => exact Or.inl (by simp)
  | accept => exact Or.inr (Or.inr rfl)
  | _ => exact Or.inl rfl

/-- **The listening socket** takes a half-open socket for one more attempt, if any. -/
theorem AcceptInv.listens (hi : AcceptInv s) (hnet : NetInv s) (hm : (a, pkt) ∈ s.toServer)
    (l : TjuTcp) (hown : ∀ sock, listenTakes s.server.queues pkt = some sock →
      sock.establishedRemoteAddr.port = getSrc pkt ∧ s.taken a = false) :
    AcceptInv (s.listens now l a pkt) := by
  have hold : ∀ i, (handleListen now l s.server.queues pkt).1.acceptQueue i =
      s.server.queues.acceptQueue i → (s.listens now l a pkt).acceptBy i = s.acceptBy i := by
    intro i h
    show (if _ then a else s.acceptBy i) = _
    rw [h, if_neg]
    rintro ⟨h1, h2⟩
    rw [Option.isNone_iff_eq_none.1 h1] at h2
    cases h2
  have hnew : ∀ i t, s.server.queues.acceptQueue i = none →
      (handleListen now l s.server.queues pkt).1.acceptQueue i = some t →
      (s.listens now l a pkt).acceptBy i = a := by
    intro i t h h'
    show (if _ then a else s.acceptBy i) = _
    rw [h, h', if_pos ⟨rfl, rfl⟩]
  have hfresh : ∀ sock, listenTakes s.server.queues pkt = some sock → ∀ b, s.taken b = true → b ≠ a := by
    rintro sock ht b hb rfl
    exact absurd (hb.symm.trans (hown sock ht).2) (by decide)
  constructor
  · intro i sock hs
    rcases handleListen_half hs with h | rfl
    · exact hi.half i sock h
    · rfl
  · intro i sock hs
    rcases handleListen_slot now l s.server.queues pkt i with h | ⟨t, ht, -, hn, ht'⟩
    · rw [hold i h]
      obtain ⟨h1, h2, h3⟩ := hi.slot i sock (h ▸ hs)
      exact ⟨h1, mark_of h2, h3⟩
    · rw [hnew i _ hn ht']
      have heq : sock = { t with state := .established } := Option.some.inj (hs.symm.trans ht')
      have hsyn : (s.server.queues.synQueue (packetHash pkt)).sock = some t := by
        have ht₀ := ht
        unfold listenTakes at ht₀
        split_ifs at ht₀
        exact (getFromSyn_cases _ _).2 t ht₀
      refine ⟨?_, mark_self (by rw [ht]; rfl), fun hmem => hfresh t ht a (hi.taken a hmem) rfl⟩
      rw [heq]
      show t.establishedRemoteAddr = _
      rw [← (hnet.sent _ hm).1, ← (hown t ht).1, ← hi.half _ t hsyn]
  · intro i j t u hti huj hij
    rcases handleListen_slot now l s.server.queues pkt i with h | ⟨v, hv, hiv, hn, hv'⟩ <;>
      rcases handleListen_slot now l s.server.queues pkt j with h' | ⟨w, hw, hjw, hn', hw'⟩
    · rw [hold i h, hold j h'] at hij
      exact hi.inj i j t u (h ▸ hti) (h' ▸ huj) hij
    · rw [hold i h, hnew j _ hn' hw'] at hij
      exact absurd hij (hfresh w hw _ (hi.slot i t (h ▸ hti)).2.1)
    · rw [hnew i _ hn hv', hold j h'] at hij
      exact absurd hij.symm (hfresh v hv _ (hi.slot j u (h' ▸ huj)).2.1)
    · rw [hv] at hw
      cases hw
      rw [hiv, hjw]
  · intro b hb
    exact mark_of (hi.taken b hb)
  · exact hi.returned
  · exact hi.nodup

/-- **`tju_accept`** returns a socket for one more attempt. -/
theorem AcceptInv.accept (hi : AcceptInv s) (hnet : NetInv s) {r : Kernel × TjuTcp}
    (hr : tjuAccept s.server s.accepted.length = some r) :
    AcceptInv { s with
      server := r.1
      accepted := s.accepted ++ [r.2]
      justified := s.justified ++ [s.acceptBy (sockHash r.2)] } := by
  unfold tjuAccept at hr
  split at hr
  · next q sock hq =>
    cases hr
    obtain ⟨i, hsock, hq'⟩ := getFromAccept_eq_some hq
    have hhash := (hnet.slots i sock hsock).2.1
    have hhalf : q.synQueue = s.server.queues.synQueue := by
      unfold getFromAccept at hq
      split at hq
      · exact (congrArg (fun r => r.1.synQueue) hq).symm
      · cases hq
    have hother : ∀ j t, q.acceptQueue j = some t →
        j ≠ i ∧ s.server.queues.acceptQueue j = some t := by
      intro j t ht
      rw [hq'] at ht
      exact update_none_eq_some ht
    obtain ⟨haddr, htaken, hnot⟩ := hi.slot i sock hsock
    constructor
    · intro j t ht
      exact hi.half j t (by rw [← hhalf]; exact ht)
    · intro j t ht
      obtain ⟨hne, ht'⟩ := hother j t ht
      obtain ⟨h1, h2, h3⟩ := hi.slot j t ht'
      refine ⟨h1, h2, fun hmem => ?_⟩
      rcases List.mem_append.1 hmem with hmem | hmem
      · exact h3 hmem
      · rw [List.mem_singleton, hhash] at hmem
        exact hne (hi.inj j i t sock ht' hsock hmem)
    · intro j k t u ht hu hjk
      exact hi.inj j k t u (hother j t ht).2 (hother k u hu).2 hjk
    · intro b hb
      rcases List.mem_append.1 hb with hb | hb
      · exact hi.taken b hb
      · rw [List.mem_singleton.1 hb, hhash]; exact htaken
    · exact List.rel_append hi.returned (.cons (by rw [hhash]; exact haddr) .nil)
    · have hnodup := hi.nodup.concat hnot
      rwa [List.concat_eq_append, ← hhash] at hnodup
  · cases hr

theorem acceptInv_step (hi : AcceptInv s) (hnet : NetInv s) (hown : OwnSlot s e)
    (he : netStep s e = some s') : AcceptInv s' := by
  rcases netStep_queueView he with hv | ⟨a, pkt, keep, now, l, rfl, hm, hl, hv⟩ | rfl
  · exact hi.congr hv
  · exact (hi.listens hnet hm l fun sock ht => hown l sock hl ht).congr hv
  · simp only [netStep] at he
    split_ifs at he
    obtain ⟨r, hr, rfl⟩ := Option.map_eq_some_iff.1 he
    exact hi.accept hnet hr

theorem acceptInv_start (bindAddr : TjuSockAddr) : AcceptInv (.start bindAddr) where
  half i sock hs := by cases hs
  slot i sock hs := by cases hs
  inj i j t u ht := by cases ht
  taken a ha := by cases ha
  returned := .nil
  nodup := List.nodup_nil

/-! ## Runs -/

/-- **What `tju_accept` may rely on.**  In every state reached by a run of such steps, with any
    number of clients that connect, close and connect again over a network that loses, repeats and
    reorders packets, the sockets that it has returned stand for different handshakes, each
    completed by the client at the remote address of the socket. -/
theorem accept_sound (bindAddr : TjuSockAddr) (hr : ReachBy netStep OwnSlot (.start bindAddr) s) :
    Justified s := by
  obtain ⟨hnet, hi⟩ := hr.inv (I := fun s => NetInv s ∧ AcceptInv s)
    ⟨netInv_start bindAddr, acceptInv_start bindAddr⟩
    fun _ _ _ hi hown he => ⟨netInv_step hi.1 he, acceptInv_step hi.2 hi.1 hown he⟩
  refine ⟨s.justified, hi.nodup, ?_⟩
  refine List.forall₂_iff_get.2 ⟨hi.returned.length_eq, fun i h1 h2 => ?_⟩
  exact ⟨hi.returned.get h1 h2, hnet.justified _ (List.get_mem _ _)⟩

theorem accept_sound_handshake :
    ∃ s, exec netStep (.start serverAddr) (handshakeRun 5678) = some s ∧ Justified s := by
  obtain ⟨s, hs⟩ := Option.isSome_iff_exists.1
    (show (exec netStep (.start serverAddr) (handshakeRun 5678)).isSome = true by decide)
  have hown : Along netStep OwnSlot (.start serverAddr) (handshakeRun 5678) := by
    refine ⟨trivial, fun s1 h1 => ⟨?_, fun s2 h2 => ⟨trivial, fun s3 h3 => ⟨?_, fun s4 _ =>
      ⟨trivial, fun s5 _ => ⟨trivial, fun s6 _ => trivial⟩⟩⟩⟩⟩⟩
    · -- a SYN takes nothing
      intro l sock _ ht
      rw [listenTakes_syn (synPacket_flags _ _)] at ht
      cases ht
    · -- the ACK takes the socket of its client
      cases h1
      cases h2
      cases h3
      intro l sock _ ht
      cases ht
      exact ⟨rfl, rfl⟩
  exact ⟨s, hs, accept_sound serverAddr (.of_along _ hown hs)⟩

/-- Two clients with the same hash value: the ACK of the second one takes the socket of the first
    one, whose SYN|ACK is lost. -/
def crossedRun : List NetEv :=
  let synAck := synAckPacket (synPacket 5678 1234)
  [.connect 5710 serverAddr ⟨0, 0⟩,
    .serverDeliver ⟨5710, 1⟩ (synPacket 5710 1234) false 0,
    .connect 5678 serverAddr ⟨0, 0⟩,
    .serverDeliver ⟨5678, 1⟩ (synPacket 5678 1234) false 0,
    .clientDeliver ⟨5678, 1⟩ synAck false 0,
    .serverDeliver ⟨5678, 1⟩ (replyAck synAck 1) false 0,
    .accept]

/-- `tju_accept` returns the socket of a client that is still in SYN_SENT. -/
theorem accept_crossed : ¬ ∀ s, Reach netStep (.start serverAddr) s → Justified s := by
  intro hall
  have hend : (exec netStep (.start serverAddr) crossedRun).map (fun s =>
      (s.accepted.map TjuTcp.establishedRemoteAddr,
        (s.clients 5710).map fun c => c.host.sock.state, s.attempts 5710)) =
      some ([⟨clientIp, 5710⟩], some .synSent, 1) := by decide
  obtain ⟨s, hs, hst⟩ := Option.map_eq_some_iff.1 hend
  simp only [Prod.mk.injEq] at hst
  obtain ⟨hacc, hclient, hatt⟩ := hst
  have hr : Reach netStep (.start serverAddr) s := .of_exec _ hs
  have hi : NetInv s := hr.inv (netInv_start serverAddr) fun _ _ _ hi _ he => netInv_step hi he
  -- the client has completed no attempt
  obtain ⟨c, hc, hsyn⟩ := Option.map_eq_some_iff.1 hclient
  have hno : s.completed ⟨5710, 1⟩ = false := by
    rw [← hatt]
    rcases (hi.client 5710 c hc).2 with ⟨-, h⟩ | ⟨h, -⟩
    · exact h
    · exact absurd hsyn (connected_ne h)
  -- but a socket with its address was returned
  obtain ⟨js, -, hjs⟩ := hall s hr
  obtain ⟨sock, haccepted, haddr⟩ := List.map_eq_singleton_iff.1 hacc
  rw [haccepted] at hjs
  rcases hjs with _ | ⟨⟨hport, hcomp⟩, -⟩
  next a _ =>
  rw [haddr] at hport
  have hp : a.port = 5710 := congrArg TjuSockAddr.port hport.symm
  have hnum := hi.range a hcomp
  rw [hp, hatt] at hnum
  have ha : a = ⟨5710, 1⟩ := by
    cases a
    simp only [Attempt.mk.injEq] at hp hnum ⊢
    exact ⟨hp, by omega⟩
  rw [ha, hno] at hcomp
  cases hcomp

end Tju
