/-
  A connection that is left alone.

  In a steady run (`Steady`) the threads make their passes, timers that are
  armed run out, data segments and ACKs are delivered, each one once, and the
  applications read; nothing is lost, sent anew or closed.  `Ongoing` is a
  connection that both sides have open, with the streams `S`, and steady runs
  keep it (`ongoing_keeps`).

  * `sampled_fires`: whatever the estimators are, some sample leaves a timeout
    that `setitimer` takes;
  * `Ongoing.segment`, `Ongoing.ack`: a data segment in flight, and an ACK in
    flight, can be delivered.
-/
import TjuTcp.Armed
import TjuTcp.Rto
import TjuTcp.Lib.Leads

namespace Tju

open Lib

/-- The steps of a steady run. -/
def Steady (s : Conn) : ConnEv → Prop
  | .sendPass .. | .retransPass _ | .recv .. => True
  | .alarm x => (s.ep x).timer = true
  | .deliver _ pkt keep _ => keep = false ∧ (getFlags pkt = noFlag ∨ getFlags pkt = ackFlagMask)
  | .append .. | .lose .. | .close _ | .closeRetrans _ | .wake _ => False

/-- A steady step whose sample, if it takes one, leaves a timeout that `setitimer` takes. -/
def SteadyOk (s : Conn) (e : ConnEv) : Prop := OnMove SampleFires s e ∧ Steady s e

/-- A connection that both sides have open, with the streams `S`. -/
structure Ongoing (client server : TjuSockAddr) (S : Side → List Byte) (s : Conn) : Prop where
  reach : ReachBy connStep (OnMove SampleFires) (.start client server (handshake client server)) s
  sent : s.sent = S
  short : ∀ x, Short (S x)
  opened : ∀ x, (s.ep x).sock.state = .established

variable {client server : TjuSockAddr} {S : Side → List Byte} {s s' : Conn} {e : ConnEv} {x : Side}
  {h h' : Host} {f : SockEv} {pkt : Buf} {now : ℕ}

/-! ## Steady steps -/

theorem sockStep_opened (hs : h.sock.state = .established)
    (hf : ∀ now pkt, f = .packet now pkt → getFlags pkt ≠ finFlagMask)
    (he : sockStep h f = some h') : h'.sock.state = .established := by
  cases f with
  | append data =>
    obtain ⟨sock', ha, rfl⟩ := Option.map_eq_some_iff.1 he
    obtain ⟨-, rfl⟩ := appendData_eq_some ha
    exact hs
  | sendPass now =>
    cases he
    rw [(sendingThread_rest now h).state]
    exact hs
  | retransPass =>
    obtain ⟨⟨t, out⟩, ht, rfl⟩ := Option.map_eq_some_iff.1 he
    rw [(retransThread_rest ht).state]
    exact hs
  | alarm => cases he; exact hs
  | packet now pkt =>
    obtain ⟨⟨t, out⟩, ht, rfl⟩ := Option.map_eq_some_iff.1 he
    cases tjuHandlePacket_cases ht with
    | fin _ hfin => exact absurd hfin (hf now pkt rfl)
    | data _ _ hd =>
      obtain ⟨hsock, -⟩ := handleData_frame hd
      rw [hsock]
      exact hs
    | ack _ _ ha => rw [(handleAck_rest ha).state]; exact hs
    | ignored => exact hs
    | closing _ _ hno => exact absurd hs hno
  | recv len =>
    simp only [sockStep] at he
    split_ifs at he
    obtain ⟨⟨sock', bytes⟩, hr, rfl⟩ := Option.map_eq_some_iff.1 he
    obtain ⟨-, rfl, -⟩ := tjuRecv_eq_some hr
    exact hs

/-- Nothing is appended. -/
theorem steady_sent (hs : Steady s e) (he : connStep s e = some s') : s'.sent = s.sent := by
  funext y
  cases connStep_move he with
  | append | lose | close | closeAgain | resend | silent | finOut | done => cases hs
  | @sendPass x | @retransPass x | @alarm x | @deliver x | @recv x =>
    rcases Side.eq_or_peer x y with rfl | rfl <;> simp

/-- The event of a steady step moves a socket, and its packet is no FIN. -/
theorem steady_move (hs : Steady s e) : ∃ x f, e.move = some (x, f) ∧
    ∀ now pkt, f = .packet now pkt → getFlags pkt ≠ finFlagMask := by
  cases e with
  | append | lose | close | closeRetrans | wake => cases hs
  | sendPass x now => exact ⟨x, _, rfl, fun _ _ h => by cases h⟩
  | retransPass x => exact ⟨x, _, rfl, fun _ _ h => by cases h⟩
  | alarm x => exact ⟨x, _, rfl, fun _ _ h => by cases h⟩
  | recv x len => exact ⟨x, _, rfl, fun _ _ h => by cases h⟩
  | deliver x pkt keep now =>
    refine ⟨x, _, rfl, fun _ _ h => ?_⟩
    cases h
    rcases hs.2 with hf | hf <;> rw [hf] <;> decide

/-- **A steady step** leaves the connection open, with the same streams. -/
theorem ongoing_keeps : KeptBy connStep SteadyOk (Ongoing client server S) := by
  rintro s e s' hg ⟨hG, hs⟩ he
  refine ⟨hg.reach.tail hG he, (steady_sent hs he).trans hg.sent, hg.short, fun y => ?_⟩
  obtain ⟨x, f, hmove, hfin⟩ := steady_move hs
  cases connStep_hosts he with
  | sock x' f' hmove' hstep hpeer =>
    cases hmove.symm.trans hmove'
    rcases Side.eq_or_peer x y with rfl | rfl
    · exact sockStep_opened (hg.opened y) hfin hstep
    · rw [hpeer]
      exact hg.opened _
  | closes hnone => cases hmove.symm.trans hnone

/-! ## What is known of an ongoing connection -/

namespace Ongoing
variable (hg : Ongoing client server S s)
include hg

theorem reached : Reach connStep (.start client server (handshake client server)) s :=
  hg.reach.weaken fun _ _ _ => trivial

theorem shortAll : ShortAll s := fun x => by
  rw [hg.sent]
  exact hg.short x

theorem ctl : CtlInv s := (flowAll_reached hg.reached).1

theorem flow : FlowAll s := (flowAll_reached hg.reached).2 hg.shortAll

theorem delivered (x : Side) : Delivered s x := hg.flow.delivered hg.shortAll x

theorem windows : WindowsOk s := windowsOk_reached client server hg.reached

theorem cong (x : Side) : CongInv (s.ep x).sock.wndSend := congInv_hosts hg.reached x

theorem timer (x : Side) : TimerOk (s.ep x) :=
  timerOk_reached client server hg.reach hg.shortAll x

theorem cursors (x : Side) : Cursors (s.ep x).sock := (hg.flow x).send.cursors

theorem rwnd_ne (x : Side) : (s.ep x).sock.wndSend.rwnd ≠ 0 := fun h0 => by
  have hadv := hg.windows.rwnd x
  rw [h0] at hadv
  exact absurd hadv.1 (by decide)

end Ongoing

/-! ## Samples -/

/-- **Some sample** leaves a timeout that `setitimer` takes. -/
theorem sampled_fires {w : SenderWindow} (hw : w.estmatedRtt + 4 * w.devRtt < 1000000) :
    Fires (w.sampled (max w.estmatedRtt 8)) := by
  have hto := sampled_timeout w (max w.estmatedRtt 8)
  rw [sampled_estimate, sampled_devRtt] at hto
  unfold nextEstimate deviation at hto
  unfold Fires
  rw [hto]
  -- the estimate stays as it is from 8 on, and the deviation shrinks
  constructor
  · split_ifs <;> omega
  · split_ifs <;> omega

theorem exists_now (ht : TimerOk h) (pkt : Buf) : ∃ now, SampleFires h (.packet now pkt) := by
  refine ⟨h.sock.wndSend.sendTime + max h.sock.wndSend.estmatedRtt 8, fun s hs => ?_⟩
  simp only [sampleOf] at hs
  split_ifs at hs
  · cases hs
    rw [Nat.add_sub_cancel_left]
    exact sampled_fires ht.estimate
  · cases hs

theorem sampleFires_data (hf : getFlags pkt = noFlag) (now : ℕ) :
    SampleFires h (.packet now pkt) := by
  intro s hs
  simp only [sampleOf, hf] at hs
  split_ifs at hs with hc
  · exact absurd hc.2.1 (by decide)
  · cases hs

/-- A step that takes no sample. -/
theorem onMove_quiet (hq : ∀ m ∈ e.move, ∀ now pkt, m.2 ≠ .packet now pkt) :
    OnMove SampleFires s e := by
  intro m hm n hn
  cases hf : m.2 with
  | packet now pkt => exact absurd hf (hq m hm now pkt)
  | _ => rw [hf] at hn; cases hn

/-! ## Deliveries -/

theorem consume_net_peer (s : Conn) (x : Side) (pkt : Buf) (keep : Bool) :
    (s.consume x pkt keep).net x.peer = s.net x.peer := by
  unfold Conn.consume
  split_ifs <;> simp

/-- A packet in flight is delivered. -/
theorem deliver_eq {out : List Buf} (hp : pkt ∈ s.net x) (hs : (s.ep x).sock.state = .established)
    (ht : tjuHandlePacket now (s.ep x) pkt = some (h', out)) :
    ∃ s', connStep s (.deliver x pkt false now) = some s' ∧ s'.ep x = h' ∧
      s'.ep x.peer = s.ep x.peer ∧ s'.net x.peer = s.net x.peer ++ out := by
  refine ⟨((s.put x h' out [] []).consume x pkt false).seeFin x
    (takesFin (s.ep x).sock.state (getFlags pkt)), ?_, ?_, ?_, ?_⟩
  · simp only [connStep]
    rw [if_pos ⟨hp, by rw [hs]; rfl⟩, ht]
    rfl
  · simp
  · simp
  · rw [Conn.seeFin_net, consume_net_peer]
    simp

namespace Ongoing
variable (hg : Ongoing client server S s)
include hg

/-- **A data segment in flight** to the peer of `x` can be delivered, and is answered. -/
theorem segment (hp : pkt ∈ s.net x.peer) (hf : getFlags pkt = noFlag) :
    ∃ e s' sock, SteadyOk s e ∧ connStep s e = some s' ∧ s'.ep x = s.ep x ∧
      handleData (s.ep x.peer).sock pkt = some (sock, [ackPacket sock]) ∧
      (s'.ep x.peer).sock = sock ∧ ackPacket sock ∈ s'.net x := by
  obtain ⟨sock, hd, -⟩ := (hg.flow x).dataCall (hg.shortAll x) hp hf
  have ht : tjuHandlePacket 0 (s.ep x.peer) pkt =
      some ({ s.ep x.peer with sock := sock }, [ackPacket sock]) := by
    rw [handle_data (hg.opened _) hf, hd]
    rfl
  obtain ⟨s', he, hep, hpeer, hnet⟩ := deliver_eq hp (hg.opened _) ht
  rw [Side.peer_peer] at hpeer hnet
  refine ⟨.deliver x.peer pkt false 0, s', sock, ⟨?_, rfl, Or.inl hf⟩, he, hpeer, hd, by rw [hep],
    by rw [hnet]; simp⟩
  intro m hm
  cases hm
  exact sampleFires_data hf 0

/-- **An ACK in flight** to `x` can be delivered. -/
theorem ack (hp : pkt ∈ s.net x) (hf : getFlags pkt = ackFlagMask) :
    ∃ e s' now, SteadyOk s e ∧ connStep s e = some s' ∧
      sockStep (s.ep x) (.packet now pkt) = some (s'.ep x) := by
  obtain ⟨now, hnow⟩ := exists_now (hg.timer x) pkt
  obtain ⟨⟨h', out⟩, ht, -⟩ := hg.flow.handle hg.ctl hg.shortAll hp now
  obtain ⟨s', he, hep, -⟩ := deliver_eq hp (hg.opened _) ht
  refine ⟨.deliver x pkt false now, s', now, ⟨?_, rfl, Or.inr hf⟩, he, ?_⟩
  · intro m hm
    cases hm
    exact hnow
  · rw [hep]
    exact Option.map_eq_some_iff.2 ⟨_, ht, rfl⟩

end Ongoing

end Tju
