/-
  What a step of a connection does to its two sockets.

  A step of a connection is a step of one of its sockets (`sockStep`), or it
  changes no more of them than closing does (`connStep_hosts`).  So what the
  steps of a socket keep, and closing does not touch, holds of both sides in
  every run of the connection (`ReachBy.hosts`).

  * `base_mono`: no step of a socket moves `base` back;
  * `windowsOk_reached`: every ACK in flight advertises from 1 to
    `MAX_RWINDOW_SIZE` bytes, and so does what the senders have stored of it.
-/
import TjuTcp.Stream
import TjuTcp.StaleAck
import TjuTcp.WindowSizes

namespace Tju

open Lib

/-- The socket that an event moves, and its step. -/
def ConnEv.move : ConnEv → Option (Side × SockEv)
  | .append x data => some (x, .append data)
  | .sendPass x now => some (x, .sendPass now)
  | .retransPass x => some (x, .retransPass)
  | .alarm x => some (x, .alarm)
  | .deliver x pkt _ now => some (x, .packet now pkt)
  | .recv x len => some (x, .recv len)
  | .lose .. | .close _ | .closeRetrans _ | .wake _ => none

/-- The guard `G` on the step of the socket that an event moves. -/
def OnMove (G : Host → SockEv → Prop) (s : Conn) (e : ConnEv) : Prop :=
  ∀ m ∈ e.move, G (s.ep m.1) m.2

instance (G : Host → SockEv → Prop) [∀ h, DecidablePred (G h)] (s : Conn) :
    DecidablePred (OnMove G s) := fun e =>
  inferInstanceAs (Decidable (∀ m ∈ e.move, G (s.ep m.1) m.2))

/-- What closing may change of a host. -/
def ClosingOnly (h h' : Host) : Prop :=
  ∃ st fin ack,
    h' = { h with closeAck := ack, sock := { h.sock with state := st, packetFIN := fin } }

variable {s s' : Conn} {e : ConnEv} {h h' : Host} {a b : TjuSockAddr}

theorem ClosingOnly.refl (h : Host) : ClosingOnly h h := ⟨_, _, _, rfl⟩

/-- What `s'` has made of the sockets of `s`: the socket that `e` moves makes its step and the
    other one stays, or both have changed by closing at most. -/
inductive HostsMove (s : Conn) (e : ConnEv) (s' : Conn) : Prop
  | sock (x : Side) (f : SockEv) : e.move = some (x, f) → sockStep (s.ep x) f = some (s'.ep x) →
      s'.ep x.peer = s.ep x.peer → HostsMove s e s'
  | closes : e.move = none → (∀ y, ClosingOnly (s.ep y) (s'.ep y)) → HostsMove s e s'

theorem closes_put {x : Side} {out : List Buf} {snt rd : List Byte} (hc : ClosingOnly (s.ep x) h)
    (y : Side) : ClosingOnly (s.ep y) ((s.put x h out snt rd).ep y) := by
  rcases Side.eq_or_peer x y with rfl | rfl
  · simpa using hc
  · simpa using ClosingOnly.refl _

/-- **What a step does to the sockets.** -/
theorem connStep_hosts (he : connStep s e = some s') : HostsMove s e s' := by
  cases connStep_move he with
  | @append x data sock _ ha =>
    refine .sock x (.append data) rfl ?_ (by simp)
    simp only [sockStep, ha, Option.map_some, Conn.put_ep_self]
  | @sendPass x now => exact .sock x (.sendPass now) rfl (by simp [sockStep]) (by simp)
  | @retransPass x _ _ ht =>
    exact .sock x .retransPass rfl (by simp [sockStep, ht]) (by simp)
  | @alarm x => exact .sock x .alarm rfl (by simp [sockStep]) (by simp)
  | @deliver x pkt _ now _ _ _ _ ht =>
    exact .sock x (.packet now pkt) rfl (by simp [sockStep, ht]) (by simp)
  | lose => exact .closes rfl fun y => by simpa using ClosingOnly.refl _
  | @recv x len _ _ hlen hr =>
    exact .sock x (.recv len) rfl (by simp [sockStep, hr, hlen]) (by simp)
  | close => exact .closes rfl (closes_put ⟨_, _, _, rfl⟩)
  | closeAgain => exact .closes rfl (closes_put (ClosingOnly.refl _))
  | resend => exact .closes rfl (closes_put (ClosingOnly.refl _))
  | silent => exact .closes rfl (closes_put (ClosingOnly.refl _))
  | finOut => exact .closes rfl (closes_put ⟨_, _, _, rfl⟩)
  | done => exact .closes rfl (closes_put ⟨_, _, _, rfl⟩)

/-- What the guarded steps of a socket keep, and closing does not touch, is kept by one step. -/
theorem HostsMove.keeps {I : Host → Prop} {G : Host → SockEv → Prop} (hm : HostsMove s e s')
    (hG : OnMove G s e) (hi : ∀ x, I (s.ep x))
    (hstep : ∀ h f h', I h → G h f → sockStep h f = some h' → I h')
    (hclose : ∀ h h', I h → ClosingOnly h h' → I h') (y : Side) : I (s'.ep y) := by
  cases hm with
  | sock x f hmove hf hpeer =>
    rcases Side.eq_or_peer x y with rfl | rfl
    · exact hstep _ f _ (hi _) (hG _ hmove) hf
    · rw [hpeer]
      exact hi _
  | closes _ hc => exact hclose _ _ (hi y) (hc y)

/-- **The rule for both sides.** -/
theorem ReachBy.hosts {I : Host → Prop} {G : Host → SockEv → Prop}
    (hr : ReachBy connStep (OnMove G) s s') (hi : ∀ x, I (s.ep x))
    (hstep : ∀ h f h', I h → G h f → sockStep h f = some h' → I h')
    (hclose : ∀ h h', I h → ClosingOnly h h' → I h') : ∀ x, I (s'.ep x) :=
  hr.inv (I := fun s => ∀ x, I (s.ep x)) hi fun _ _ _ hi hG he =>
    (connStep_hosts he).keeps hG hi hstep hclose

/-- A connection starts with two sockets that have just been connected. -/
theorem start_hosts {I : Host → Prop} {client server : TjuSockAddr} {net : Side → List Buf}
    (hi : ∀ a b, I (establishedHost a b)) (x : Side) : I ((Conn.start client server net).ep x) := by
  cases x <;> exact hi _ _

/-- What ACKs and timeouts keep holds of the send windows of both sides. -/
theorem window_hosts {I : SenderWindow → Prop} {client server : TjuSockAddr} {net : Side → List Buf}
    (hcongr : ∀ {v w}, I v → SameWindow v w → I w) (hinit : I .init)
    (hack : ∀ w ack adv, I w → I (ackWindow w ack adv)) (htimeout : ∀ w, I w → I (timeoutWindow w))
    (hr : Reach connStep (.start client server net) s) : ∀ x, I (s.ep x).sock.wndSend := by
  refine ReachBy.hosts (I := fun h => I h.sock.wndSend) (G := fun _ _ => True)
    (hr.weaken fun _ _ _ _ _ => trivial)
    (start_hosts (I := fun h => I h.sock.wndSend) fun _ _ => hinit) ?_ ?_
  · intro h f h' hi _ hf
    cases sockStep_window hf with
    | ack pkt _ hw => exact hcongr (hack _ _ _ hi) hw
    | timeout _ hw => exact hcongr (htimeout _ hi) hw
    | same _ hw => exact hcongr hi hw
  · rintro h _ hi ⟨_, _, _, rfl⟩
    exact hi

theorem congInv_hosts {client server : TjuSockAddr} {net : Side → List Buf}
    (hr : Reach connStep (.start client server net) s) : ∀ x, CongInv (s.ep x).sock.wndSend :=
  window_hosts CongInv.congr init_congInv (fun _ ack adv hw => hw.ack ack adv)
    (fun w _ => timeoutWindow_congInv w) hr

/-! ## The numbers only grow -/

/-- **`base` is never moved back**, as a plain number. -/
theorem base_mono {f : SockEv} (he : sockStep h f = some h') :
    h.sock.wndSend.base ≤ h'.sock.wndSend.base := by
  have hsame : h'.sock.wndSend.base = h.sock.wndSend.base →
      h.sock.wndSend.base ≤ h'.sock.wndSend.base := fun heq => heq ▸ BitVec.le_refl _
  cases f with
  | append data =>
    obtain ⟨sock', ha, rfl⟩ := Option.map_eq_some_iff.1 he
    obtain ⟨-, rfl⟩ := appendData_eq_some ha
    exact hsame rfl
  | sendPass now => cases he; exact hsame (sendingThread_base now h)
  | retransPass =>
    obtain ⟨⟨t, out⟩, ht, rfl⟩ := Option.map_eq_some_iff.1 he
    exact hsame (retransThread_base ht)
  | alarm => cases he; exact hsame rfl
  | packet now pkt =>
    obtain ⟨⟨t, out⟩, ht, rfl⟩ := Option.map_eq_some_iff.1 he
    rcases handle_sending ht with ⟨-, hw⟩ | ⟨hs, hf, -⟩
    · exact hsame (congrArg SenderWindow.base hw)
    · rw [(ack_step hs hf he).base, BitVec.le_def, cmax_toNat]
      exact le_max_left _ _
  | recv len =>
    simp only [sockStep] at he
    split_ifs at he
    obtain ⟨⟨sock', bytes⟩, hr, rfl⟩ := Option.map_eq_some_iff.1 he
    obtain ⟨-, rfl, -⟩ := tjuRecv_eq_some hr
    exact hsame rfl

/-- Only a pass of `sending_thread` moves `nextseq`. -/
theorem sockStep_nextseq {f : SockEv} (he : sockStep h f = some h')
    (hf : ∀ now, f ≠ .sendPass now) : h'.sock.wndSend.nextseq = h.sock.wndSend.nextseq := by
  cases f with
  | append data =>
    obtain ⟨sock', ha, rfl⟩ := Option.map_eq_some_iff.1 he
    obtain ⟨-, rfl⟩ := appendData_eq_some ha
    rfl
  | sendPass now => exact absurd rfl (hf now)
  | retransPass =>
    obtain ⟨⟨t, out⟩, ht, rfl⟩ := Option.map_eq_some_iff.1 he
    rcases retransThread_window ht with hw | hw
    · rw [hw]; rfl
    · rw [hw]
  | alarm => cases he; rfl
  | packet now pkt =>
    obtain ⟨⟨t, out⟩, ht, rfl⟩ := Option.map_eq_some_iff.1 he
    rcases handle_sending ht with ⟨-, hw⟩ | ⟨-, -, ha⟩
    · rw [hw]
    · exact handleAck_nextseq ha
  | recv len =>
    simp only [sockStep] at he
    split_ifs at he
    obtain ⟨⟨sock', bytes⟩, hr, rfl⟩ := Option.map_eq_some_iff.1 he
    obtain ⟨-, rfl, -⟩ := tjuRecv_eq_some hr
    rfl

theorem base_mono_step (he : connStep s e = some s') (y : Side) :
    (s.ep y).sock.wndSend.base ≤ (s'.ep y).sock.wndSend.base := by
  cases connStep_hosts he with
  | sock x f _ hf hpeer =>
    rcases Side.eq_or_peer x y with rfl | rfl
    · exact base_mono hf
    · rw [hpeer]
      exact BitVec.le_refl _
  | closes _ hc =>
    obtain ⟨_, _, _, heq⟩ := hc y
    rw [heq]
    exact BitVec.le_refl _

/-! ## What is advertised -/

/-- A window from 1 to `MAX_RWINDOW_SIZE`. -/
def AdvOk (n : ℕ) : Prop := 1 ≤ n ∧ n ≤ maxRwindowSize

/-- Both receivers have a window to advertise, every ACK in flight advertises one, and the senders
    have stored one. -/
structure WindowsOk (s : Conn) : Prop where
  remain : ∀ x, RemainOk (s.ep x).sock.wndRecv
  acks : ∀ x, ∀ p ∈ s.net x, getFlags p = ackFlagMask → AdvOk (getAdvertisedWindow p).toNat
  rwnd : ∀ x, AdvOk (s.ep x).sock.wndSend.rwnd.toNat

theorem replyAck_adv (pkt : Buf) (seq : BitVec 32) :
    AdvOk (getAdvertisedWindow (replyAck pkt seq)).toNat := by
  rw [replyAck_eq, getAdvertisedWindow_wire]
  exact show AdvOk (1 : BitVec 16).toNat from ⟨by decide, by decide⟩

theorem ackPacket_adv {sock : TjuTcp} (hr : RemainOk sock.wndRecv) :
    AdvOk (getAdvertisedWindow (ackPacket sock)).toNat := by
  rw [ackPacket_window sock hr]
  exact ⟨hr.pos, hr.le⟩

theorem ClosingOnly.wndRecv (hc : ClosingOnly h h') : h'.sock.wndRecv = h.sock.wndRecv := by
  obtain ⟨_, _, _, rfl⟩ := hc; rfl

theorem ClosingOnly.wndSend (hc : ClosingOnly h h') : h'.sock.wndSend = h.sock.wndSend := by
  obtain ⟨_, _, _, rfl⟩ := hc; rfl

/-- No step of a socket makes its receiver advertise an empty window. -/
theorem sockStep_remain {f : SockEv} (hr : RemainOk h.sock.wndRecv)
    (he : sockStep h f = some h') : RemainOk h'.sock.wndRecv := by
  cases f with
  | append data =>
    obtain ⟨sock', ha, rfl⟩ := Option.map_eq_some_iff.1 he
    obtain ⟨-, rfl⟩ := appendData_eq_some ha
    exact hr
  | sendPass now =>
    cases he
    rw [(sendingThread_rest now h).wndRecv]
    exact hr
  | retransPass =>
    obtain ⟨⟨t, out⟩, ht, rfl⟩ := Option.map_eq_some_iff.1 he
    rw [(retransThread_rest ht).wndRecv]
    exact hr
  | alarm => cases he; exact hr
  | packet now pkt =>
    obtain ⟨⟨t, out⟩, ht, rfl⟩ := Option.map_eq_some_iff.1 he
    rcases handle_receiving ht with ⟨-, hw⟩ | ⟨-, -, sock', hd, rfl⟩
    · rw [hw]
      exact hr
    · exact handleData_remain hd hr
  | recv len =>
    simp only [sockStep] at he
    split_ifs at he
    obtain ⟨⟨sock', bytes⟩, ht, rfl⟩ := Option.map_eq_some_iff.1 he
    obtain ⟨-, rfl, -⟩ := tjuRecv_eq_some ht
    exact hr

/-- The control packets of a step advertise a window, if they are ACKs. -/
theorem CtlStep.acks {x : Side} {st : State} {fin : Option Buf} {out : List Buf} {c : Bool}
    (hi : CtlInv s) (hw : ∀ x, RemainOk (s.ep x).sock.wndRecv) (hc : CtlStep s x e st fin out c) :
    ∀ p ∈ out, getFlags p = ackFlagMask → AdvOk (getAdvertisedWindow p).toNat := by
  intro p hp hf
  cases hc with
  | quiet => cases hp
  | dataAck _ _ _ hd =>
    rw [List.mem_singleton.1 hp]
    exact ackPacket_adv (handleData_remain hd (hw x))
  | finIn =>
    rw [List.mem_singleton.1 hp]
    exact replyAck_adv _ _
  | closeStep _ _ hcl =>
    obtain ⟨seq, rfl, -⟩ := hcl.acks p hp
    exact replyAck_adv _ _
  | close _ hfin =>
    rw [List.mem_singleton.1 hp, hfin] at hf
    exact absurd (finPacket_isFin _ _ _ (Or.inr rfl)).1 (not_isFin_ack hf)
  | @resend q hq =>
    rw [List.mem_singleton.1 hp] at hf
    exact absurd (hi.pending x q hq).1 (not_isFin_ack hf)
  | finOut _ hfin =>
    rw [List.mem_singleton.1 hp, hfin] at hf
    exact absurd (finPacket_isFin _ _ _ (Or.inl rfl)).1 (not_isFin_ack hf)
  | done => cases hp

theorem WindowsOk.step (hi : CtlInv s) (hw : WindowsOk s) (he : connStep s e = some s') :
    WindowsOk s' where
  remain := (connStep_hosts he).keeps (G := fun _ _ => True) (I := fun h => RemainOk h.sock.wndRecv)
    (fun _ _ => trivial) hw.remain (fun _ _ _ hr _ hf => sockStep_remain hr hf)
    fun _ _ hr hc => by rw [hc.wndRecv]; exact hr
  acks := by
    obtain ⟨x, st, fin, out, c, hctl, hv⟩ := connStep_ctl hi.notSynSent he
    intro y p hp hf
    rcases Side.eq_or_peer x y with rfl | rfl
    · exact hw.acks _ p (hv.net p hp) hf
    · rcases hv.netPeer p hp with hp | hp | ⟨-, hn⟩
      · exact hw.acks _ p hp hf
      · exact hctl.acks hi hw.remain p hp hf
      · exact absurd (hn.symm.trans hf) (by decide)
  rwnd := by
    intro y
    cases connStep_hosts he with
    | closes _ hc =>
      rw [(hc y).wndSend]
      exact hw.rwnd y
    | sock x f hmove hf hpeer =>
      rcases Side.eq_or_peer x y with rfl | rfl
      · cases sockStep_window hf with
        | timeout _ hsw => rw [hsw.rwnd]; exact hw.rwnd _
        | same _ hsw => rw [hsw.rwnd]; exact hw.rwnd _
        | ack pkt hack hsw =>
          -- the ACK was in flight
          have hadv : AdvOk (getAdvertisedWindow pkt).toNat := by
            cases connStep_move he with
            | deliver hp =>
              cases hmove
              dsimp only [ackOf] at hack
              split_ifs at hack with hg
              cases hack
              exact hw.acks _ _ hp hg.2
            | _ => cases hmove <;> cases hack
          rw [hsw.rwnd, ackWindow_rwnd, BitVec.toNat_setWidth, Nat.mod_eq_of_lt (by omega)]
          exact hadv
      · rw [hpeer]
        exact hw.rwnd _

theorem windowsOk_start (client server : TjuSockAddr) :
    WindowsOk (.start client server (handshake client server)) where
  remain := start_hosts (I := fun h => RemainOk h.sock.wndRecv) fun _ _ =>
    ⟨show 1 ≤ (BitVec.ofNat 32 maxRwindowSize).toNat by decide, le_rfl⟩
  acks x p hp hf := by
    cases x with
    | client =>
      rw [List.mem_singleton.1 hp, synAckPacket_flags] at hf
      exact absurd hf (by decide)
    | server =>
      simp only [Conn.start, handshake, List.mem_cons, List.not_mem_nil, or_false] at hp
      rcases hp with rfl | rfl
      · rw [synPacket_flags] at hf
        exact absurd hf (by decide)
      · exact replyAck_adv _ _
  rwnd := start_hosts (I := fun h => AdvOk h.sock.wndSend.rwnd.toNat) fun _ _ =>
    ⟨show 1 ≤ (BitVec.ofNat 32 maxRwindowSize).toNat by decide, le_rfl⟩

/-- **No window that is advertised is empty**, in any run of a connection. -/
theorem windowsOk_reached (client server : TjuSockAddr)
    (hr : Reach connStep (.start client server (handshake client server)) s) : WindowsOk s :=
  (hr.inv (I := fun s => CtlInv s ∧ WindowsOk s)
    ⟨ctlInv_start (handshake_not_isFin client server), windowsOk_start client server⟩
    fun _ _ _ hi _ he => ⟨ctlInv_step hi.1 he, hi.2.step hi.1 he⟩).2

end Tju
