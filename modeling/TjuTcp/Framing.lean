/-
  `receive_thread` (src/kernel.c): from datagrams to packets.

  The UDP socket is a queue of datagrams.  One iteration of the thread looks at
  the header of the first datagram and, unless the datagram is too short for
  one, reads from the socket until it has as many bytes as the header says.
  `none` stands for a `recvfrom` that blocks.

  * `receiveStep_framed`: a datagram that is at least as long as its header
    says, where that length is not 0, is taken out of the queue alone;
  * `receiveStep_unframed`: on any other one the iteration leaves the queue as
    it is, or goes on with the next datagrams, or blocks;
  * `framing`: so the queues that are taken one by one are those with only
    datagrams of the first kind.
-/
import TjuTcp.Packet

namespace Tju

open Lib

/-- `recvfrom` with `MSG_PEEK`, for `n` bytes. -/
def recvPeek (n : ℕ) : List Buf → Option Buf
  | [] => none
  | d :: _ => some (d.take n)

/-- `recvfrom` for `n` bytes: the rest of the datagram is lost. -/
def recvFrom (n : ℕ) : List Buf → Option (Buf × List Buf)
  | [] => none
  | d :: queue => some (d.take n, queue)

/-- The inner loop of `receive_thread`: `buf` are the first `buf_size` bytes of `pkt`. -/
def readPacket (plen : ℕ) : List Buf → Buf → Option (Buf × List Buf)
  | [], buf => if buf.length < plen then none else some (buf, [])
  | d :: queue, buf =>
    if buf.length < plen then
      (recvFrom (plen - buf.length) (d :: queue)).bind fun r => readPacket plen queue (buf ++ r.1)
    else some (buf, d :: queue)

/-- One iteration of `receive_thread`: the datagrams that are left, and the packet that
    `onTCPPocket` is called with, if it is. -/
def receiveStep (queue : List Buf) : Option (List Buf × Option Buf) := do
  let hdr ← recvPeek defaultHeaderLen.toNat queue
  if hdr.length ≥ defaultHeaderLen.toNat then
    let (pkt, queue) ← readPacket (getPlen hdr).toNat queue []
    some (queue, some pkt)
  else some (queue, none)

/-- What one iteration did: the datagrams it took out of the queue, and the call it made. -/
structure Round where
  taken : List Buf
  call : Option Buf

/-- The queue, and the iterations so far. -/
structure RecvThread where
  queue : List Buf
  rounds : List Round

/-- `n` iterations of `receive_thread`. -/
def receiveThread : ℕ → RecvThread → Option RecvThread
  | 0, s => some s
  | n + 1, s => do
    let (queue, call) ← receiveStep s.queue
    receiveThread n ⟨queue, s.rounds ++ [⟨s.queue.take (s.queue.length - queue.length), call⟩]⟩

/-! ## The datagrams -/

/-- A datagram that holds one packet: its length is that of its header. -/
def OnePacket (d : Buf) : Prop := 20 ≤ d.length ∧ d.length = (getPlen d).toNat

/-- A datagram that `receive_thread` takes out of the queue alone. -/
def Framed (d : Buf) : Prop :=
  20 ≤ d.length ∧ 1 ≤ (getPlen d).toNat ∧ (getPlen d).toNat ≤ d.length

/-- An iteration works on one datagram: it takes none and makes no call, or it takes one, calls
    `onTCPPocket` on bytes of this datagram if at all, and does so on all of it if it holds one
    packet. -/
def Round.OneDatagram (r : Round) : Prop :=
  r = ⟨[], none⟩ ∨ ∃ d, r.taken = [d] ∧ (OnePacket d → r.call = some d) ∧
    ∀ pkt, r.call = some pkt → pkt <+: d

variable {d : Buf} {queue : List Buf} {s s' : RecvThread} {r : Round}

/-- The header tells the length of the packet. -/
theorem getPlen_take (d : Buf) : getPlen (d.take 20) = getPlen d := by
  simp [getPlen, rd16, rd8]

theorem receiveStep_cons (d : Buf) (queue : List Buf) : receiveStep (d :: queue) =
    if 20 ≤ d.length then
      (readPacket (getPlen d).toNat (d :: queue) []).map fun r => (r.2, some r.1)
    else some (d :: queue, none) := by
  have h20 : defaultHeaderLen.toNat = 20 := rfl
  unfold receiveStep recvPeek
  rw [h20]
  simp only [Option.bind_eq_bind, Option.bind_some, List.length_take, getPlen_take]
  split_ifs with h1 h2 h2
  · cases readPacket (getPlen d).toNat (d :: queue) [] <;> rfl
  · omega
  · omega
  · rfl

theorem readPacket_cons (plen : ℕ) (buf : Buf) : readPacket plen (d :: queue) buf =
    if buf.length < plen then readPacket plen queue (buf ++ d.take (plen - buf.length))
    else some (buf, d :: queue) := rfl

/-- A framed datagram is taken out of the queue alone. -/
theorem receiveStep_framed (hd : Framed d) :
    receiveStep (d :: queue) = some (queue, some (d.take (getPlen d).toNat)) := by
  obtain ⟨h20, h1, hle⟩ := hd
  have hlen : (d.take (getPlen d).toNat).length = (getPlen d).toNat := by simp [hle]
  rw [receiveStep_cons, if_pos h20, readPacket_cons, if_pos (by simp; omega), List.nil_append,
    List.length_nil, Nat.sub_zero]
  cases queue <;> rw [readPacket, if_neg (by omega)] <;> rfl

/-- The inner loop takes datagrams from the front of the queue. -/
theorem readPacket_length {plen : ℕ} {queue queue' : List Buf} {buf pkt : Buf}
    (h : readPacket plen queue buf = some (pkt, queue')) : queue'.length ≤ queue.length := by
  induction queue generalizing buf with
  | nil =>
    unfold readPacket at h
    split_ifs at h
    cases h
    exact le_rfl
  | cons d queue ih =>
    rw [readPacket_cons] at h
    split_ifs at h
    · exact (ih h).trans (Nat.le_succ _)
    · cases h
      exact le_rfl

/-- On a datagram that is not framed an iteration takes none or two datagrams, or blocks. -/
theorem receiveStep_unframed (hd : ¬ Framed d) {queue' : List Buf} {call : Option Buf}
    (h : receiveStep (d :: queue) = some (queue', call)) :
    queue' = d :: queue ∨ queue'.length < queue.length := by
  rw [receiveStep_cons] at h
  split_ifs at h with h20
  · obtain ⟨⟨pkt, rest⟩, hr, h⟩ := Option.map_eq_some_iff.1 h
    cases h
    rw [readPacket_cons] at hr
    split_ifs at hr with h0
    · -- the first datagram is too short for the packet, so that a second one is read
      have hlt : d.length < (getPlen d).toNat := by
        by_contra hge
        exact hd ⟨h20, h0, not_lt.1 hge⟩
      cases queue with
      | nil =>
        rw [readPacket, if_pos (by simp; omega)] at hr
        cases hr
      | cons d' queue =>
        rw [readPacket_cons, if_pos (by simp; omega)] at hr
        exact Or.inr (Nat.lt_succ_of_le (readPacket_length hr))
    · cases hr
      exact Or.inl rfl
  · cases h
    exact Or.inl rfl

/-! ## Runs of the thread -/

theorem receiveThread_rounds {n : ℕ} {s s' : RecvThread} (h : receiveThread n s = some s') :
    s.rounds <+: s'.rounds := by
  induction n generalizing s with
  | zero => cases h; exact List.prefix_rfl
  | succ n ih =>
    obtain ⟨⟨queue, call⟩, -, h⟩ := Option.bind_eq_some_iff.1 h
    exact (List.prefix_append _ _).trans (ih h)

/-- A queue of framed datagrams is drained with one iteration for each. -/
theorem receiveThread_framed {queue : List Buf} (rounds : List Round) (hq : ∀ d ∈ queue, Framed d) :
    receiveThread queue.length ⟨queue, rounds⟩ =
      some ⟨[], rounds ++ queue.map fun d => ⟨[d], some (d.take (getPlen d).toNat)⟩⟩ := by
  induction queue generalizing rounds with
  | nil => simp [receiveThread]
  | cons d queue ih =>
    obtain ⟨hd, hq⟩ := List.forall_mem_cons.1 hq
    have hlen : (d :: queue).length - queue.length = 1 := by simp
    rw [List.length_cons, receiveThread, receiveStep_framed hd]
    simp only [Option.bind_eq_bind, Option.bind_some, hlen]
    rw [ih _ hq]
    simp

/-- A datagram that is not framed is not taken by iterations on one datagram. -/
theorem receiveThread_stuck (hd : ¬ Framed d) {n : ℕ} {s s' : RecvThread}
    (hs : s.queue = d :: queue) (h : receiveThread n s = some s')
    (hone : ∀ r ∈ s'.rounds, r.OneDatagram) : s'.queue = d :: queue := by
  induction n generalizing s with
  | zero => cases h; exact hs
  | succ n ih =>
    obtain ⟨⟨queue', call⟩, hstep, h⟩ := Option.bind_eq_some_iff.1 h
    have hround := hone _ ((receiveThread_rounds h).subset (List.mem_append_right _ List.mem_cons_self))
    rw [hs] at hstep hround
    rcases receiveStep_unframed hd hstep with rfl | hlt
    · exact ih rfl h
    · -- two datagrams at least are taken
      have htwo : 2 ≤ ((d :: queue).take ((d :: queue).length - queue'.length)).length := by
        simp; omega
      rcases hround with hnone | ⟨d', htaken, -⟩
      · have htaken : (d :: queue).take ((d :: queue).length - queue'.length) = [] :=
          congrArg Round.taken hnone
        rw [htaken] at htwo
        exact absurd htwo (by simp)
      · dsimp only at htaken
        rw [htaken] at htwo
        exact absurd htwo (by simp)

theorem framed_of_drained {n : ℕ} {s s' : RecvThread} (h : receiveThread n s = some s')
    (hq : s'.queue = []) (hone : ∀ r ∈ s'.rounds, r.OneDatagram) : ∀ d ∈ s.queue, Framed d := by
  induction n generalizing s with
  | zero =>
    cases h
    rw [hq]
    exact fun d hd => by cases hd
  | succ n ih =>
    obtain ⟨queue, rounds⟩ := s
    cases queue with
    | nil => exact fun d hd => by cases hd
    | cons d queue =>
      by_cases hf : Framed d
      · obtain ⟨⟨queue', call⟩, hstep, h⟩ := Option.bind_eq_some_iff.1 h
        rw [receiveStep_framed hf] at hstep
        cases hstep
        exact List.forall_mem_cons.2 ⟨hf, ih h⟩
      · rw [receiveThread_stuck hf rfl h hone] at hq
        cases hq

/-- **Datagrams are framed one by one**, each in its own iteration, just on the queues whose
    datagrams all hold at least as many bytes as their header says, and at least one. -/
theorem framing (queue : List Buf) :
    (∃ n s, receiveThread n ⟨queue, []⟩ = some s ∧ s.queue = [] ∧
        (s.rounds.map Round.taken).flatten = queue ∧ ∀ r ∈ s.rounds, r.OneDatagram) ↔
      ∀ d ∈ queue, Framed d := by
  constructor
  · rintro ⟨n, s, h, hq, -, hone⟩
    exact framed_of_drained h hq hone
  · intro hq
    refine ⟨_, _, receiveThread_framed [] hq, rfl, ?_, ?_⟩
    · rw [List.nil_append, List.map_map]
      exact List.flatMap_singleton' queue
    · rw [List.nil_append]
      intro r hr
      obtain ⟨d, hd, rfl⟩ := List.mem_map.1 hr
      refine Or.inr ⟨d, rfl, fun h1 => ?_, fun pkt hp => ?_⟩
      · rw [← h1.2, List.take_length]
      · cases hp
        exact List.take_prefix _ _

/-- A datagram of one byte stays at the front of the queue for ever. -/
theorem framing_short :
    ¬ ∃ n s, receiveThread n ⟨[[0]], []⟩ = some s ∧ s.queue = [] ∧
        (s.rounds.map Round.taken).flatten = [[0]] ∧ ∀ r ∈ s.rounds, r.OneDatagram := by
  rintro ⟨n, s, h, hq, -, hone⟩
  exact absurd (framed_of_drained h hq hone [0] List.mem_cons_self).1 (by decide)

end Tju
