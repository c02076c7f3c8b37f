/-
  Reassembly buffers.

  Segments of a stream arrive in any order, with overlaps and duplicates.  A
  reassembly buffer remembers the segments it accepted, newest first; where
  segments overlap, the newest one counts (`cover`).  It delivers the longest
  run of covered positions from `next` on, as far as the reader leaves room.

  * `arrive W cap`: one segment arrives, with a window of `W` positions and
    room for `cap` delivered but not yet taken elements;
  * `Inv`: the delivered elements are the covered ones, position by position,
    and nothing is covered at or behind the last position of the window;
  * `accept_inv`, `deliver_inv`, `take_inv`: an arrival, which accepts and
    delivers, and a read keep the invariant;
  * `arrive_covers`: all of an arriving segment is covered just if it ends in
    front of the last position of the window;
  * `Agrees.out_eq`: if the accepted segments are pieces of a stream, then
    what is delivered is a prefix of that stream.
-/
import Mathlib

namespace Lib

variable {α : Type*}

/-- A segment: its elements, from the position `off` on. -/
structure Seg (α : Type*) where
  off : ℕ
  data : List α

/-- The element of a segment at position `n`. -/
def Seg.at? (s : Seg α) (n : ℕ) : Option α := if s.off ≤ n then s.data[n - s.off]? else none

/-- The element at position `n` of the first segment of the list that covers `n`. -/
def cover : List (Seg α) → ℕ → Option α
  | [], _ => none
  | s :: segs, n => (s.at? n).or (cover segs n)

theorem Seg.at?_eq_none {s : Seg α} {n : ℕ} : s.at? n = none ↔ n < s.off ∨ s.off + s.data.length ≤ n := by
  unfold Seg.at?
  split_ifs with h
  · rw [List.getElem?_eq_none_iff]; omega
  · simp; omega

theorem Seg.at?_eq_some {s : Seg α} {n : ℕ} {b : α} :
    s.at? n = some b ↔ s.off ≤ n ∧ s.data[n - s.off]? = some b := by
  unfold Seg.at?; split_ifs with h <;> simp [h]

theorem cover_cons_in {s : Seg α} {segs : List (Seg α)} {n : ℕ} {b : α} (h : s.at? n = some b) :
    cover (s :: segs) n = some b := by simp [cover, h]

theorem cover_cons_out {s : Seg α} {segs : List (Seg α)} {n : ℕ} (h : s.at? n = none) :
    cover (s :: segs) n = cover segs n := by simp [cover, h]

/-- A reassembly buffer: the accepted segments, the next position to deliver, the delivered
    elements, and how many of them the reader has taken. -/
structure Reasm (α : Type*) where
  segs : List (Seg α)
  next : ℕ
  out : List α
  taken : ℕ

namespace Reasm
variable {r : Reasm α} {o W cap : ℕ}

/-- The empty buffer of a stream that starts at position `o`. -/
def start (o : ℕ) : Reasm α := ⟨[], o, [], 0⟩

/-- The length of the covered run at `next`. -/
noncomputable def ready (r : Reasm α) : ℕ := sInf {k | cover r.segs (r.next + k) = none}

/-- A segment inside the window is accepted, others are dropped. -/
def accept (W : ℕ) (s : Seg α) (r : Reasm α) : Reasm α :=
  if s.off + s.data.length < r.next + W then { r with segs := s :: r.segs } else r

/-- The covered run is delivered, if the reader has left room for it. -/
noncomputable def deliver (cap : ℕ) (r : Reasm α) : Reasm α :=
  if r.out.length - r.taken + r.ready ≤ cap then
    { r with
      next := r.next + r.ready
      out := r.out ++ (List.range r.ready).filterMap fun i => cover r.segs (r.next + i) }
  else r

/-- A segment arrives.  Those that start below `next` are dropped. -/
noncomputable def arrive (W cap : ℕ) (s : Seg α) (r : Reasm α) : Reasm α :=
  if r.next ≤ s.off then deliver cap (accept W s r) else r

/-- The reader takes `n` elements, or all there are. -/
def take (n : ℕ) (r : Reasm α) : Reasm α := { r with taken := min (r.taken + n) r.out.length }

/-- What the reader finds. -/
def pending (r : Reasm α) : List α := r.out.drop r.taken

/-! ## The invariant -/

structure Inv (o W cap : ℕ) (r : Reasm α) : Prop where
  next : r.next = o + r.out.length
  out : ∀ i < r.out.length, r.out[i]? = cover r.segs (o + i)
  edge : ∀ n, r.next + W ≤ n + 1 → cover r.segs n = none
  taken : r.taken ≤ r.out.length
  room : r.out.length - r.taken ≤ cap

theorem start_inv (o W cap : ℕ) : (start o : Reasm α).Inv o W cap :=
  ⟨rfl, fun i hi => absurd hi (by simp [start]), fun _ _ => rfl, le_rfl, by simp [start]⟩

theorem ready_spec (h : r.Inv o W cap) :
    (∀ i < r.ready, (cover r.segs (r.next + i)).isSome) ∧
      cover r.segs (r.next + r.ready) = none := by
  have hne : {k | cover r.segs (r.next + k) = none}.Nonempty := ⟨W, h.edge _ (by omega)⟩
  refine ⟨fun i hi => ?_, Nat.sInf_mem hne⟩
  have hi' : ¬ cover r.segs (r.next + i) = none := Nat.notMem_of_lt_sInf hi
  exact Option.isSome_iff_ne_none.2 hi'

theorem ready_eq {k : ℕ} (hk : ∀ i < k, (cover r.segs (r.next + i)).isSome)
    (hn : cover r.segs (r.next + k) = none) : r.ready = k := by
  refine le_antisymm (Nat.sInf_le hn) (le_of_not_gt fun hlt => ?_)
  have hmem : cover r.segs (r.next + r.ready) = none :=
    Nat.sInf_mem (s := {k | cover r.segs (r.next + k) = none}) ⟨k, hn⟩
  simpa [hmem] using hk _ hlt

theorem ready_lt (h : r.Inv o W cap) (hW : 0 < W) : r.ready < W := by
  by_contra hc
  have hsome := (ready_spec h).1 (W - 1) (by omega)
  rw [h.edge _ (by omega)] at hsome
  cases hsome

/-- The run that `deliver` appends, element by element. -/
theorem run_getElem? {f : ℕ → Option α} {k : ℕ} (h : ∀ i < k, (f i).isSome) :
    ((List.range k).filterMap f).length = k ∧
      ∀ i < k, ((List.range k).filterMap f)[i]? = f i := by
  induction k with
  | zero => exact ⟨rfl, fun i hi => absurd hi (by omega)⟩
  | succ k ih =>
    obtain ⟨hl, hg⟩ := ih fun i hi => h i (by omega)
    obtain ⟨b, hb⟩ := Option.isSome_iff_exists.1 (h k (by omega))
    simp only [List.range_succ, List.filterMap_append, List.filterMap_cons, hb,
      List.filterMap_nil, List.length_append, List.length_singleton]
    refine ⟨by omega, fun i hi => ?_⟩
    rcases Nat.lt_succ_iff_lt_or_eq.1 hi with hi | rfl
    · rw [List.getElem?_append_left (by omega), hg i hi]
    · rw [List.getElem?_append_right (by omega), hl, hb]; simp

theorem accept_inv (h : r.Inv o W cap) {s : Seg α} (hs : r.next ≤ s.off) :
    (r.accept W s).Inv o W cap := by
  unfold accept
  split_ifs with hW
  · refine ⟨h.next, fun i hi => ?_, fun n hn => ?_, h.taken, h.room⟩
    · have hn := h.next
      simp only at hi
      rw [cover_cons_out (Seg.at?_eq_none.2 (Or.inl (by omega)))]
      exact h.out i hi
    · rw [cover_cons_out (Seg.at?_eq_none.2 (Or.inr (by simp only at hn; omega)))]
      exact h.edge n hn
  · exact h

theorem deliver_inv (h : r.Inv o W cap) : (r.deliver cap).Inv o W cap := by
  unfold deliver
  split_ifs with hroom
  · obtain ⟨hl, hg⟩ := run_getElem? (ready_spec h).1
    have ht := h.taken
    refine ⟨?_, fun i hi => ?_, fun n hn => h.edge n (by simp only at hn; omega), ?_, ?_⟩
    · have hn := h.next
      simp only [List.length_append, hl]; omega
    · simp only [List.length_append, hl] at hi
      rcases Nat.lt_or_ge i r.out.length with hi' | hi'
      · rw [List.getElem?_append_left hi']; exact h.out i hi'
      · rw [List.getElem?_append_right hi', hg _ (by omega), h.next]; congr 1; omega
    · simp only [List.length_append]; omega
    · simp only [List.length_append, hl]; omega
  · exact h

/-- Nothing is delivered if nothing is ready. -/
theorem deliver_eq_self (h : r.ready = 0) : r.deliver cap = r := by
  unfold deliver
  simp [h]

theorem take_inv (h : r.Inv o W cap) (n : ℕ) : (r.take n).Inv o W cap :=
  ⟨h.next, h.out, h.edge, by simp [take], by have := h.room; simp only [take]; omega⟩

theorem next_le_arrive (r : Reasm α) (W cap : ℕ) (s : Seg α) : r.next ≤ (r.arrive W cap s).next := by
  unfold arrive deliver accept
  split_ifs <;> simp

/-- **The next segment** is delivered, if the reader has left room for a window. -/
theorem next_lt_arrive (h : r.Inv o W cap) {s : Seg α} (hs : s.off = r.next) (hne : s.data ≠ [])
    (hW : s.data.length < W) (hroom : r.out.length - r.taken + W ≤ cap) :
    r.next < (r.arrive W cap s).next := by
  have hpos := List.length_pos_iff.2 hne
  have hin : s.off + s.data.length < r.next + W := by omega
  have hinv : ({ r with segs := s :: r.segs } : Reasm α).Inv o W cap := by
    have := accept_inv h hs.ge
    rwa [accept, if_pos hin] at this
  have hready : ({ r with segs := s :: r.segs } : Reasm α).ready ≠ 0 := by
    intro h0
    -- the first element of the segment is covered
    have hnone := (ready_spec hinv).2
    rw [h0, Nat.add_zero] at hnone
    have hat : s.at? r.next = some s.data[0] :=
      Seg.at?_eq_some.2 ⟨hs.le, by rw [hs, Nat.sub_self, List.getElem?_eq_getElem hpos]⟩
    rw [cover_cons_in hat] at hnone
    cases hnone
  have hlt := ready_lt hinv (by omega)
  unfold arrive accept deliver
  rw [if_pos hs.ge, if_pos hin, if_pos (by dsimp only; omega)]
  exact Nat.lt_add_of_pos_right (Nat.pos_of_ne_zero hready)

theorem cover_self {segs : List (Seg α)} {s : Seg α} {i : ℕ} (hi : i < s.data.length) :
    (cover (s :: segs) (s.off + i)).isSome := by
  have hat : s.at? (s.off + i) = some s.data[i] :=
    Seg.at?_eq_some.2 ⟨by omega, by rw [Nat.add_sub_cancel_left, List.getElem?_eq_getElem hi]⟩
  rw [cover_cons_in hat]
  rfl

theorem arrive_segs (r : Reasm α) (W cap : ℕ) (s : Seg α) : (r.arrive W cap s).segs =
    if r.next ≤ s.off ∧ s.off + s.data.length < r.next + W then s :: r.segs else r.segs := by
  unfold arrive deliver accept
  split_ifs <;> first | rfl | omega

/-- **An arriving segment is covered** just if it ends in front of the last position of the
    window. -/
theorem arrive_covers (h : r.Inv o W cap) {s : Seg α} (hs : r.next ≤ s.off) :
    (∀ i < s.data.length, (cover (r.arrive W cap s).segs (s.off + i)).isSome) ↔
      s.data.length = 0 ∨ s.off + s.data.length < r.next + W := by
  rw [arrive_segs]
  constructor
  · intro hall
    rcases Nat.eq_zero_or_pos s.data.length with h0 | hpos
    · exact Or.inl h0
    · by_contra hout
      -- its last element is at or behind the edge, where nothing is covered
      have hlast := hall (s.data.length - 1) (by omega)
      rw [if_neg (by omega), h.edge _ (by omega)] at hlast
      cases hlast
  · rintro hin i hi
    rw [if_pos ⟨hs, by omega⟩]
    exact cover_self hi

/-- Every position below `next` is covered. -/
theorem cover_delivered (h : r.Inv o W cap) {n : ℕ} (ho : o ≤ n) (hn : n < r.next) :
    (cover r.segs n).isSome := by
  have hnext := h.next
  have hout := h.out (n - o) (by omega)
  rw [show o + (n - o) = n by omega, List.getElem?_eq_getElem (by omega)] at hout
  rw [← hout]
  rfl

/-! ## Pieces of one stream -/

/-- The accepted segments agree with the stream `S`, which starts at position `o`. -/
def Agrees (o : ℕ) (S : List α) (r : Reasm α) : Prop :=
  ∀ n b, cover r.segs n = some b → o ≤ n ∧ S[n - o]? = some b

/-- The segment `s` is a piece of the stream `S`. -/
def Piece (o : ℕ) (S : List α) (s : Seg α) : Prop :=
  o ≤ s.off ∧ ∀ i < s.data.length, s.data[i]? = S[s.off - o + i]?

variable {S T : List α} {s : Seg α}

theorem start_agrees (o : ℕ) (S : List α) : (start o : Reasm α).Agrees o S :=
  fun _ _ h => by simp [start, cover] at h

theorem Piece.append (h : Piece o S s) (hS : s.off - o + s.data.length ≤ S.length) :
    Piece o (S ++ T) s :=
  ⟨h.1, fun i hi => by rw [h.2 i hi, List.getElem?_append_left (by omega)]⟩

theorem Agrees.append (h : r.Agrees o S) : r.Agrees o (S ++ T) := fun n b hb => by
  obtain ⟨h1, h2⟩ := h n b hb
  have hlt := (List.getElem?_eq_some_iff.1 h2).1
  exact ⟨h1, by rw [List.getElem?_append_left hlt, h2]⟩

theorem Agrees.arrive (h : r.Agrees o S) (hs : Piece o S s) : (r.arrive W cap s).Agrees o S := by
  have hcons : ({ r with segs := s :: r.segs } : Reasm α).Agrees o S := fun n b hb => by
    cases hat : s.at? n with
    | none => exact h n b (by rwa [← cover_cons_out hat])
    | some b' =>
      simp only [cover_cons_in hat, Option.some.injEq] at hb
      obtain ⟨h1, h2⟩ := Seg.at?_eq_some.1 hat
      obtain ⟨hlt, -⟩ := List.getElem?_eq_some_iff.1 h2
      have ho := hs.1
      rw [hs.2 _ hlt, hb] at h2
      exact ⟨by omega, by rw [← h2]; congr 1; omega⟩
  unfold Reasm.arrive deliver accept
  split_ifs
  · exact hcons
  · exact hcons
  · exact h
  · exact h
  · exact h

/-- **What is delivered is a prefix of the stream.** -/
theorem Agrees.out_eq (h : r.Agrees o S) (hr : r.Inv o W cap) :
    r.out = S.take r.out.length ∧ r.out.length ≤ S.length := by
  have hget : ∀ i < r.out.length, r.out[i]? = S[i]? := fun i hi => by
    obtain ⟨b, hb⟩ : ∃ b, r.out[i]? = some b := ⟨_, List.getElem?_eq_getElem hi⟩
    have hc := hr.out i hi
    rw [hb] at hc
    have := (h (o + i) b hc.symm).2
    rw [hb, ← this]; congr 1; omega
  have hlen : r.out.length ≤ S.length := by
    by_contra hlt
    have := hget S.length (by omega)
    rw [List.getElem?_eq_none (le_refl S.length), List.getElem?_eq_none_iff] at this
    omega
  refine ⟨List.ext_getElem? fun i => ?_, hlen⟩
  rcases Nat.lt_or_ge i r.out.length with hi | hi
  · rw [hget i hi, List.getElem?_take_of_lt hi]
  · rw [List.getElem?_eq_none hi, List.getElem?_eq_none (by simp; omega)]

end Reasm

end Lib
