/-
  Arrivals in any order.

  The segments of a set `T` arrive one after the other, each at least once.
  `arriveTo M W` is an arrival over the numbers below `M`: once the right edge
  of the window has come to `M`, nothing is accepted any more.

  * `Covered T n`, `runLen T o`: what the segments of `T` cover, and the length
    of the run that they cover from `o` on;
  * `Apart o W T`: the segments are not empty, do not overlap, and lie in the
    first window;
  * `Collects`: the buffer has accepted segments of `T` only and has delivered
    the run that these cover; `arriveAll_collects`: every list of arrivals
    keeps it;
  * `accepts_all_iff`: every order of arrival has all segments accepted, if
    and only if for each of them the run of the others leaves the right edge
    below `M`;
  * `Collects.out_eq`, `Collects.cover_eq`: if all are accepted, and are pieces
    of one stream, then what is delivered and what is still in the window
    depend on the set alone.
-/
import TjuTcp.Lib.Reassembly

namespace Lib

variable {α : Type*} {T U : Set (Seg α)} {s t : Seg α} {n o W M : ℕ}

/-- A segment of `T` has the position `n`. -/
def Covered (T : Set (Seg α)) (n : ℕ) : Prop := ∃ s ∈ T, s.off ≤ n ∧ n < s.off + s.data.length

/-- The length of the run that the segments of `T` cover from `o` on. -/
noncomputable def runLen (T : Set (Seg α)) (o : ℕ) : ℕ := sInf {k | ¬ Covered T (o + k)}

/-- Segments that are not empty, do not overlap, and end in front of the last position of the
    window at `o`. -/
structure Apart (o W : ℕ) (T : Set (Seg α)) : Prop where
  pos : ∀ s ∈ T, 0 < s.data.length
  disjoint : ∀ s ∈ T, ∀ t ∈ T, s ≠ t →
    s.off + s.data.length ≤ t.off ∨ t.off + t.data.length ≤ s.off
  after : ∀ s ∈ T, o ≤ s.off
  before : ∀ s ∈ T, s.off + s.data.length < o + W

theorem Covered.mono (h : T ⊆ U) (hc : Covered T n) : Covered U n := by
  obtain ⟨s, hs, hin⟩ := hc
  exact ⟨s, h hs, hin⟩

theorem cover_eq_some {segs : List (Seg α)} {b : α} (h : cover segs n = some b) :
    ∃ s ∈ segs, s.at? n = some b := by
  induction segs with
  | nil => cases h
  | cons s segs ih =>
    cases hat : s.at? n with
    | some c =>
      rw [cover_cons_in hat] at h
      cases h
      exact ⟨s, List.mem_cons_self, hat⟩
    | none =>
      rw [cover_cons_out hat] at h
      obtain ⟨t, ht, hb⟩ := ih h
      exact ⟨t, List.mem_cons_of_mem _ ht, hb⟩

theorem cover_isSome_iff {segs : List (Seg α)} :
    (cover segs n).isSome ↔ Covered {s | s ∈ segs} n := by
  induction segs with
  | nil => exact iff_of_false (by simp [cover]) (fun ⟨_, hs, _⟩ => by cases hs)
  | cons s segs ih =>
    have hcons : Covered {t | t ∈ s :: segs} n ↔
        (s.off ≤ n ∧ n < s.off + s.data.length) ∨ Covered {t | t ∈ segs} n := by
      simp [Covered]
    rw [hcons, ← ih]
    cases hat : s.at? n with
    | some c =>
      have hin : ¬ (n < s.off ∨ s.off + s.data.length ≤ n) := by
        rw [← Seg.at?_eq_none, hat]
        simp
      rw [cover_cons_in hat]
      exact iff_of_true rfl (Or.inl (by omega))
    | none =>
      have hout := Seg.at?_eq_none.1 hat
      rw [cover_cons_out hat, or_iff_right (by omega)]

/-! ## Runs of covered positions -/

theorem covered_of_lt_runLen {i : ℕ} (hi : i < runLen T o) : Covered T (o + i) :=
  not_not.1 (Nat.notMem_of_lt_sInf hi)

theorem runLen_le (h : ¬ Covered T (o + n)) : runLen T o ≤ n := Nat.sInf_le h

theorem runLen_end (h : ¬ Covered T (o + n)) : ¬ Covered T (o + runLen T o) :=
  Nat.sInf_mem (s := {k | ¬ Covered T (o + k)}) ⟨n, h⟩

theorem runLen_eq (hc : ∀ i < n, Covered T (o + i)) (h : ¬ Covered T (o + n)) :
    runLen T o = n := by
  refine le_antisymm (runLen_le h) (le_of_not_gt fun hlt => ?_)
  exact runLen_end h (hc _ hlt)

/-- More segments cover a longer run. -/
theorem runLen_mono (h : T ⊆ U) (hU : ¬ Covered U (o + n)) : runLen T o ≤ runLen U o :=
  runLen_le fun hc => runLen_end hU (hc.mono h)

/-! ## Segments apart -/

namespace Apart

theorem mono (h : Apart o W T) (hU : U ⊆ T) : Apart o W U where
  pos s hs := h.pos s (hU hs)
  disjoint s hs t ht := h.disjoint s (hU hs) t (hU ht)
  after s hs := h.after s (hU hs)
  before s hs := h.before s (hU hs)

/-- Two segments with one position are the same. -/
theorem eq_of_covered (h : Apart o W T) (hs : s ∈ T) (ht : t ∈ T) (hsn : s.off ≤ n)
    (hsn' : n < s.off + s.data.length) (htn : t.off ≤ n) (htn' : n < t.off + t.data.length) :
    s = t := by
  by_contra hne
  rcases h.disjoint s hs t ht hne with hle | hle <;> omega

theorem not_covered (h : Apart o W T) (hn : o + W ≤ n + 1) : ¬ Covered T n := by
  rintro ⟨s, hs, -, hlt⟩
  have hb := h.before s hs
  omega

theorem runLen_le (h : Apart o W T) : runLen T o ≤ W :=
  Lib.runLen_le (h.not_covered (by omega))

end Apart

/-! ## One arrival -/

namespace Reasm
variable {r : Reasm α}

/-- A segment arrives, over the numbers below `M`. -/
noncomputable def arriveTo (M W : ℕ) (s : Seg α) (r : Reasm α) : Reasm α :=
  if r.next + W < M then r.arrive W W s else r

/-- The segments of a list arrive. -/
noncomputable def arriveAll (M W : ℕ) : List (Seg α) → Reasm α → Reasm α
  | [], r => r
  | s :: L, r => arriveAll M W L (r.arriveTo M W s)

/-- All that the buffer has accepted is from `T`, and the run that it covers is delivered. -/
structure Collects (o W : ℕ) (T : Set (Seg α)) (r : Reasm α) : Prop where
  inv : r.Inv o W W
  segs : ∀ s ∈ r.segs, s ∈ T
  ready : r.ready = 0
  taken : r.taken = 0

theorem start_collects (o W : ℕ) (T : Set (Seg α)) : Collects o W T (start o) where
  inv := start_inv o W W
  segs s hs := by cases hs
  ready := ready_eq (fun i hi => absurd hi (Nat.not_lt_zero i)) rfl
  taken := rfl

/-- Once the right edge has come to `M`, nothing is accepted. -/
theorem arriveTo_refused (hM : M ≤ r.next + W) : r.arriveTo M W s = r := by
  unfold arriveTo
  rw [if_neg (by omega)]

/-- What starts below `next` is dropped. -/
theorem arriveTo_dropped (hs : s.off < r.next) : r.arriveTo M W s = r := by
  unfold arriveTo arrive
  rw [if_neg (show ¬ r.next ≤ s.off by omega), ite_self]

theorem next_le_arriveTo (r : Reasm α) (M W : ℕ) (s : Seg α) :
    r.next ≤ (r.arriveTo M W s).next := by
  unfold arriveTo
  split_ifs
  · exact next_le_arrive r W W s
  · exact le_rfl

theorem mem_arriveTo (hs : s ∈ r.segs) : s ∈ (r.arriveTo M W t).segs := by
  unfold arriveTo
  split_ifs
  · rw [arrive_segs]
    split_ifs
    · exact List.mem_cons_of_mem _ hs
    · exact hs
  · exact hs

/-- After a delivery with enough room, nothing is ready. -/
theorem deliver_ready (h : r.Inv o W W) (hroom : r.out.length - r.taken + r.ready ≤ W) :
    (r.deliver W).ready = 0 := by
  have hend := (ready_spec h).2
  unfold deliver
  rw [if_pos hroom]
  exact ready_eq (fun i hi => absurd hi (Nat.not_lt_zero i)) hend

/-- What is ready to be delivered lies in the first window. -/
theorem ready_room (hT : Apart o W T) (h : r.Inv o W W) (hsegs : ∀ s ∈ r.segs, s ∈ T) :
    r.out.length - r.taken + r.ready ≤ W := by
  have hnext := h.next
  have hroom := h.room
  rcases Nat.eq_zero_or_pos r.ready with h0 | hpos
  · omega
  · have hlast := (ready_spec h).1 (r.ready - 1) (by omega)
    rw [cover_isSome_iff] at hlast
    have hcov : Covered T (r.next + (r.ready - 1)) := hlast.mono hsegs
    by_contra hfull
    exact hT.not_covered (by omega) hcov

namespace Collects

/-- The accepted segments cover just the delivered positions in front of `next`. -/
theorem next_eq (h : Collects o W T r) : r.next = o + runLen {s | s ∈ r.segs} o := by
  have hnext := h.inv.next
  have hend := (ready_spec h.inv).2
  rw [h.ready] at hend
  have hrun : runLen {s | s ∈ r.segs} o = r.out.length := by
    refine runLen_eq (fun i hi => ?_) ?_
    · rw [← cover_isSome_iff]
      exact cover_delivered h.inv (by omega) (by omega)
    · rw [← cover_isSome_iff, ← hnext]
      simpa using hend
  omega

theorem accept_eq (hT : Apart o W T) (hs : s ∈ T) (h : Collects o W T r) :
    r.accept W s = { r with segs := s :: r.segs } := by
  have hnext := h.inv.next
  have hbefore := hT.before s hs
  unfold accept
  rw [if_pos (by omega)]

/-- Once a segment has been accepted, there is room for all that is ready. -/
theorem accepted (hT : Apart o W T) (hs : s ∈ T) (hle : r.next ≤ s.off) (h : Collects o W T r) :
    (r.accept W s).Inv o W W ∧ (∀ t ∈ (r.accept W s).segs, t ∈ T) ∧
      (r.accept W s).out.length - (r.accept W s).taken + (r.accept W s).ready ≤ W := by
  have hinv := accept_inv (W := W) h.inv hle
  rw [h.accept_eq hT hs] at hinv ⊢
  have hsegs : ∀ t ∈ s :: r.segs, t ∈ T := fun t ht => by
    rcases List.mem_cons.1 ht with rfl | ht
    · exact hs
    · exact h.segs t ht
  exact ⟨hinv, hsegs, ready_room hT hinv hsegs⟩

theorem arriveTo (hT : Apart o W T) (hs : s ∈ T) (h : Collects o W T r) :
    Collects o W T (r.arriveTo M W s) := by
  unfold Reasm.arriveTo arrive
  split_ifs with hM hle
  · obtain ⟨hinv, hsegs, hroom⟩ := h.accepted hT hs hle
    refine ⟨deliver_inv hinv, ?_, deliver_ready hinv hroom, ?_⟩
    · unfold deliver
      rwa [if_pos hroom]
    · unfold deliver
      rw [if_pos hroom, h.accept_eq hT hs]
      exact h.taken
  · exact h
  · exact h

/-- **An arriving segment is accepted**, now or before, as long as the right edge is below `M`. -/
theorem arriveTo_mem (hT : Apart o W T) (hs : s ∈ T) (h : Collects o W T r) :
    s ∈ (r.arriveTo M W s).segs ∨ M ≤ r.next + W := by
  rcases Nat.lt_or_ge (r.next + W) M with hM | hM
  · left
    have hnext := h.inv.next
    have hafter := hT.after s hs
    have hbefore := hT.before s hs
    have hpos := hT.pos s hs
    unfold Reasm.arriveTo
    rw [if_pos hM, arrive_segs]
    by_cases hle : r.next ≤ s.off
    · rw [if_pos ⟨hle, by omega⟩]
      exact List.mem_cons_self
    · -- it starts where all is delivered, by a segment that can only be itself
      rw [if_neg (by omega)]
      obtain ⟨t, ht, hoff, hlt⟩ := cover_isSome_iff.1 (cover_delivered h.inv hafter (by omega))
      have heq : s = t := hT.eq_of_covered hs (h.segs t ht) le_rfl (by omega) hoff hlt
      rw [heq]
      exact ht
  · exact Or.inr hM

end Collects

/-! ## All arrivals -/

section
variable {L : List (Seg α)}

theorem arriveAll_append (L' : List (Seg α)) :
    arriveAll M W (L ++ L') r = arriveAll M W L' (arriveAll M W L r) := by
  induction L generalizing r with
  | nil => rfl
  | cons s L ih => exact ih

theorem arriveAll_collects (hT : Apart o W T) (hL : ∀ s ∈ L, s ∈ T) (h : Collects o W T r) :
    Collects o W T (arriveAll M W L r) := by
  induction L generalizing r with
  | nil => exact h
  | cons s L ih =>
    obtain ⟨hs, hL⟩ := List.forall_mem_cons.1 hL
    exact ih hL (h.arriveTo hT hs)

theorem next_le_arriveAll : r.next ≤ (arriveAll M W L r).next := by
  induction L generalizing r with
  | nil => exact le_rfl
  | cons s L ih => exact (next_le_arriveTo r M W s).trans ih

theorem mem_arriveAll (hs : s ∈ r.segs) : s ∈ (arriveAll M W L r).segs := by
  induction L generalizing r with
  | nil => exact hs
  | cons t L ih => exact ih (mem_arriveTo hs)

/-- At the end all that arrived is accepted, or the right edge has come to `M`. -/
theorem arriveAll_mem (hT : Apart o W T) (hL : ∀ s ∈ L, s ∈ T) (h : Collects o W T r)
    (hs : s ∈ L) : s ∈ (arriveAll M W L r).segs ∨ M ≤ (arriveAll M W L r).next + W := by
  induction L generalizing r with
  | nil => cases hs
  | cons t L ih =>
    obtain ⟨ht, hL⟩ := List.forall_mem_cons.1 hL
    rcases List.mem_cons.1 hs with rfl | hs
    · rcases h.arriveTo_mem (M := M) hT ht with hin | hM
      · exact Or.inl (mem_arriveAll (r := r.arriveTo M W s) hin)
      · have h1 := next_le_arriveTo r M W s
        have h2 := next_le_arriveAll (r := r.arriveTo M W s) (M := M) (W := W) (L := L)
        exact Or.inr (hM.trans (Nat.add_le_add_right (h1.trans h2) W))
    · exact ih hL (h.arriveTo hT ht) hs

end

/-- The segment `t` is refused if it arrives last, and the others cover too much. -/
theorem last_refused (hT : Apart o W T) (hfin : T.Finite)
    (hM : M ≤ o + runLen (T \ {t}) o + W) (ht : t ∈ T) :
    ∃ L : List (Seg α), (∀ s, s ∈ L ↔ s ∈ T) ∧ t ∉ (arriveAll M W L (start o)).segs := by
  have hU : Apart o W (T \ {t}) := hT.mono Set.sdiff_subset
  obtain ⟨A, hA⟩ : ∃ A : List (Seg α), ∀ s, s ∈ A ↔ s ∈ T \ {t} :=
    ⟨(hfin.sdiff (t := {t})).toFinset.toList, fun s => by simp⟩
  have hmem : ∀ s ∈ A, s ∈ T \ {t} := fun s hs => (hA s).1 hs
  have hcol : Collects o W (T \ {t}) (arriveAll M W A (start o)) :=
    arriveAll_collects hU hmem (start_collects o W _)
  have hstop : M ≤ (arriveAll M W A (start o)).next + W := by
    by_contra hlt
    have hall : {s | s ∈ (arriveAll M W A (start o)).segs} = T \ {t} :=
      Set.Subset.antisymm hcol.segs fun s hs =>
        (arriveAll_mem hU hmem (start_collects o W _) ((hA s).2 hs)).resolve_right hlt
    have hnext := hcol.next_eq
    rw [hall] at hnext
    omega
  refine ⟨A ++ [t], fun s => ?_, ?_⟩
  · rw [List.mem_append, hA, List.mem_singleton, Set.mem_sdiff, Set.mem_singleton_iff]
    by_cases hst : s = t
    · simp [hst, ht]
    · simp [hst]
  · rw [arriveAll_append]
    show t ∉ (Reasm.arriveTo M W t _).segs
    rw [arriveTo_refused hstop]
    exact fun hin => (hcol.segs t hin).2 rfl

/-- **Every order of arrival has all segments accepted**, if and only if for each of them the run
    that the others cover leaves the right edge of the window below `M`. -/
theorem accepts_all_iff (hT : Apart o W T) (hfin : T.Finite) :
    (∀ L : List (Seg α), (∀ s, s ∈ L ↔ s ∈ T) → ∀ t ∈ T, t ∈ (arriveAll M W L (start o)).segs) ↔
      ∀ t ∈ T, o + runLen (T \ {t}) o + W < M := by
  constructor
  · intro h t ht
    by_contra hM
    obtain ⟨L, hL, hnot⟩ := last_refused hT hfin (not_lt.1 hM) ht
    exact hnot (h L hL t ht)
  · intro h L hL t ht
    have hmem : ∀ s ∈ L, s ∈ T := fun s hs => (hL s).1 hs
    have hcol : Collects o W T (arriveAll M W L (start o)) :=
      arriveAll_collects hT hmem (start_collects o W _)
    by_contra hnot
    have hstop := (arriveAll_mem (M := M) hT hmem (start_collects o W T)
      ((hL t).2 ht)).resolve_left hnot
    have hsub : {s | s ∈ (arriveAll M W L (start o)).segs} ⊆ T \ {t} := fun s hs =>
      ⟨hcol.segs s hs, fun heq => hnot (by rw [← Set.mem_singleton_iff.1 heq]; exact hs)⟩
    have hrun := runLen_mono hsub
      ((hT.mono Set.sdiff_subset).not_covered (n := o + W) (by omega))
    have hnext := hcol.next_eq
    have hlt := h t ht
    omega

/-! ## What a complete buffer holds -/

variable {S : List α}

/-- What pieces of a stream cover is inside it. -/
theorem covered_getElem? (hp : ∀ s ∈ T, Piece o S s) (hc : Covered T n) : (S[n - o]?).isSome := by
  obtain ⟨s, hs, hle, hlt⟩ := hc
  obtain ⟨ho, hpiece⟩ := hp s hs
  have hget := hpiece (n - s.off) (by omega)
  rw [List.getElem?_eq_getElem (by omega), show s.off - o + (n - s.off) = n - o by omega] at hget
  rw [← hget]
  rfl

theorem runLen_le_length (hp : ∀ s ∈ T, Piece o S s) : runLen T o ≤ S.length := by
  by_contra hlt
  have hin := covered_getElem? hp (covered_of_lt_runLen (not_le.1 hlt))
  rw [Nat.add_sub_cancel_left, List.getElem?_eq_none le_rfl] at hin
  cases hin

namespace Collects

/-- Segments that are pieces of one stream agree with it. -/
theorem agrees (h : Collects o W T r) (hp : ∀ s ∈ T, Piece o S s) : r.Agrees o S := by
  intro n b hb
  obtain ⟨s, hs, hat⟩ := cover_eq_some hb
  obtain ⟨hle, hget⟩ := Seg.at?_eq_some.1 hat
  obtain ⟨hlt, -⟩ := List.getElem?_eq_some_iff.1 hget
  obtain ⟨ho, hpiece⟩ := hp s (h.segs s hs)
  rw [hpiece _ hlt] at hget
  exact ⟨by omega, by rw [← hget]; congr 1; omega⟩

theorem segs_eq (h : Collects o W T r) (hall : ∀ s ∈ T, s ∈ r.segs) : {s | s ∈ r.segs} = T :=
  Set.Subset.antisymm h.segs hall

/-- **What a complete buffer has delivered** is the prefix of the stream that the set covers. -/
theorem out_eq (h : Collects o W T r) (hp : ∀ s ∈ T, Piece o S s) (hall : ∀ s ∈ T, s ∈ r.segs) :
    r.out = S.take (runLen T o) := by
  obtain ⟨hout, -⟩ := (h.agrees hp).out_eq h.inv
  have hnext := h.next_eq
  have hinv := h.inv.next
  rw [h.segs_eq hall] at hnext
  rwa [show r.out.length = runLen T o by omega] at hout

/-- **What a complete buffer holds** at a position is the element of the stream, if the set covers
    it. -/
theorem cover_eq (h : Collects o W T r) (hp : ∀ s ∈ T, Piece o S s) (hall : ∀ s ∈ T, s ∈ r.segs)
    [Decidable (Covered T n)] :
    cover r.segs n = if Covered T n then S[n - o]? else none := by
  have hsome : (cover r.segs n).isSome ↔ Covered T n := by
    rw [cover_isSome_iff, h.segs_eq hall]
  split_ifs with hc
  · obtain ⟨b, hb⟩ := Option.isSome_iff_exists.1 (hsome.2 hc)
    rw [hb, ((h.agrees hp) n b hb).2]
  · exact Option.not_isSome_iff_eq_none.1 fun hs => hc (hsome.1 hs)

end Collects

end Reasm

end Lib
