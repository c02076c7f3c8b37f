/-
  How many slots of a table hold a value.

  A table is a function into `Option`, and `filled I t` counts the slots with an
  index in `I` that are not empty.  `Tally I t k n`: the counter `n`, a word of
  `w` bits, is ahead of this number by `k`.

  * `filled_put`, `filled_clear`: a value is put into an empty slot, or taken out;
  * `filled_eq_zero_iff`, `filled_le`: the two ends;
  * `filterMap_clear`: the first value of a list of slots is taken out;
  * `Tally.put`, `Tally.clear`, `Tally.forget`: the counter goes along, or does not;
  * `Tally.toNat_eq_iff`: the counter is the number if it is ahead by a multiple of 2^w.
-/
import Mathlib

namespace Lib

variable {ι ν : Type*} {I : Finset ι} {t : ι → Option ν} {i : ι}

/-- The indices in `I` of the slots that hold a value. -/
def filledSlots (I : Finset ι) (t : ι → Option ν) : Finset ι := I.filter fun i => (t i).isSome

def filled (I : Finset ι) (t : ι → Option ν) : ℕ := (filledSlots I t).card

@[simp] theorem mem_filledSlots : i ∈ filledSlots I t ↔ i ∈ I ∧ (t i).isSome := Finset.mem_filter

theorem filled_le (I : Finset ι) (t : ι → Option ν) : filled I t ≤ I.card :=
  Finset.card_filter_le I _

theorem filled_eq_zero_iff : filled I t = 0 ↔ ∀ i ∈ I, t i = none := by
  unfold filled
  rw [Finset.card_eq_zero, Finset.eq_empty_iff_forall_notMem]
  refine forall_congr' fun i => ?_
  rw [mem_filledSlots, not_and, Bool.not_eq_true, Option.isSome_eq_false_iff, Option.isNone_iff_eq_none]

variable [DecidableEq ι]

theorem filledSlots_put (hi : i ∈ I) (v : ν) :
    filledSlots I (Function.update t i (some v)) = insert i (filledSlots I t) := by
  ext j
  rw [Finset.mem_insert, mem_filledSlots, mem_filledSlots]
  by_cases hj : j = i
  · subst hj
    simp [hi]
  · simp [hj]

theorem filledSlots_clear :
    filledSlots I (Function.update t i none) = (filledSlots I t).erase i := by
  ext j
  rw [Finset.mem_erase, mem_filledSlots, mem_filledSlots]
  by_cases hj : j = i
  · subst hj
    simp
  · simp [hj]

theorem filled_put (hi : i ∈ I) (h : t i = none) (v : ν) :
    filled I (Function.update t i (some v)) = filled I t + 1 := by
  unfold filled
  rw [filledSlots_put hi, Finset.card_insert_of_notMem]
  rw [mem_filledSlots, h]
  rintro ⟨-, hs⟩
  cases hs

theorem filled_clear (hi : i ∈ I) (h : (t i).isSome) :
    filled I (Function.update t i none) + 1 = filled I t := by
  unfold filled
  rw [filledSlots_clear]
  exact Finset.card_erase_add_one (mem_filledSlots.2 ⟨hi, h⟩)

/-- The first slot of the list `l` that holds a value is cleared. -/
theorem filterMap_clear {l : List ι} {v : ν} (hl : l.Nodup)
    (hf : l.find? (fun i => (t i).isSome) = some i) (hv : t i = some v) :
    l.filterMap t = v :: l.filterMap (Function.update t i none) := by
  induction l with
  | nil => cases hf
  | cons j l ih =>
    obtain ⟨hj, hl⟩ := List.nodup_cons.1 hl
    cases htj : t j with
    | some w =>
      rw [List.find?_cons_of_pos (by rw [htj]; rfl)] at hf
      have hji : j = i := Option.some.inj hf
      subst hji
      obtain rfl : w = v := Option.some.inj (htj.symm.trans hv)
      have hrest : l.filterMap (Function.update t j none) = l.filterMap t := by
        refine List.filterMap_congr fun k hk => ?_
        have hne : k ≠ j := fun h => hj (by rwa [← h])
        exact Function.update_of_ne hne _ _
      rw [List.filterMap_cons_some hv, List.filterMap_cons_none (Function.update_self ..), hrest]
    | none =>
      rw [List.find?_cons_of_neg (by rw [htj]; exact Bool.noConfusion)] at hf
      have hne : j ≠ i := fun h => by
        rw [h, hv] at htj
        cases htj
      rw [List.filterMap_cons_none htj, ih hl hf,
        List.filterMap_cons_none ((Function.update_of_ne hne _ _).trans htj)]

/-! ## Counters -/

/-- The counter is ahead of the number of filled slots by `k`. -/
def Tally {w : ℕ} (I : Finset ι) (t : ι → Option ν) (k : ℕ) (n : BitVec w) : Prop :=
  n = BitVec.ofNat w (filled I t + k)

namespace Tally

variable {w k : ℕ} {n : BitVec w}

theorem put (h : Tally I t k n) (hi : i ∈ I) (hnone : t i = none) (v : ν) :
    Tally I (Function.update t i (some v)) k (n + 1) := by
  unfold Tally at h ⊢
  rw [h, filled_put hi hnone, Nat.add_right_comm, BitVec.ofNat_add (filled I t + k) 1]
  rfl

theorem clear (h : Tally I t k n) (hi : i ∈ I) (hsome : (t i).isSome) :
    Tally I (Function.update t i none) k (n - 1) := by
  unfold Tally at h ⊢
  rw [h, ← filled_clear hi hsome, Nat.add_right_comm, BitVec.ofNat_add _ 1]
  exact BitVec.add_sub_cancel _ _

/-- A value is taken out, and the counter stays. -/
theorem forget (h : Tally I t k n) (hi : i ∈ I) (hsome : (t i).isSome) :
    Tally I (Function.update t i none) (k + 1) n := by
  unfold Tally at h ⊢
  rw [h, ← filled_clear hi hsome]
  congr 1
  omega

omit [DecidableEq ι] in
/-- **The counter is the number of filled slots** exactly if it is ahead by a multiple of 2^w. -/
theorem toNat_eq_iff (h : Tally I t k n) (hI : I.card < 2 ^ w) :
    n.toNat = filled I t ↔ 2 ^ w ∣ k := by
  have hle := filled_le I t
  unfold Tally at h
  rw [h, BitVec.toNat_ofNat]
  constructor
  · intro he
    have hmod : (filled I t + k) % 2 ^ w = filled I t % 2 ^ w := by
      rw [he, Nat.mod_eq_of_lt (by omega)]
    exact (Nat.modEq_zero_iff_dvd).1 (Nat.ModEq.add_left_cancel' (filled I t) hmod)
  · rintro ⟨m, rfl⟩
    rw [Nat.add_mul_mod_self_left, Nat.mod_eq_of_lt (by omega)]

end Tally

end Lib
