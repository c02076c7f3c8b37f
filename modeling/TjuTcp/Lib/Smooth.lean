/-
  Weighted averages in whole numbers.

  `smooth a x s` takes `a` parts of the old value `x` and one part of the new
  sample `s`, and drops what does not divide.  Samples from `lo` to `hi` pull
  the value into the band from `lo - a` to `hi`: each one leaves at most `a` of
  `a + 1` parts of its distance to the band.

  * `gap_smooth`: the distance to the band shrinks by that factor;
  * `gap_smoothAll`: so does it with every sample of a list;
  * `gap_settles`: after enough samples the value is in the band, and stays.
-/
import Mathlib

namespace Lib

variable {a x s lo hi n : ℕ} {ss : List ℕ}

/-- `a` parts of the old value and one part of the new one. -/
def smooth (a x s : ℕ) : ℕ := (a * x + s) / (a + 1)

/-- The samples are taken one by one. -/
def smoothAll (a x : ℕ) (ss : List ℕ) : ℕ := ss.foldl (smooth a) x

/-- The distance to the band from `lo - a` to `hi`. -/
def gap (a lo hi x : ℕ) : ℕ := max (lo - (x + a)) (x - hi)

theorem gap_eq_zero_iff : gap a lo hi x = 0 ↔ lo ≤ x + a ∧ x ≤ hi := by
  unfold gap
  omega

/-- A band that begins at 0. -/
theorem gap_zero_left : gap a 0 hi x = x - hi := by
  unfold gap
  omega

theorem smoothAll_append (a x : ℕ) (ss tt : List ℕ) :
    smoothAll a x (ss ++ tt) = smoothAll a (smoothAll a x ss) tt :=
  List.foldl_append

theorem smooth_le (hx : x ≤ hi) (hs : s ≤ hi) : smooth a x s ≤ hi := by
  unfold smooth
  refine Nat.div_le_of_le_mul ?_
  calc a * x + s ≤ a * hi + hi := Nat.add_le_add (Nat.mul_le_mul_left a hx) hs
    _ = (a + 1) * hi := (Nat.succ_mul a hi).symm

/-- A bound on the samples and on the first value bounds every value. -/
theorem smoothAll_le (hs : ∀ s ∈ ss, s ≤ hi) (hx : x ≤ hi) : smoothAll a x ss ≤ hi := by
  induction ss generalizing x with
  | nil => exact hx
  | cons s ss ih =>
    obtain ⟨h1, hs⟩ := List.forall_mem_cons.1 hs
    exact ih hs (smooth_le hx h1)

/-- Above the band. -/
theorem smooth_above (hs : s ≤ hi) : (smooth a x s - hi) * (a + 1) ≤ (x - hi) * a := by
  have hdiv : smooth a x s * (a + 1) ≤ a * x + s := Nat.div_mul_le_self _ _
  rcases Nat.lt_or_ge hi x with hlt | hle
  · obtain ⟨g, rfl⟩ := Nat.exists_eq_add_of_lt hlt
    rcases Nat.lt_or_ge hi (smooth a (hi + g + 1) s) with hk | hk
    · obtain ⟨k, hk⟩ := Nat.exists_eq_add_of_lt hk
      rw [hk] at hdiv ⊢
      rw [Nat.add_assoc, Nat.add_sub_cancel_left, Nat.add_assoc, Nat.add_sub_cancel_left]
      nlinarith
    · rw [Nat.sub_eq_zero_of_le hk, Nat.zero_mul]
      exact Nat.zero_le _
  · rw [Nat.sub_eq_zero_of_le (smooth_le hle hs), Nat.zero_mul]
    exact Nat.zero_le _

/-- Below the band. -/
theorem smooth_below (hs : lo ≤ s) :
    (lo - (smooth a x s + a)) * (a + 1) ≤ (lo - (x + a)) * a := by
  have hdiv : a * x + s < (a + 1) * (smooth a x s + 1) := Nat.lt_mul_div_succ _ (Nat.succ_pos a)
  rcases Nat.lt_or_ge (smooth a x s + a) lo with hk | hk
  · obtain ⟨k, hk⟩ := Nat.exists_eq_add_of_lt hk
    have hlow : x + a < lo := by
      -- the sample is at least the new value and `a` more, so the old value is not above that
      by_contra hge
      nlinarith
    obtain ⟨g, hg⟩ := Nat.exists_eq_add_of_lt hlow
    have h1 : lo - (smooth a x s + a) = k + 1 := by omega
    have h2 : lo - (x + a) = g + 1 := by omega
    rw [h1, h2]
    nlinarith
  · rw [Nat.sub_eq_zero_of_le hk, Nat.zero_mul]
    exact Nat.zero_le _

/-- **The distance to the band** shrinks to `a` of `a + 1` parts. -/
theorem gap_smooth (hs : lo ≤ s ∧ s ≤ hi) :
    gap a lo hi (smooth a x s) * (a + 1) ≤ gap a lo hi x * a := by
  have h1 := smooth_below (a := a) (x := x) hs.1
  have h2 := smooth_above (a := a) (x := x) hs.2
  unfold gap
  rcases le_total (lo - (smooth a x s + a)) (smooth a x s - hi) with h | h
  · rw [max_eq_right h]
    exact h2.trans (Nat.mul_le_mul_right a (le_max_right _ _))
  · rw [max_eq_left h]
    exact h1.trans (Nat.mul_le_mul_right a (le_max_left _ _))

theorem gap_smooth_le (hs : lo ≤ s ∧ s ≤ hi) : gap a lo hi (smooth a x s) ≤ gap a lo hi x := by
  have h := gap_smooth (a := a) (x := x) hs
  refine Nat.le_of_mul_le_mul_right (h.trans ?_) (Nat.succ_pos a)
  exact Nat.mul_le_mul_left _ (Nat.le_succ a)

/-- **Sample by sample.** -/
theorem gap_smoothAll (hs : ∀ s ∈ ss, lo ≤ s ∧ s ≤ hi) (x : ℕ) :
    gap a lo hi (smoothAll a x ss) * (a + 1) ^ ss.length ≤ gap a lo hi x * a ^ ss.length := by
  induction ss generalizing x with
  | nil => exact le_rfl
  | cons s ss ih =>
    obtain ⟨h1, hs⟩ := List.forall_mem_cons.1 hs
    have hone := gap_smooth (a := a) (x := x) h1
    have hrest := ih hs (smooth a x s)
    calc gap a lo hi (smoothAll a (smooth a x s) ss) * (a + 1) ^ (ss.length + 1)
        = gap a lo hi (smoothAll a (smooth a x s) ss) * (a + 1) ^ ss.length * (a + 1) := by ring
      _ ≤ gap a lo hi (smooth a x s) * a ^ ss.length * (a + 1) := Nat.mul_le_mul_right _ hrest
      _ = gap a lo hi (smooth a x s) * (a + 1) * a ^ ss.length := by ring
      _ ≤ gap a lo hi x * a * a ^ ss.length := Nat.mul_le_mul_right _ hone
      _ = gap a lo hi x * a ^ (ss.length + 1) := by ring

theorem gap_smoothAll_le (hs : ∀ s ∈ ss, lo ≤ s ∧ s ≤ hi) (x : ℕ) :
    gap a lo hi (smoothAll a x ss) ≤ gap a lo hi x := by
  induction ss generalizing x with
  | nil => exact le_rfl
  | cons s ss ih =>
    obtain ⟨h1, hs⟩ := List.forall_mem_cons.1 hs
    exact (ih hs _).trans (gap_smooth_le h1)

/-- **After enough samples** the value is in the band. -/
theorem gap_settles (hs : ∀ s ∈ ss, lo ≤ s ∧ s ≤ hi) (hn : gap a lo hi x * a ^ n < (a + 1) ^ n)
    (hlen : n ≤ ss.length) : lo ≤ smoothAll a x ss + a ∧ smoothAll a x ss ≤ hi := by
  rw [← gap_eq_zero_iff]
  have htake : ∀ s ∈ ss.take n, lo ≤ s ∧ s ≤ hi := fun s h => hs s (List.mem_of_mem_take h)
  have hdrop : ∀ s ∈ ss.drop n, lo ≤ s ∧ s ≤ hi := fun s h => hs s (List.mem_of_mem_drop h)
  have hfirst := gap_smoothAll (a := a) htake x
  rw [List.length_take, Nat.min_eq_left hlen] at hfirst
  have hzero : gap a lo hi (smoothAll a x (ss.take n)) = 0 := by
    by_contra hpos
    have hone := Nat.mul_le_mul_right ((a + 1) ^ n) (Nat.one_le_iff_ne_zero.2 hpos)
    omega
  have hrest := gap_smoothAll_le (a := a) hdrop (smoothAll a x (ss.take n))
  rw [← smoothAll_append, List.take_append_drop, hzero] at hrest
  exact Nat.le_zero.1 hrest

end Lib
