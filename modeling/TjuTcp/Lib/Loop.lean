/-
  Bounded `while` loops.

  `loop guard body n` runs `while (guard) body` for at most `n` rounds.
  `loop_inv` is the rule of invariants; `loop_exit` says that with a measure
  that every round decreases, `n` rounds are enough once `n` is at least the
  measure at the start, so that the loop is left because its guard is false.
-/
import Mathlib

namespace Lib

variable {σ : Type*} {guard : σ → Bool} {body : σ → σ} {I : σ → Prop}

/-- `while (guard) body`, for at most `n` rounds. -/
def loop (guard : σ → Bool) (body : σ → σ) : ℕ → σ → σ
  | 0, s => s
  | n + 1, s => if guard s then loop guard body n (body s) else s

/-- A loop whose guard is false at the start does nothing. -/
theorem loop_done {s : σ} (hg : guard s = false) (n : ℕ) : loop guard body n s = s := by
  cases n with
  | zero => rfl
  | succ n =>
    unfold loop
    rw [if_neg (by rw [hg]; decide)]

theorem loop_inv (hbody : ∀ s, I s → guard s → I (body s)) (n : ℕ) {s : σ} (h : I s) :
    I (loop guard body n s) := by
  induction n generalizing s with
  | zero => exact h
  | succ n ih =>
    unfold loop
    split_ifs with hg
    · exact ih (hbody s h hg)
    · exact h

/-- **Enough rounds.**  A loop given as many rounds as its measure ends with a false guard. -/
theorem loop_exit (μ : σ → ℕ) (hbody : ∀ s, I s → guard s → I (body s))
    (hdec : ∀ s, I s → guard s → μ (body s) < μ s) (n : ℕ) {s : σ} (h : I s) (hn : μ s ≤ n) :
    guard (loop guard body n s) = false := by
  induction n generalizing s with
  | zero =>
    cases hg : guard s with
    | false => exact hg
    | true => exact absurd (hdec s h hg) (by omega)
  | succ n ih =>
    unfold loop
    split_ifs with hg
    · have hlt := hdec s h hg
      exact ih (hbody s h hg) (by omega)
    · simpa using hg

end Lib
