/-
  Blocks of memory.

  A block of `n` cells is a function `ℕ → α` that is meaningful below `n`.
  `load?` and `store?` are the checked copies out of a buffer and into a
  block: they are `none` when a cell outside is touched (`load?_eq_some`,
  `store?_eq_some`).  `scan` looks for the first cell that fails a test, among
  the next `n` cells, and is `none` if there is none.

  A table is a function into `Option`; `update_eq_some` and
  `update_none_eq_some` read a table back after one of its slots was changed.
-/
import Mathlib

namespace Lib

variable {α : Type*}

/-! ## Copies -/

/-- The `len` cells of the buffer `xs` from index `off` on. -/
def load? (xs : List α) (off len : ℕ) : Option (List α) :=
  if off + len ≤ xs.length then some ((xs.drop off).take len) else none

/-- The block `m` with `xs` written from index `off` on. -/
def store (m : ℕ → α) (off : ℕ) (xs : List α) : ℕ → α :=
  fun i => if off ≤ i then xs[i - off]?.getD (m i) else m i

/-- `store` into a block of `n` cells. -/
def store? (n : ℕ) (m : ℕ → α) (off : ℕ) (xs : List α) : Option (ℕ → α) :=
  if off + xs.length ≤ n then some (store m off xs) else none

/-- A fresh block of `n` cells with the cells of `m` from index `k` on, and `z` behind them. -/
def shiftDown (n k : ℕ) (z : α) (m : ℕ → α) : ℕ → α :=
  fun i => if i < n - k then m (i + k) else z

/-- The first `k` cells of a block. -/
def front (m : ℕ → α) (k : ℕ) : List α := (List.range k).map m

theorem load?_eq_some {xs ys : List α} {off len : ℕ} (h : load? xs off len = some ys) :
    off + len ≤ xs.length ∧ ys = (xs.drop off).take len := by
  unfold load? at h
  split_ifs at h with hl
  exact ⟨hl, (Option.some.inj h).symm⟩

theorem store?_eq_some {n : ℕ} {m m' : ℕ → α} {off : ℕ} {xs : List α}
    (h : store? n m off xs = some m') : off + xs.length ≤ n ∧ m' = store m off xs := by
  unfold store? at h
  split_ifs at h with hl
  exact ⟨hl, (Option.some.inj h).symm⟩

theorem store_in {m : ℕ → α} {off i : ℕ} {xs : List α} (h : off ≤ i) (hi : i - off < xs.length) :
    store m off xs i = xs[i - off] := by
  simp [store, h, List.getElem?_eq_getElem hi]

theorem store_out {m : ℕ → α} {off i : ℕ} {xs : List α} (h : i < off ∨ off + xs.length ≤ i) :
    store m off xs i = m i := by
  unfold store
  split_ifs with ho
  · rw [List.getElem?_eq_none (by omega), Option.getD_none]
  · rfl

@[simp] theorem front_length (m : ℕ → α) (k : ℕ) : (front m k).length = k := by simp [front]

theorem front_getElem? {m : ℕ → α} {k i : ℕ} (h : i < k) : (front m k)[i]? = some (m i) := by
  simp [front, h]

/-- The first index from `i` on at which `p` fails, looking at `n` cells. -/
def scan (p : ℕ → Bool) : ℕ → ℕ → Option ℕ
  | 0, _ => none
  | n + 1, i => if p i then scan p n (i + 1) else some i

/-- A scan that ends stops at the first failing cell, and that cell is one of the `n`. -/
theorem scan_eq_some {p : ℕ → Bool} {k n i : ℕ} (h : scan p n i = some k) :
    i ≤ k ∧ k < i + n ∧ (∀ j, i ≤ j → j < k → p j) ∧ p k = false := by
  induction n generalizing i with
  | zero => cases h
  | succ n ih =>
    unfold scan at h
    split_ifs at h with hp
    · obtain ⟨h1, h2, h3, h4⟩ := ih h
      refine ⟨by omega, by omega, fun j hj hjk => ?_, h4⟩
      rcases Nat.eq_or_lt_of_le hj with rfl | hj
      · exact hp
      · exact h3 j hj hjk
    · cases h
      exact ⟨le_rfl, by omega, fun j hj hjk => absurd hj (by omega), by simpa using hp⟩

/-- A scan over a range with a failing cell ends. -/
theorem scan_isSome {p : ℕ → Bool} {k n i : ℕ} (hk : p k = false) (h1 : i ≤ k) (h2 : k < i + n) :
    ∃ j, scan p n i = some j := by
  induction n generalizing i with
  | zero => omega
  | succ n ih =>
    unfold scan
    split_ifs with hp
    · have hne : i ≠ k := fun h => by rw [h, hk] at hp; cases hp
      exact ih (by omega) (by omega)
    · exact ⟨i, rfl⟩

/-! ## Tables -/

variable {β : Type*} [DecidableEq α] {f : α → Option β} {a a' : α} {b b' : β}

theorem update_eq_some (h : Function.update f a (some b) a' = some b') :
    a' = a ∧ b' = b ∨ a' ≠ a ∧ f a' = some b' := by
  rcases eq_or_ne a' a with rfl | hne
  · rw [Function.update_self] at h
    exact Or.inl ⟨rfl, (Option.some.inj h).symm⟩
  · rw [Function.update_of_ne hne] at h
    exact Or.inr ⟨hne, h⟩

theorem update_none_eq_some (h : Function.update f a none a' = some b) : a' ≠ a ∧ f a' = some b := by
  rcases eq_or_ne a' a with rfl | hne
  · rw [Function.update_self] at h
    cases h
  · rw [Function.update_of_ne hne] at h
    exact ⟨hne, h⟩

end Lib
