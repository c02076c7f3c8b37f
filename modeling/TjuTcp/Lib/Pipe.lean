/-
  Pipes of bounded size.

  A pipe holds what was written to it and not yet read, first in, first out:
  a write needs room for all that it writes, and a read takes a front that is
  not empty.  `family step` is one copy of a system for each index.

  * `pipe_conserves`: what is read, and what is left, is what was written;
  * `pipe_le`: the pipe never holds more than its size;
  * `family_proj`: a run of a family is a run of each of its members;
  * `family_pipes`: so each pipe of a family conserves its bytes.
-/
import TjuTcp.Lib.Run

namespace Lib

variable {α ι σ ε : Type*} [DecidableEq α] [DecidableEq ι] {step : σ → ε → Option σ} {q q' : List α}
  {cap : ℕ}

inductive PipeOp (α : Type*) where
  | write (xs : List α)
  | read (xs : List α)
deriving DecidableEq, Repr

def pipeStep (cap : ℕ) (q : List α) : PipeOp α → Option (List α)
  | .write xs => if q.length + xs.length ≤ cap then some (q ++ xs) else none
  | .read xs => if xs ≠ [] ∧ xs <+: q then some (q.drop xs.length) else none

/-- All that the operations write, in order. -/
def writtenBy : List (PipeOp α) → List α
  | [] => []
  | .write xs :: ops => xs ++ writtenBy ops
  | .read _ :: ops => writtenBy ops

/-- All that the operations read, in order. -/
def readBy : List (PipeOp α) → List α
  | [] => []
  | .write _ :: ops => readBy ops
  | .read xs :: ops => xs ++ readBy ops

/-- **First in, first out.** -/
theorem pipe_conserves {ops : List (PipeOp α)} (h : exec (pipeStep cap) q ops = some q') :
    q ++ writtenBy ops = readBy ops ++ q' := by
  induction ops generalizing q with
  | nil =>
    cases h
    exact List.append_nil _
  | cons op ops ih =>
    obtain ⟨u, hu, h⟩ := Option.bind_eq_some_iff.1 h
    have hrest := ih h
    cases op with
    | write xs =>
      simp only [pipeStep] at hu
      split_ifs at hu
      cases hu
      rw [List.append_assoc] at hrest
      exact hrest
    | read xs =>
      simp only [pipeStep] at hu
      split_ifs at hu with hpre
      cases hu
      obtain ⟨ys, rfl⟩ := hpre.2
      rw [List.drop_left] at hrest
      simp only [writtenBy, readBy, List.append_assoc, hrest]

theorem pipe_le {ops : List (PipeOp α)} (hq : q.length ≤ cap)
    (h : exec (pipeStep cap) q ops = some q') : q'.length ≤ cap := by
  induction ops generalizing q with
  | nil =>
    cases h
    exact hq
  | cons op ops ih =>
    obtain ⟨u, hu, h⟩ := Option.bind_eq_some_iff.1 h
    refine ih ?_ h
    cases op with
    | write xs =>
      simp only [pipeStep] at hu
      split_ifs at hu with hroom
      cases hu
      rwa [List.length_append]
    | read xs =>
      simp only [pipeStep] at hu
      split_ifs at hu
      cases hu
      rw [List.length_drop]
      omega

/-! ## Several copies of a system -/

/-- One copy of the system for each index. -/
def family (step : σ → ε → Option σ) (f : ι → σ) (e : ι × ε) : Option (ι → σ) :=
  (step (f e.1) e.2).map (Function.update f e.1)

/-- The events of the copy `i`. -/
def eventsOf (i : ι) : List (ι × ε) → List ε
  | [] => []
  | e :: es => if e.1 = i then e.2 :: eventsOf i es else eventsOf i es

/-- **Each copy** makes its own run. -/
theorem family_proj {es : List (ι × ε)} {f f' : ι → σ} (h : exec (family step) f es = some f')
    (i : ι) : exec step (f i) (eventsOf i es) = some (f' i) := by
  induction es generalizing f with
  | nil =>
    cases h
    rfl
  | cons e es ih =>
    obtain ⟨u, hu, h⟩ := Option.bind_eq_some_iff.1 h
    obtain ⟨x, hx, rfl⟩ := Option.map_eq_some_iff.1 hu
    have hrest := ih h
    unfold eventsOf
    split_ifs with hi
    · subst hi
      rw [Function.update_self] at hrest
      simp only [exec, hx, Option.bind_some]
      exact hrest
    · rw [Function.update_of_ne (Ne.symm hi)] at hrest
      exact hrest

/-- **Pipes that begin empty**: what was written to each is what was read from it, and what it still
    holds, which is not more than its size. -/
theorem family_pipes {ops : List (ι × PipeOp α)} {f : ι → List α}
    (h : exec (family (pipeStep cap)) (fun _ => []) ops = some f) (i : ι) :
    writtenBy (eventsOf i ops) = readBy (eventsOf i ops) ++ f i ∧ (f i).length ≤ cap :=
  ⟨pipe_conserves (family_proj h i), pipe_le (q := []) (Nat.zero_le cap) (family_proj h i)⟩

end Lib
