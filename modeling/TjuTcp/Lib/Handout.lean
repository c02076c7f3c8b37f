/-
  Tables from which every value is taken at most once.

  Values are put into the empty slots of a table and taken out again.  They are
  numbered in the order in which they are offered, `label i` is the number of
  the value in slot `i`, and `given` are the values that have been taken, with
  their numbers.

  * `Handout`: the numbers of the values in the slots and of those that have
    been taken are all different, and lead back to the values offered;
  * `Handout.put`, `Handout.refuse`, `Handout.take`: what keeps this.
-/
import TjuTcp.Lib.Memory

namespace Lib

variable {ι ν : Type*} {t : ι → Option ν} {label : ι → ℕ} {offered : List ν} {given : List (ℕ × ν)}
  {i j : ι} {v w : ν}

structure Handout (t : ι → Option ν) (label : ι → ℕ) (offered : List ν) (given : List (ℕ × ν)) :
    Prop where
  stored : ∀ i v, t i = some v → offered[label i]? = some v
  apart : ∀ i j v w, t i = some v → t j = some w → label i = label j → i = j
  fresh : ∀ i v, t i = some v → ∀ g ∈ given, g.1 ≠ label i
  own : ∀ g ∈ given, offered[g.1]? = some g.2
  once : given.Pairwise fun g g' => g.1 ≠ g'.1

/-- A list that grows keeps its elements. -/
theorem getElem?_append_of_some {xs ys : List ν} {n : ℕ} (h : xs[n]? = some v) :
    (xs ++ ys)[n]? = some v := by
  obtain ⟨hlt, -⟩ := List.getElem?_eq_some_iff.1 h
  rw [List.getElem?_append_left hlt, h]

namespace Handout

theorem empty (label : ι → ℕ) : Handout (fun _ => (none : Option ν)) label [] [] where
  stored i v h := by cases h
  apart i j v w h := by cases h
  fresh i v h := by cases h
  own g h := by cases h
  once := List.Pairwise.nil

theorem label_lt (h : Handout t label offered given) (hi : t i = some v) : label i < offered.length :=
  (List.getElem?_eq_some_iff.1 (h.stored i v hi)).1

theorem given_lt (h : Handout t label offered given) {g : ℕ × ν} (hg : g ∈ given) :
    g.1 < offered.length :=
  (List.getElem?_eq_some_iff.1 (h.own g hg)).1

/-- A value is offered, and not put into the table. -/
theorem refuse (h : Handout t label offered given) (v : ν) :
    Handout t label (offered ++ [v]) given where
  stored i w hi := getElem?_append_of_some (h.stored i w hi)
  apart := h.apart
  fresh := h.fresh
  own g hg := getElem?_append_of_some (h.own g hg)
  once := h.once

variable [DecidableEq ι]

/-- A value is put into a slot, with a number that nothing has yet. -/
theorem put (h : Handout t label offered given) (i : ι) (v : ν) :
    Handout (Function.update t i (some v)) (Function.update label i offered.length)
      (offered ++ [v]) given where
  stored j w hj := by
    rcases update_eq_some hj with ⟨rfl, rfl⟩ | ⟨hne, hj⟩
    · rw [Function.update_self]
      exact List.getElem?_concat_length
    · rw [Function.update_of_ne hne]
      exact getElem?_append_of_some (h.stored j w hj)
  apart j j' w w' hj hj' heq := by
    rcases update_eq_some hj with ⟨rfl, -⟩ | ⟨hne, hold⟩ <;>
      rcases update_eq_some hj' with ⟨rfl, -⟩ | ⟨hne', hold'⟩
    · rfl
    · rw [Function.update_self, Function.update_of_ne hne'] at heq
      exact absurd (h.label_lt hold') (by omega)
    · rw [Function.update_self, Function.update_of_ne hne] at heq
      exact absurd (h.label_lt hold) (by omega)
    · rw [Function.update_of_ne hne, Function.update_of_ne hne'] at heq
      exact h.apart j j' w w' hold hold' heq
  fresh j w hj g hg := by
    rcases update_eq_some hj with ⟨rfl, -⟩ | ⟨hne, hj⟩
    · rw [Function.update_self]
      exact Nat.ne_of_lt (h.given_lt hg)
    · rw [Function.update_of_ne hne]
      exact h.fresh j w hj g hg
  own g hg := getElem?_append_of_some (h.own g hg)
  once := h.once

/-- **A value is taken** out of its slot. -/
theorem take (h : Handout t label offered given) (hi : t i = some v) :
    Handout (Function.update t i none) label offered (given ++ [(label i, v)]) where
  stored j w hj := h.stored j w (update_none_eq_some hj).2
  apart j j' w w' hj hj' heq :=
    h.apart j j' w w' (update_none_eq_some hj).2 (update_none_eq_some hj').2 heq
  fresh j w hj g hg := by
    obtain ⟨hne, hj⟩ := update_none_eq_some hj
    rcases List.mem_append.1 hg with hg | hg
    · exact h.fresh j w hj g hg
    · rw [List.mem_singleton.1 hg]
      exact fun heq => hne (h.apart j i w v hj hi heq.symm)
  own g hg := by
    rcases List.mem_append.1 hg with hg | hg
    · exact h.own g hg
    · rw [List.mem_singleton.1 hg]
      exact h.stored i v hi
  once := by
    refine List.pairwise_append.2 ⟨h.once, List.pairwise_singleton _ _, fun g hg g' hg' => ?_⟩
    rw [List.mem_singleton.1 hg']
    exact h.fresh i v hi g hg

end Handout

end Lib
