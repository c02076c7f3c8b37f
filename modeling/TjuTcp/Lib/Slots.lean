/-
  Tables that are indexed by hash values and keep no keys.

  A table holds at most one value in each slot.  A value is put into the slot of
  its key over whatever is there, and is found by the slot alone; `live v k` says
  that the table is to hold the value `v` for the key `k`.

  * `Stores`: the slots hold the live values and nothing else;
  * `Stores.insert`, `Stores.remove`: what keeps this;
  * `Stores.found_insert_iff`: a new value hides no other one exactly if its slot
    holds none.
-/
import Mathlib

namespace Lib

variable {κ ι ν : Type*} {hash : κ → ι} {t : ι → Option ν} {live : ν → κ → Prop}
  {k k' : κ} {v v' : ν}

structure Stores (hash : κ → ι) (t : ι → Option ν) (live : ν → κ → Prop) : Prop where
  slot : ∀ i v, t i = some v ↔ ∃ k, live v k ∧ hash k = i
  key : ∀ v k k', live v k → live v k' → k = k'

/-- Every live value is in the slot of its key. -/
def Found (hash : κ → ι) (t : ι → Option ν) (live : ν → κ → Prop) : Prop :=
  ∀ v k, live v k → t (hash k) = some v

/-- One more live value. -/
def withLive (live : ν → κ → Prop) (v : ν) (k : κ) : ν → κ → Prop :=
  fun v' k' => live v' k' ∨ v' = v ∧ k' = k

/-- The live values but one. -/
def withoutLive (live : ν → κ → Prop) (v : ν) : ν → κ → Prop :=
  fun v' k' => live v' k' ∧ v' ≠ v

/-- An empty table. -/
theorem Stores.empty (hash : κ → ι) : Stores hash (fun _ => (none : Option ν)) fun _ _ => False where
  slot _ _ := ⟨fun h => (Option.some_ne_none _ h.symm).elim, fun ⟨_, h, _⟩ => h.elim⟩
  key _ _ _ h := h.elim

namespace Stores

theorem found (h : Stores hash t live) : Found hash t live :=
  fun v k hv => (h.slot _ v).2 ⟨k, hv, rfl⟩

/-- Two live values have different slots. -/
theorem unique (h : Stores hash t live) (hv : live v k) (hv' : live v' k') (hk : hash k = hash k') :
    v = v' := by
  have h1 := h.found v k hv
  rw [hk, h.found v' k' hv'] at h1
  exact (Option.some.inj h1).symm

/-- The same values with the same keys. -/
theorem congr {live' : ν → κ → Prop} (h : Stores hash t live) (hl : ∀ v k, live' v k ↔ live v k) :
    Stores hash t live' where
  slot i v := by simp only [hl]; exact h.slot i v
  key v k k' h1 h2 := h.key v k k' ((hl v k).1 h1) ((hl v k').1 h2)

variable [DecidableEq ι]

/-- A value that is not live is put into a free slot. -/
theorem insert (h : Stores hash t live) (hnew : ∀ k', ¬ live v k')
    (hfree : ∀ v' k', live v' k' → hash k' ≠ hash k) :
    Stores hash (Function.update t (hash k) (some v)) (withLive live v k) where
  slot i v' := by
    by_cases hi : i = hash k
    · subst hi
      rw [Function.update_self, Option.some.injEq]
      constructor
      · rintro rfl
        exact ⟨k, Or.inr ⟨rfl, rfl⟩, rfl⟩
      · rintro ⟨k', hl | ⟨rfl, -⟩, hk⟩
        · exact absurd hk (hfree v' k' hl)
        · rfl
    · rw [Function.update_of_ne hi, h.slot]
      constructor
      · rintro ⟨k', hl, hk⟩
        exact ⟨k', Or.inl hl, hk⟩
      · rintro ⟨k', hl | ⟨-, rfl⟩, hk⟩
        · exact ⟨k', hl, hk⟩
        · exact absurd hk.symm hi
  key := by
    rintro w k₁ k₂ (h1 | ⟨rfl, rfl⟩) (h2 | ⟨h2, rfl⟩)
    · exact h.key w k₁ k₂ h1 h2
    · exact absurd (h2 ▸ h1) (hnew k₁)
    · exact absurd h2 (hnew k₂)
    · rfl

/-- **A new value hides no live one** exactly if there is none in its slot. -/
theorem found_insert_iff (h : Stores hash t live) (hnew : ∀ k', ¬ live v k') :
    Found hash (Function.update t (hash k) (some v)) (withLive live v k) ↔
      ∀ v' k', live v' k' → hash k' ≠ hash k := by
  constructor
  · intro hf v' k' hl hk
    have h1 := hf v' k' (Or.inl hl)
    rw [hk, Function.update_self] at h1
    cases h1
    exact hnew k' hl
  · exact fun hfree => (h.insert hnew hfree).found

/-- The slot of a live value is cleared. -/
theorem remove (h : Stores hash t live) (hv : live v k) :
    Stores hash (Function.update t (hash k) none) (withoutLive live v) where
  slot i v' := by
    by_cases hi : i = hash k
    · subst hi
      rw [Function.update_self]
      constructor
      · intro h1
        cases h1
      · rintro ⟨k', ⟨hl, hne⟩, hk⟩
        exact absurd (h.unique hl hv hk) hne
    · rw [Function.update_of_ne hi, h.slot]
      constructor
      · rintro ⟨k', hl, hk⟩
        refine ⟨k', ⟨hl, ?_⟩, hk⟩
        rintro rfl
        exact hi (hk.symm.trans (congrArg hash (h.key _ k' k hl hv)))
      · rintro ⟨k', ⟨hl, -⟩, hk⟩
        exact ⟨k', hl, hk⟩
  key w k₁ k₂ h1 h2 := h.key w k₁ k₂ h1.1 h2.1

end Stores

end Lib
