/-
  Runs of a partial step function.

  A system is a function `step : σ → ε → Option σ` on states `σ` and events
  `ε`: `none` means that the event cannot happen in the state.  `ReachBy` is
  reachability by runs whose steps all meet a guard `G`; `exec` replays one
  given list of events, and `Along` says that all of these meet the guard.

  * `ReachBy.inv`: what the guarded steps preserve holds in every state
    reached by a guarded run;
  * `ReachBy.of_exec`, `ReachBy.of_execBy`, `ReachBy.of_along`: a replayed run is a run;
  * `always_iff_along`: a property that only the steps off the guard destroy holds
    throughout a run exactly if all its steps meet the guard;
  * `howMany_le`: a measure bounds how many steps of a kind a run can have.
-/
import Mathlib

namespace Lib

variable {σ ε : Type*} {step : σ → ε → Option σ} {G : σ → ε → Prop} {s s' t : σ}

/-- One step from `s` to `s'` by an event that meets the guard. -/
def Next (step : σ → ε → Option σ) (G : σ → ε → Prop) (s s' : σ) : Prop :=
  ∃ e, G s e ∧ step s e = some s'

/-- `s'` is reached from `s` by a run whose steps all meet the guard. -/
def ReachBy (step : σ → ε → Option σ) (G : σ → ε → Prop) : σ → σ → Prop :=
  Relation.ReflTransGen (Next step G)

/-- `s'` is reached from `s` by some run. -/
abbrev Reach (step : σ → ε → Option σ) : σ → σ → Prop := ReachBy step fun _ _ => True

/-- The state after the events `es`, if they can all happen. -/
def exec (step : σ → ε → Option σ) : σ → List ε → Option σ
  | s, [] => some s
  | s, e :: es => (step s e).bind fun s' => exec step s' es

/-- Every event of the replayed run meets the guard in the state in which it happens. -/
def Along (step : σ → ε → Option σ) (G : σ → ε → Prop) : σ → List ε → Prop
  | _, [] => True
  | s, e :: es => G s e ∧ ∀ s', step s e = some s' → Along step G s' es

/-- Every state of the replayed run meets `P`, the first and the last one included. -/
def Always (step : σ → ε → Option σ) (P : σ → Prop) : σ → List ε → Prop
  | s, [] => P s
  | s, e :: es => P s ∧ ∀ s', step s e = some s' → Always step P s' es

/-- How many steps of the replayed run are counted by `H`. -/
def howMany (step : σ → ε → Option σ) (H : σ → ε → Bool) : σ → List ε → ℕ
  | _, [] => 0
  | s, e :: es => (if H s e then 1 else 0) + ((step s e).map (howMany step H · es)).getD 0

instance Along.decidable [∀ s e, Decidable (G s e)] :
    ∀ (es : List ε) (s : σ), Decidable (Along step G s es)
  | [], _ => inferInstanceAs (Decidable True)
  | e :: es, s =>
    have (t : σ) : Decidable (Along step G t es) := Along.decidable es t
    inferInstanceAs (Decidable (G s e ∧ ∀ t ∈ step s e, Along step G t es))

/-- **A guard that is exact.**  The steps that meet it keep `I`, and the others destroy `P`. -/
theorem always_iff_along {I P : σ → Prop} (hP : ∀ s, I s → P s)
    (hkeep : ∀ s e s', I s → G s e → step s e = some s' → I s')
    (hlose : ∀ s e s', I s → ¬ G s e → step s e = some s' → ¬ P s')
    (es : List ε) {s : σ} (hs : I s) (h : exec step s es = some s') :
    Always step P s es ↔ Along step G s es := by
  induction es generalizing s with
  | nil => exact iff_of_true (hP s hs) trivial
  | cons e es ih =>
    obtain ⟨t, ht, h⟩ := Option.bind_eq_some_iff.1 h
    constructor
    · rintro ⟨-, hall⟩
      have hPt : P t := by
        cases es with
        | nil => exact hall t ht
        | cons => exact (hall t ht).1
      have hG : G s e := by
        by_contra hG
        exact hlose s e t hs hG ht hPt
      refine ⟨hG, fun t' ht' => ?_⟩
      obtain rfl : t = t' := Option.some.inj (ht.symm.trans ht')
      exact (ih (hkeep s e t hs hG ht) h).1 (hall t ht)
    · rintro ⟨hG, hall⟩
      refine ⟨hP s hs, fun t' ht' => ?_⟩
      obtain rfl : t = t' := Option.some.inj (ht.symm.trans ht')
      exact (ih (hkeep s e t hs hG ht) h).2 (hall t ht)

/-- **The counting rule.**  A measure that no guarded step raises, and that every step counted by
    `H` lowers, bounds how many of these there are. -/
theorem howMany_le {I : σ → Prop} {H : σ → ε → Bool} {rank : σ → ℕ}
    (hstep : ∀ s e s', I s → G s e → step s e = some s' →
      I s' ∧ (if H s e then 1 else 0) + rank s' ≤ rank s)
    (es : List ε) {s : σ} (hs : I s) (hG : Along step G s es) (h : exec step s es = some s') :
    howMany step H s es ≤ rank s := by
  induction es generalizing s with
  | nil => exact Nat.zero_le _
  | cons e es ih =>
    obtain ⟨t, ht, h⟩ := Option.bind_eq_some_iff.1 h
    obtain ⟨hI, hrank⟩ := hstep s e t hs hG.1 ht
    have hrest := ih hI (hG.2 t ht) h
    simp only [howMany, ht, Option.map_some, Option.getD_some]
    omega

namespace ReachBy

theorem refl : ReachBy step G s s := Relation.ReflTransGen.refl

theorem trans (h : ReachBy step G s s') (h' : ReachBy step G s' t) : ReachBy step G s t :=
  Relation.ReflTransGen.trans h h'

theorem tail {e : ε} (h : ReachBy step G s s') (hG : G s' e) (he : step s' e = some t) :
    ReachBy step G s t :=
  Relation.ReflTransGen.tail h ⟨e, hG, he⟩

theorem head {e : ε} (hG : G s e) (he : step s e = some s') (h : ReachBy step G s' t) :
    ReachBy step G s t :=
  Relation.ReflTransGen.head ⟨e, hG, he⟩ h

theorem one {e : ε} (hG : G s e) (he : step s e = some s') : ReachBy step G s s' :=
  refl.tail hG he

/-- **The invariant rule.**  What every guarded step preserves holds at the end of a guarded run. -/
theorem inv {I : σ → Prop} (h : ReachBy step G s s') (hs : I s)
    (hstep : ∀ s e s', I s → G s e → step s e = some s' → I s') : I s' := by
  induction h with
  | refl => exact hs
  | tail _ hn ih =>
    obtain ⟨e, hG, he⟩ := hn
    exact hstep _ e _ ih hG he

/-- A guarded run meets every weaker guard. -/
theorem weaken {H : σ → ε → Prop} (h : ReachBy step G s s') (hGH : ∀ s e, G s e → H s e) :
    ReachBy step H s s' :=
  Relation.ReflTransGen.mono (fun s _ ⟨e, hG, he⟩ => ⟨e, hGH s e hG, he⟩) _ _ h

/-- What no step brings back, and what holds at the end, holds before every step. -/
theorem back {P : σ → Prop} (h : ReachBy step G s s')
    (hback : ∀ s e s', step s e = some s' → P s' → P s) (hP : P s') :
    ReachBy step (fun s e => G s e ∧ P s) s s' := by
  induction h with
  | refl => exact refl
  | tail _ hn ih =>
    obtain ⟨e, hG, he⟩ := hn
    have hPt := hback _ e _ he hP
    exact (ih hPt).tail ⟨hG, hPt⟩ he

/-- A replayed run of events that meet the guard in every state. -/
theorem of_execBy (es : List ε) {s : σ} (hG : ∀ e ∈ es, ∀ s, G s e)
    (h : exec step s es = some s') : ReachBy step G s s' := by
  induction es generalizing s with
  | nil => cases h; exact refl
  | cons e es ih =>
    obtain ⟨he, hG⟩ := List.forall_mem_cons.1 hG
    obtain ⟨t, ht, h⟩ := Option.bind_eq_some_iff.1 h
    exact head (he s) ht (ih hG h)

/-- A replayed run of events that meet the guard where they happen. -/
theorem of_along (es : List ε) {s : σ} (hG : Along step G s es) (h : exec step s es = some s') :
    ReachBy step G s s' := by
  induction es generalizing s with
  | nil => cases h; exact refl
  | cons e es ih =>
    obtain ⟨t, ht, h⟩ := Option.bind_eq_some_iff.1 h
    exact head hG.1 ht (ih (hG.2 t ht) h)

theorem of_exec (es : List ε) (h : exec step s es = some s') : Reach step s s' :=
  of_execBy es (fun _ _ _ => trivial) h

end ReachBy

end Lib
