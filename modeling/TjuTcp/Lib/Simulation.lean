/-
  Simulation between two systems.

  A step of the lower system shows a list of events of the upper one, empty if
  it is internal.  `Simulates` says that the upper system can make these steps,
  and that the relation of the states is kept.

  * `Simulates.run`: every run of the lower system shows a run of the upper one;
  * `ReachBy.realised`: every run of the upper system is done by one of the lower one;
  * `along_of_back`: what a step cannot bring back holds all along a run at whose
    end it holds.
-/
import TjuTcp.Lib.Run

namespace Lib

variable {σ ε τ κ : Type*} {step : σ → ε → Option σ} {up : τ → κ → Option τ}
  {G : σ → ε → Prop} {shows : σ → ε → List κ} {R : σ → τ → Prop} {s s' : σ} {t t' : τ}

/-- What the replayed run with the events `es` shows. -/
def shown (step : σ → ε → Option σ) (shows : σ → ε → List κ) : σ → List ε → List κ
  | _, [] => []
  | s, e :: es => shows s e ++ ((step s e).map (shown step shows · es)).getD []

theorem shown_cons {e : ε} (he : step s e = some s') (es : List ε) :
    shown step shows s (e :: es) = shows s e ++ shown step shows s' es := by
  simp only [shown, he, Option.map_some, Option.getD_some]

theorem exec_append (es fs : List ε) (s : σ) :
    exec step s (es ++ fs) = (exec step s es).bind (exec step · fs) := by
  induction es generalizing s with
  | nil => rfl
  | cons e es ih =>
    simp only [List.cons_append, exec, Option.bind_assoc]
    exact congrArg _ (funext ih)

/-- A run after a run. -/
theorem exec_trans {es fs : List ε} {u : σ} (h : exec step s es = some s')
    (h' : exec step s' fs = some u) : exec step s (es ++ fs) = some u := by
  rw [exec_append, h]
  exact h'

/-- A replayed run that does not get stuck ends in the state that it computes. -/
theorem exec_getD {es : List ε} (h : (exec step s es).isSome) (s' : σ) :
    exec step s es = some ((exec step s es).getD s') := by
  obtain ⟨t, ht⟩ := Option.isSome_iff_exists.1 h
  rw [ht]
  rfl

/-- The upper system makes the steps that a guarded step of the lower one shows. -/
def Simulates (step : σ → ε → Option σ) (G : σ → ε → Prop) (up : τ → κ → Option τ)
    (shows : σ → ε → List κ) (R : σ → τ → Prop) : Prop :=
  ∀ s e s' t, R s t → G s e → step s e = some s' →
    ∃ t', exec up t (shows s e) = some t' ∧ R s' t'

/-- **The simulation rule.** -/
theorem Simulates.run (h : Simulates step G up shows R) (es : List ε) (hR : R s t)
    (hG : Along step G s es) (he : exec step s es = some s') :
    ∃ t', exec up t (shown step shows s es) = some t' ∧ R s' t' := by
  induction es generalizing s t with
  | nil =>
    cases he
    exact ⟨t, rfl, hR⟩
  | cons e es ih =>
    obtain ⟨u, hu, he⟩ := Option.bind_eq_some_iff.1 he
    obtain ⟨t₁, h1, hR₁⟩ := h s e u t hR hG.1 hu
    obtain ⟨t', h2, hR'⟩ := ih hR₁ (hG.2 u hu) he
    exact ⟨t', by rw [shown_cons hu]; exact exec_trans h1 h2, hR'⟩

/-- **The refinement rule.**  If a guarded run of the lower system does what each guarded step of
    the upper one does, then a guarded run of it does what a whole run does. -/
theorem ReachBy.realised {H : τ → κ → Prop} (hr : ReachBy up H t t') (hR : R s t)
    (hstep : ∀ s t e t', R s t → H t e → up t e = some t' → ∃ s', ReachBy step G s s' ∧ R s' t') :
    ∃ s', ReachBy step G s s' ∧ R s' t' := by
  induction hr with
  | refl => exact ⟨s, ReachBy.refl, hR⟩
  | tail _ hn ih =>
    obtain ⟨u, hu, hRu⟩ := ih
    obtain ⟨e, hH, he⟩ := hn
    obtain ⟨s', hs', hR'⟩ := hstep u _ e _ hRu hH he
    exact ⟨s', hu.trans hs', hR'⟩

/-- Two guards that the events of the run meet. -/
theorem Along.both {H : σ → ε → Prop} (es : List ε) (hG : Along step G s es)
    (hH : Along step H s es) : Along step (fun s e => G s e ∧ H s e) s es := by
  induction es generalizing s with
  | nil => trivial
  | cons e es ih => exact ⟨⟨hG.1, hH.1⟩, fun t ht => ih (hG.2 t ht) (hH.2 t ht)⟩

/-- What holds at the end, and holds before every step after which it holds. -/
theorem along_of_back {P : σ → Prop} (hback : ∀ s e s', step s e = some s' → P s' → P s)
    (es : List ε) (he : exec step s es = some s') (hP : P s') :
    P s ∧ Along step (fun s e => ∀ t, step s e = some t → P t) s es := by
  induction es generalizing s with
  | nil =>
    cases he
    exact ⟨hP, trivial⟩
  | cons e es ih =>
    obtain ⟨u, hu, he⟩ := Option.bind_eq_some_iff.1 he
    obtain ⟨hPu, hrest⟩ := ih he
    have heq : ∀ t, step s e = some t → t = u := fun t ht => Option.some.inj (ht.symm.trans hu)
    refine ⟨hback s e u hu hPu, fun t ht => ?_, fun t ht => ?_⟩
    · rw [heq t ht]
      exact hPu
    · rw [heq t ht]
      exact hrest

end Lib
