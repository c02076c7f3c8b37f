/-
  What can be brought about.

  `LeadsTo step G I P Q`: from every state of the invariant `I` that meets `P`,
  some guarded run ends in a state of `I` that meets `Q`.  It says what the
  system can always be brought to, and nothing about runs that do something
  else.

  * `LeadsTo.one`, `LeadsTo.trans`, `LeadsTo.either`: one step, a run after a run,
    and a case distinction;
  * `LeadsTo.keep`: what every step keeps may be carried along;
  * `LeadsTo.rank`: a measure that a run can always lower reaches its end.
-/
import TjuTcp.Lib.Run

namespace Lib

variable {σ ε : Type*} {step : σ → ε → Option σ} {G : σ → ε → Prop} {I P Q R K : σ → Prop}

/-- From `P`, some guarded run leads to `Q`. -/
def LeadsTo (step : σ → ε → Option σ) (G : σ → ε → Prop) (I P Q : σ → Prop) : Prop :=
  ∀ s, I s → P s → ∃ t, ReachBy step G s t ∧ I t ∧ Q t

/-- Every guarded step keeps `I`. -/
def KeptBy (step : σ → ε → Option σ) (G : σ → ε → Prop) (I : σ → Prop) : Prop :=
  ∀ s e s', I s → G s e → step s e = some s' → I s'

namespace LeadsTo

/-- No step is needed. -/
theorem stay (h : ∀ s, I s → P s → Q s) : LeadsTo step G I P Q :=
  fun s hi hp => ⟨s, .refl, hi, h s hi hp⟩

/-- One step. -/
theorem one (hI : KeptBy step G I)
    (h : ∀ s, I s → P s → ∃ e s', G s e ∧ step s e = some s' ∧ Q s') : LeadsTo step G I P Q := by
  intro s hi hp
  obtain ⟨e, s', hG, he, hq⟩ := h s hi hp
  exact ⟨s', .one hG he, hI s e s' hi hG he, hq⟩

theorem trans (h : LeadsTo step G I P Q) (h' : LeadsTo step G I Q R) : LeadsTo step G I P R := by
  intro s hi hp
  obtain ⟨t, hr, hi, hq⟩ := h s hi hp
  obtain ⟨u, hr', hi, hu⟩ := h' t hi hq
  exact ⟨u, hr.trans hr', hi, hu⟩

/-- One of two runs. -/
theorem either (h : LeadsTo step G I P R) (h' : LeadsTo step G I Q R) :
    LeadsTo step G I (fun s => P s ∨ Q s) R :=
  fun s hi hpq => hpq.elim (h s hi) (h' s hi)

/-- What is assumed may be more, and what is shown less. -/
theorem mono {P' Q' : σ → Prop} (h : LeadsTo step G I P Q) (hP : ∀ s, I s → P' s → P s)
    (hQ : ∀ s, I s → Q s → Q' s) : LeadsTo step G I P' Q' := by
  intro s hi hp
  obtain ⟨t, hr, hi, hq⟩ := h s hi (hP s hi hp)
  exact ⟨t, hr, hi, hQ t hi hq⟩

/-- **What every step keeps** may be carried along. -/
theorem keep (hK : KeptBy step G fun s => I s ∧ K s) (h : LeadsTo step G I P Q) :
    LeadsTo step G I (fun s => K s ∧ P s) (fun s => K s ∧ Q s) := by
  rintro s hi ⟨hk, hp⟩
  obtain ⟨t, hr, hi', hq⟩ := h s hi hp
  exact ⟨t, hr, hi', (hr.inv (I := fun s => I s ∧ K s) ⟨hi, hk⟩ hK).2, hq⟩

/-- **The rule of the measure.**  If some run from `P` always reaches `Q`, or `P` again with a
    smaller measure, then some run reaches `Q`. -/
theorem rank (μ : σ → ℕ)
    (h : ∀ n, LeadsTo step G I (fun s => P s ∧ μ s = n) fun s => Q s ∨ P s ∧ μ s < n) :
    LeadsTo step G I P Q := by
  intro s hi hp
  induction hn : μ s using Nat.strong_induction_on generalizing s with
  | _ n ih =>
    obtain ⟨t, hr, hi, hq | ⟨hp, hlt⟩⟩ := h n s hi ⟨hp, hn⟩
    · exact ⟨t, hr, hi, hq⟩
    · obtain ⟨u, hr', hi, hq⟩ := ih (μ t) hlt t hi hp rfl
      exact ⟨u, hr.trans hr', hi, hq⟩

end LeadsTo

end Lib
