import Semisweet.Foundations.Runs

/-!
# Runs that come to an end

Some of a system's steps are its own, and others are asked of it. If every own step costs some of
a measure, then a run of own steps is no longer than the measure was at its start
(`Run.length_add_le`), and there is one to a state where no own step is left
(`Run.exists_settled`). What is left to do in such a state is what no own step does.
-/

namespace Semisweet.Foundations

universe u v

variable {σ : Type u} {α : Type v}

/-- The step is one of the system's own. -/
def Own (own : α → Prop) : Guard σ α := fun _ _ a => own a

/-- No step of the system's own can be taken. -/
def Settled (step : σ → α → σ → Prop) (own : α → Prop) (s : σ) : Prop :=
  ∀ a s', own a → ¬ step s a s'

namespace Run

variable {step : σ → α → σ → Prop} {own : α → Prop} {μ : σ → ℕ} {init s : σ} {h : History σ α}

/-- **A run of own steps is no longer than its measure.** -/
theorem length_add_le (hdec : ∀ s a s', own a → step s a s' → μ s' < μ s)
    (hrun : Run step init (Own own) h s) : h.length + μ s ≤ μ init := by
  induction hrun with
  | start => simp
  | next _ hown hstep ih =>
    have := hdec _ _ _ hown hstep
    rw [List.length_append, List.length_singleton]
    omega

/-- **Own steps can be taken to the end.** -/
theorem exists_settled (hdec : ∀ s a s', own a → step s a s' → μ s' < μ s) (init : σ) :
    ∃ h s, Run step init (Own own) h s ∧ Settled step own s := by
  -- a longest run ends where no own step is left
  by_contra hno
  have hgo : ∀ n, ∃ h s, Run step init (Own own) h s ∧ h.length = n := by
    intro n
    induction n with
    | zero => exact ⟨[], init, .start, rfl⟩
    | succ n ih =>
      obtain ⟨h, s, hrun, hlen⟩ := ih
      have hmore : ¬ Settled step own s := fun hset => hno ⟨h, s, hrun, hset⟩
      simp only [Settled, not_forall, not_not] at hmore
      obtain ⟨a, s', hown, hstep⟩ := hmore
      exact ⟨h ++ [(s, a)], s', hrun.next hown hstep, by simp [hlen]⟩
  obtain ⟨h, s, hrun, hlen⟩ := hgo (μ init + 1)
  have := length_add_le hdec hrun
  omega

/-- A run of own steps goes on from a run. -/
theorem append_own {h₁ h₂ : History σ α} {m : σ} (hrun : Run step init Always h₁ m)
    (hown : Run step m (Own own) h₂ s) : Run step init Always (h₁ ++ h₂) s :=
  append_iff.mpr ⟨m, hrun, hown.mono fun _ _ _ _ _ _ _ => trivial⟩

end Run

end Semisweet.Foundations
