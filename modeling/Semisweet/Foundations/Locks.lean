import Mathlib.Logic.Function.Basic

/-!
# One lock, one holder

A family of tasks, each in a phase, and a lock that at most one of them holds. Some phases
are inside the lock. That every task inside holds the lock is kept by taking a free lock, by
moving on while the lock is held, and by leaving; so no two tasks are inside at once. That the
holder is inside is kept as well.
-/

namespace Semisweet.Foundations

variable {ι φ : Type*} {inside : φ → Prop} {phase : ι → φ} {holder : Option ι} {i j : ι} {x : φ}

/-- Every task inside holds the lock. -/
def Guards (holder : Option ι) (inside : φ → Prop) (phase : ι → φ) : Prop :=
  ∀ i, inside (phase i) → holder = some i

/-- No two tasks are inside. -/
theorem Guards.unique (h : Guards holder inside phase) (hi : inside (phase i))
    (hj : inside (phase j)) : i = j :=
  Option.some.inj ((h i hi).symm.trans (h j hj))

variable [DecidableEq ι]

/-- A task takes the free lock. -/
theorem Guards.acquire (h : Guards none inside phase) :
    Guards (some i) inside (Function.update phase i x) := by
  intro j hj
  by_cases hji : j = i
  · rw [hji]
  · rw [Function.update_of_ne hji] at hj
    cases h j hj

/-- A task moves on, without touching the lock. -/
theorem Guards.move (h : Guards holder inside phase) (hx : inside x → holder = some i) :
    Guards holder inside (Function.update phase i x) := by
  intro j hj
  by_cases hji : j = i
  · subst hji
    rw [Function.update_self] at hj
    exact hx hj
  · rw [Function.update_of_ne hji] at hj
    exact h j hj

/-- The holder leaves, and the lock is free. -/
theorem Guards.release (h : Guards (some i) inside phase) (hx : ¬ inside x) :
    Guards none inside (Function.update phase i x) := by
  intro j hj
  by_cases hji : j = i
  · subst hji
    rw [Function.update_self] at hj
    exact absurd hj hx
  · rw [Function.update_of_ne hji] at hj
    exact absurd (Option.some.inj (h j hj)).symm hji

/-! ### The holder -/

/-- The task that holds the lock is inside. -/
def Held (holder : Option ι) (inside : φ → Prop) (phase : ι → φ) : Prop :=
  ∀ i, holder = some i → inside (phase i)

/-- A task takes the lock, and is inside. -/
theorem Held.acquire (hx : inside x) : Held (some i) inside (Function.update phase i x) := by
  intro j hj
  obtain rfl := Option.some.inj hj
  rwa [Function.update_self]

/-- A task moves on: if it was inside, it still is. -/
theorem Held.move (h : Held holder inside phase) (hx : inside (phase i) → inside x) :
    Held holder inside (Function.update phase i x) := by
  intro j hj
  by_cases hji : j = i
  · subst hji
    rw [Function.update_self]
    exact hx (h j hj)
  · rw [Function.update_of_ne hji]
    exact h j hj

omit [DecidableEq ι] in
/-- Nobody holds the lock. -/
theorem Held.free : Held none inside phase := fun _ hi => nomatch hi

end Semisweet.Foundations
