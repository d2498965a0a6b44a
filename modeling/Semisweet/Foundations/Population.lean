import Mathlib.Algebra.BigOperators.Group.Finset.Basic
import Mathlib.Data.Set.Card

/-!
# How many are where

A family of tasks, each in a phase, and the number of those whose phase has a property. Tasks
move one at a time: one that moves into the property adds one to the number, and one that moves
out of it takes one away. If every phase costs something, the sum of what the tasks cost changes
by what the one that moves does (`sum_move`).
-/

namespace Semisweet.Foundations

variable {ι φ : Type*} {P : φ → Prop} {phase : ι → φ}

/-- How many tasks are in a phase with the property. -/
noncomputable def population (P : φ → Prop) (phase : ι → φ) : ℕ := {i | P (phase i)}.ncard

theorem population_eq_zero_iff (hfin : {i | P (phase i)}.Finite) :
    population P phase = 0 ↔ ∀ i, ¬ P (phase i) := by
  rw [population, Set.ncard_eq_zero hfin, Set.eq_empty_iff_forall_notMem]
  rfl

/-- The number of those with one property or the other. -/
theorem population_or [Finite ι] {Q : φ → Prop} (hdisj : ∀ x, P x → ¬ Q x) :
    population (fun x => P x ∨ Q x) phase = population P phase + population Q phase :=
  Set.ncard_union_eq (Set.disjoint_left.mpr fun i hp hq => hdisj (phase i) hp hq)
    (Set.toFinite _) (Set.toFinite _)

/-- All tasks have the property. -/
theorem population_eq_card_iff [Finite ι] :
    population P phase = Nat.card ι ↔ ∀ i, P (phase i) := by
  rw [population, ← Set.ncard_univ]
  constructor
  · intro hcard i
    have huniv := Set.eq_of_subset_of_ncard_le (Set.subset_univ {i | P (phase i)}) hcard.ge
    exact huniv.ge (Set.mem_univ i)
  · intro hall
    rw [Set.eq_univ_of_forall (s := {i | P (phase i)}) hall]

variable [DecidableEq ι] {i : ι} {x : φ}

/-- One task moves into the property. -/
theorem population_enter (hfin : {j | P (phase j)}.Finite) (hi : ¬ P (phase i)) (hx : P x) :
    population P (Function.update phase i x) = population P phase + 1 := by
  have hset : {j | P (Function.update phase i x j)} = insert i {j | P (phase j)} := by
    ext j
    by_cases hj : j = i
    · subst hj
      simp [hx]
    · simp [hj]
  rw [population, population, hset]
  exact Set.ncard_insert_of_notMem hi hfin

/-- One task moves out of it. -/
theorem population_leave (hfin : {j | P (phase j)}.Finite) (hi : P (phase i)) (hx : ¬ P x) :
    population P (Function.update phase i x) + 1 = population P phase := by
  have hset : {j | P (Function.update phase i x j)} = {j | P (phase j)} \ {i} := by
    ext j
    by_cases hj : j = i
    · subst hj
      simp [hx]
    · simp [hj]
  rw [population, population, hset]
  exact Set.ncard_sdiff_singleton_add_one hi hfin

/-- One task moves, and those with the property are still finitely many. -/
theorem population_finite (hfin : {j | P (phase j)}.Finite) :
    {j | P (Function.update phase i x j)}.Finite := by
  refine (hfin.insert i).subset fun j hj => ?_
  by_cases hji : j = i
  · exact .inl hji
  · exact .inr (by simpa [hji] using hj)

/-- One task moves, and the sum changes by its change. -/
theorem sum_move [Fintype ι] (cost : ι → φ → ℕ) (phase : ι → φ) (i : ι) (x : φ) :
    ∑ j, cost j (Function.update phase i x j) + cost i (phase i) =
      ∑ j, cost j (phase j) + cost i x := by
  have hothers : ∑ j ∈ Finset.univ.erase i, cost j (Function.update phase i x j) =
      ∑ j ∈ Finset.univ.erase i, cost j (phase j) :=
    Finset.sum_congr rfl fun j hj => by rw [Function.update_of_ne (Finset.ne_of_mem_erase hj)]
  rw [← Finset.add_sum_erase _ _ (Finset.mem_univ i), hothers, Function.update_self,
    ← Finset.add_sum_erase _ (fun j => cost j (phase j)) (Finset.mem_univ i)]
  omega

end Semisweet.Foundations
