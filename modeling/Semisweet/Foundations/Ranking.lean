import Mathlib.Data.List.Induction
import Mathlib.Data.List.Perm.Basic
import Mathlib.Data.List.Sort
import Mathlib.Order.Basic

/-!
# Ranking by a score, and choosing from a ranking

Items carry a score in a linear order. `rank` sorts them by decreasing score and keeps
the order of items with the same score, as a stable sort does. `firstBest` goes through
a list once and keeps the accepted item of the highest score, the first of several
(`firstBest_eq_some_iff`). On a ranked list that is the first accepted item
(`firstBest_eq_find?`), which no accepted item outscores (`score_le_of_find?`). `IsTop` says that a
list is a ranking of the best items of a pool, whichever way ties are broken.
-/

namespace Semisweet.Foundations

universe u v

variable {α : Type u} {S : Type v} [LinearOrder S] (score : α → S)

/-! ### Ranking -/

/-- Sort by decreasing score, keeping the order of items with the same score. -/
def rank (l : List α) : List α := l.insertionSort fun a b => score b ≤ score a

instance score_total : Std.Total fun a b : α => score b ≤ score a :=
  ⟨fun a b => le_total (score b) (score a)⟩

instance score_trans : IsTrans α fun a b : α => score b ≤ score a :=
  ⟨fun _ _ _ hab hbc => le_trans hbc hab⟩

theorem rank_perm (l : List α) : (rank score l).Perm l := List.perm_insertionSort _ l

@[simp] theorem mem_rank {a : α} {l : List α} : a ∈ rank score l ↔ a ∈ l :=
  (rank_perm score l).mem_iff

/-- Scores do not increase along a ranking. -/
theorem rank_pairwise (l : List α) : (rank score l).Pairwise fun a b => score b ≤ score a :=
  List.pairwise_insertionSort _ l

/-- An item no item outscores, put in front, is ranked first. -/
theorem rank_cons_of_forall_le {a : α} {l : List α} (h : ∀ b ∈ l, score b ≤ score a) :
    rank score (a :: l) = a :: rank score l := by
  have h' : ∀ b ∈ rank score l, score b ≤ score a := fun b hb => h b ((mem_rank score).mp hb)
  show List.orderedInsert _ a (rank score l) = a :: rank score l
  cases hl : rank score l with
  | nil => rfl
  | cons b t => exact List.orderedInsert_cons_of_le _ _ (h' b (by simp [hl]))

/-- **Truncating a ranking** leaves out no item that outscores one that is kept. -/
theorem score_le_of_mem_drop {l : List α} {n : ℕ} {a b : α} (ha : a ∈ (rank score l).take n)
    (hb : b ∈ (rank score l).drop n) : score b ≤ score a := by
  have hp := rank_pairwise score l
  rw [← List.take_append_drop n (rank score l), List.pairwise_append] at hp
  exact hp.2.2 a ha b hb

/-- A truncated ranking has as many items as there are, up to the limit. -/
theorem length_take_rank (l : List α) (n : ℕ) :
    ((rank score l).take n).length = min n l.length := by
  rw [List.length_take, (rank_perm score l).length_eq]

/-- `top` are the `n` items of the highest scores, best first; which of several items with the same
score are among them, and in which order, is open. -/
structure IsTop (n : ℕ) (pool top : List α) : Prop where
  /-- Nothing that is left out outscores what is there. -/
  best : ∃ rest, (top ++ rest).Perm pool ∧ ∀ a ∈ top, ∀ b ∈ rest, score b ≤ score a
  /-- Scores do not increase. -/
  ordered : top.Pairwise fun a b => score b ≤ score a
  /-- There are `n`, or as many as there are. -/
  length : top.length = min n pool.length

namespace IsTop

variable {score} {n : ℕ} {pool top : List α}

theorem subset (h : IsTop score n pool top) : top ⊆ pool := by
  obtain ⟨rest, hperm, -⟩ := h.best
  exact fun a ha => hperm.subset (List.mem_append_left rest ha)

theorem nodup_map {β : Type u} {f : α → β} (h : IsTop score n pool top)
    (hpool : (pool.map f).Nodup) :
    (top.map f).Nodup := by
  obtain ⟨rest, hperm, -⟩ := h.best
  have hall := ((hperm.map f).nodup_iff).mpr hpool
  rw [List.map_append] at hall
  exact hall.of_append_left

/-- Where there is room, everything is there. -/
theorem mem_of_length_le (h : IsTop score n pool top) (hroom : pool.length ≤ n) {a : α}
    (ha : a ∈ pool) : a ∈ top := by
  obtain ⟨rest, hperm, -⟩ := h.best
  have hlen := hperm.length_eq
  rw [List.length_append, h.length, Nat.min_eq_right hroom] at hlen
  obtain rfl : rest = [] := List.length_eq_zero_iff.mp (by omega)
  rw [List.append_nil] at hperm
  exact hperm.mem_iff.mpr ha

/-- The order of the pool does not count. -/
theorem perm {pool' : List α} (h : IsTop score n pool top) (hpool : pool.Perm pool') :
    IsTop score n pool' top := by
  obtain ⟨rest, hperm, hbest⟩ := h.best
  exact ⟨⟨rest, hperm.trans hpool, hbest⟩, h.ordered, by rw [h.length, hpool.length_eq]⟩

end IsTop

variable (accept : α → Bool)

/-- One item seen: it replaces the best so far if it is accepted and scores higher. -/
def better (best : Option α) (a : α) : Option α :=
  if accept a then
    match best with
    | some b => if score b < score a then some a else best
    | none => some a
  else best

/-- The accepted item of the highest score, the first of several. -/
def firstBest (l : List α) : Option α := l.foldl (better score accept) none

/-- A best that nothing accepted later outscores is kept. -/
theorem foldl_better_of_le {l : List α} {c : α}
    (h : ∀ b ∈ l, accept b = true → score b ≤ score c) :
    l.foldl (better score accept) (some c) = some c := by
  induction l with
  | nil => rfl
  | cons x l ih =>
    have hx : better score accept (some c) x = some c := by
      by_cases ha : accept x = true
      · have := h x List.mem_cons_self ha
        simp [better, not_lt.mpr this]
      · simp [better, ha]
    rw [List.foldl_cons, hx]
    exact ih fun b hb => h b (List.mem_cons_of_mem _ hb)

/-- The first of the accepted items that no accepted item outscores. -/
def IsFirstBest (l : List α) (a : α) : Prop :=
  ∃ before after, l = before ++ a :: after ∧ accept a = true ∧
    (∀ b ∈ before, accept b = true → score b < score a) ∧
      ∀ b ∈ after, accept b = true → score b ≤ score a

variable {score accept} in
/-- No accepted item outscores it. -/
theorem IsFirstBest.le {l : List α} {a b : α} (h : IsFirstBest score accept l a) (hb : b ∈ l)
    (hacc : accept b = true) : score b ≤ score a := by
  obtain ⟨before, after, rfl, -, hbefore, hafter⟩ := h
  rcases List.mem_append.mp hb with hb | hb
  · exact (hbefore b hb hacc).le
  · rcases List.mem_cons.mp hb with rfl | hb
    · exact le_rfl
    · exact hafter b hb hacc

theorem firstBest_snoc (l : List α) (x : α) :
    firstBest score accept (l ++ [x]) = better score accept (firstBest score accept l) x := by
  simp [firstBest, List.foldl_append]

/-- What a list without accepted items, or with one, makes of the choice. -/
theorem firstBest_cases (l : List α) :
    (firstBest score accept l = none ∧ ∀ a ∈ l, accept a = false) ∨
      ∃ a, firstBest score accept l = some a ∧ IsFirstBest score accept l a := by
  induction l using List.reverseRecOn with
  | nil => exact .inl ⟨rfl, by simp⟩
  | append_singleton l x ih =>
    rw [firstBest_snoc]
    by_cases hx : accept x = true
    · rcases ih with ⟨hnone, hno⟩ | ⟨a, ha, hbest⟩
      · refine .inr ⟨x, by simp [better, hx, hnone], l, [], rfl, hx, ?_, by simp⟩
        intro b hb hacc
        simp [hno b hb] at hacc
      · by_cases hlt : score a < score x
        · refine .inr ⟨x, by simp [better, hx, ha, hlt], l, [], rfl, hx, ?_, by simp⟩
          exact fun b hb hacc => (hbest.le hb hacc).trans_lt hlt
        · refine .inr ⟨a, by simp [better, ha, hlt], ?_⟩
          obtain ⟨before, after, rfl, hacc, hbefore, hafter⟩ := hbest
          refine ⟨before, after ++ [x], by simp, hacc, hbefore, fun b hb hb' => ?_⟩
          rcases List.mem_append.mp hb with hb | hb
          · exact hafter b hb hb'
          · obtain rfl := List.mem_singleton.mp hb
            exact not_lt.mp hlt
    · have hskip : better score accept (firstBest score accept l) x = firstBest score accept l := by
        simp [better, hx]
      rw [hskip]
      rw [Bool.not_eq_true] at hx
      rcases ih with ⟨hnone, hno⟩ | ⟨a, ha, before, after, rfl, hacc, hbefore, hafter⟩
      · refine .inl ⟨hnone, fun b hb => ?_⟩
        rcases List.mem_append.mp hb with hb | hb
        · exact hno b hb
        · rwa [List.mem_singleton.mp hb]
      · refine .inr ⟨a, ha, before, after ++ [x], by simp, hacc, hbefore, fun b hb hb' => ?_⟩
        rcases List.mem_append.mp hb with hb | hb
        · exact hafter b hb hb'
        · rw [List.mem_singleton.mp hb, hx] at hb'
          cases hb'

/-- Nothing is chosen when nothing is accepted. -/
theorem firstBest_eq_none_iff {l : List α} :
    firstBest score accept l = none ↔ ∀ a ∈ l, accept a = false := by
  rcases firstBest_cases score accept l with ⟨hnone, hno⟩ | ⟨a, ha, hbest⟩
  · exact iff_of_true hnone hno
  · obtain ⟨before, after, rfl, hacc, -⟩ := hbest
    refine iff_of_false (by simp [ha]) fun hno => ?_
    simp [hno a (by simp)] at hacc

/-- **What is chosen.** -/
theorem firstBest_eq_some_iff {l : List α} {a : α} :
    firstBest score accept l = some a ↔ IsFirstBest score accept l a := by
  constructor
  · intro h
    rcases firstBest_cases score accept l with ⟨hnone, -⟩ | ⟨a', ha', hbest⟩
    · simp [hnone] at h
    · obtain rfl : a' = a := by simpa [ha'] using h
      exact hbest
  · rintro ⟨before, after, rfl, hacc, hbefore, hafter⟩
    have hchosen : firstBest score accept (before ++ [a]) = some a := by
      rw [firstBest_snoc]
      rcases firstBest_cases score accept before with ⟨hnone, -⟩ | ⟨b, hb, hbest⟩
      · simp [better, hacc, hnone]
      · obtain ⟨l₁, l₂, rfl, hacc', -⟩ := hbest
        have hlt := hbefore b (by simp) hacc'
        simp [better, hacc, hb, hlt]
    rw [List.append_cons, firstBest, List.foldl_append]
    rw [firstBest] at hchosen
    rw [hchosen]
    exact foldl_better_of_le score accept hafter

variable {score accept} in
/-- **Accepting more does not change the choice**, if nothing that is newly accepted scores as high
as something accepted before. -/
theorem IsFirstBest.of_weaker {accept' : α → Bool} {l : List α} {a : α}
    (h : IsFirstBest score accept l a) (hle : ∀ b ∈ l, accept b = true → accept' b = true)
    (hnew : ∀ b ∈ l, accept' b = true → accept b = false → score b < score a) :
    IsFirstBest score accept' l a := by
  obtain ⟨before, after, rfl, hacc, hbefore, hafter⟩ := h
  refine ⟨before, after, rfl, hle a (by simp) hacc, fun b hb hb' => ?_, fun b hb hb' => ?_⟩
  · cases hacc' : accept b with
    | true => exact hbefore b hb hacc'
    | false => exact hnew b (by simp [hb]) hb' hacc'
  · cases hacc' : accept b with
    | true => exact hafter b hb hacc'
    | false => exact (hnew b (by simp [hb]) hb' hacc').le

/-- **On a ranked list the first accepted item is chosen.** -/
theorem firstBest_eq_find? {l : List α} (h : l.Pairwise fun a b => score b ≤ score a) :
    firstBest score accept l = l.find? accept := by
  unfold firstBest
  induction l with
  | nil => rfl
  | cons x l ih =>
    obtain ⟨hx, hl⟩ := List.pairwise_cons.mp h
    by_cases ha : accept x = true
    · rw [List.foldl_cons, List.find?_cons_of_pos ha]
      simp only [better, ha, if_true]
      exact foldl_better_of_le score accept fun b hb _ => hx b hb
    · rw [List.foldl_cons, List.find?_cons_of_neg ha]
      simp only [better, ha, if_false, Bool.false_eq_true]
      exact ih hl

/-- On a ranked list no accepted item outscores the first accepted one. -/
theorem score_le_of_find? {l : List α} (h : l.Pairwise fun a b => score b ≤ score a) {a b : α}
    (ha : l.find? accept = some a) (hb : b ∈ l) (hacc : accept b = true) : score b ≤ score a := by
  induction l with
  | nil => simp at hb
  | cons x l ih =>
    obtain ⟨hx, hl⟩ := List.pairwise_cons.mp h
    by_cases hax : accept x = true
    · rw [List.find?_cons_of_pos hax, Option.some.injEq] at ha
      subst ha
      rcases List.mem_cons.mp hb with rfl | hb
      · exact le_rfl
      · exact hx b hb
    · rw [List.find?_cons_of_neg hax] at ha
      rcases List.mem_cons.mp hb with rfl | hb
      · exact absurd hacc hax
      · exact ih hl ha hb

/-- **Truncating a ranked list** loses no choice, if whatever scores as high as something accepted
is accepted. -/
theorem find?_take_of_upward {l : List α} (h : l.Pairwise fun a b => score b ≤ score a)
    (hup : ∀ a ∈ l, ∀ b ∈ l, accept a = true → score a ≤ score b → accept b = true) {n : ℕ}
    (hn : 0 < n) : (l.take n).find? accept = l.find? accept := by
  cases l with
  | nil => simp
  | cons x l =>
    obtain ⟨m, rfl⟩ := Nat.exists_eq_succ_of_ne_zero hn.ne'
    rw [List.take_succ_cons]
    by_cases hx : accept x = true
    · rw [List.find?_cons_of_pos hx, List.find?_cons_of_pos hx]
    · -- Nothing scores higher than the first item, so nothing is accepted.
      have hno : ∀ b ∈ x :: l, ¬ accept b = true := by
        intro b hb hacc
        refine hx (hup b hb x List.mem_cons_self hacc ?_)
        rcases List.mem_cons.mp hb with rfl | hb
        · exact le_rfl
        · exact (List.pairwise_cons.mp h).1 b hb
      rw [List.find?_eq_none.mpr hno, List.find?_eq_none.mpr]
      intro b hb
      refine hno b ?_
      rcases List.mem_cons.mp hb with rfl | hb
      · exact List.mem_cons_self
      · exact List.mem_cons_of_mem _ (List.mem_of_mem_take hb)

end Semisweet.Foundations
