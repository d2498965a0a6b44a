import Semisweet.Core.Newtype
import Semisweet.Foundations.Ranking

/-!
# Scoring: when a candidate is a hit

The records a vector store is asked with and answers with (`src/vector.rs`), and
`ScoringConfig`, which decides which candidate of an answer is the hit (`src/scoring.rs`).

"A candidate is accepted only if it clears, in order": the entity hard-gate, the context
hard-gate, and the dense floor. Of the accepted candidates the one with the highest dense
score is selected; "an exact dense-score tie keeps the first hit in `hits` order".

## The model

Scores are elements of an ordered field `R`, where `total_cmp` and `<` agree. `accept` and
`select` never fail, so they return their `Ok` values. A vector store answers with hits in
order of decreasing dense score, and on such a list `select` returns the first accepted
hit (`select_eq_find?`).
-/

namespace Semisweet.Core

open Semisweet.Foundations

/-! ### The records of a vector store -/

/-- `Filter`. -/
structure Filter where
  /-- Every one of these keys must be present. -/
  keysAll : Finset Key
  /-- One of these entities must be present, if there are any. -/
  entitiesAny : Finset Entity

/-- `VectorEntry`. -/
structure VectorEntry (R : Type) [Field R] where
  /-- The entry's id. -/
  id : EntryId
  /-- The embedding of its query. -/
  vector : Embedding R
  /-- Its keys. -/
  keys : Finset Key
  /-- Its entities. -/
  entities : Finset Entity
  /-- Its context. -/
  context : Option Context

/-- `ScoredHit`. -/
structure ScoredHit (R : Type) where
  /-- The entry's id. -/
  id : EntryId
  /-- The cosine of the query and the entry. -/
  denseScore : R
  /-- The context BM25 match, in `[0, 1]`. -/
  sparseScore : R
  /-- The entry's entities. -/
  entities : Finset Entity
  /-- The entry's context. -/
  context : Option Context

/-! ### The configuration -/

/-- `ContextMode`. -/
inductive ContextMode where
  /-- Contexts do not count. -/
  | ignore
  /-- A context-bearing query must match the candidate's context. -/
  | gate
  deriving DecidableEq, Repr

/-- `ScoringConfig`. -/
structure ScoringConfig (R : Type) where
  /-- The dense floor. -/
  threshold : R
  /-- Whether the entities of a query filter the candidates. -/
  entityFilter : Bool
  /-- What a query's context does. -/
  context : ContextMode
  /-- The least context match. -/
  contextGate : R
  /-- The dense floor once the context matches. -/
  contextThreshold : R
  /-- How many candidates to ask for. -/
  topK : ℕ+

/-- `ScoringConfig::default`. -/
def ScoringConfig.default {R : Type} [Field R] : ScoringConfig R where
  threshold := 92 / 100
  entityFilter := true
  context := .gate
  contextGate := 10 / 100
  contextThreshold := 88 / 100
  topK := 10

namespace ScoringConfig

variable {R : Type} [LinearOrder R]

/-- How many of `n` query entities must overlap the hit's. -/
def required (n : ℕ) : ℕ := max (n / 3) 1

/-- The entity hard-gate. -/
def entityGate (queryEntities entities : Finset Entity) : Bool :=
  let n := queryEntities.card
  if n > 0 then !decide ((queryEntities ∩ entities).card < required n) else true

/-- `ScoringConfig::accept`. -/
def accept (self : ScoringConfig R) (queryEntities : Finset Entity) (queryContext : Option Context)
    (hit : ScoredHit R) : Bool :=
  if !entityGate queryEntities hit.entities then false
  else
    match self.context, queryContext with
    | .gate, some _ =>
      if hit.sparseScore < self.contextGate then false
    else decide (self.contextThreshold ≤ hit.denseScore)
    | _, _ => decide (self.threshold ≤ hit.denseScore)

/-- `ScoringConfig::select`. -/
def select (self : ScoringConfig R) (queryEntities : Finset Entity) (queryContext : Option Context)
    (hits : List (ScoredHit R)) : Option (ScoredHit R) :=
  firstBest ScoredHit.denseScore (self.accept queryEntities queryContext) hits

/-- The entity gate, as the documentation states it: with `n > 0` query entities, at least
`max (1, n / 3)` overlap. -/
theorem entityGate_iff {q e : Finset Entity} :
    entityGate q e = true ↔ (0 < q.card → max 1 (q.card / 3) ≤ (q ∩ e).card) := by
  unfold entityGate required
  by_cases hn : 0 < q.card
  · simp only [gt_iff_lt, hn, if_true, Bool.not_eq_true', decide_eq_false_iff_not,
      not_lt, true_imp_iff]
    rw [max_comm]
  · simp [hn]

/-- The dense floor and the context gate of a hit, as the documentation states them. -/
def Floors (self : ScoringConfig R) (queryContext : Option Context) (dense sparse : R) : Prop :=
  if self.context = .gate ∧ queryContext.isSome then
    self.contextGate ≤ sparse ∧ self.contextThreshold ≤ dense
  else self.threshold ≤ dense

/-- **What `accept` accepts**: a hit that passes the entity gate and clears its floors. -/
theorem accept_iff {self : ScoringConfig R} {q : Finset Entity} {c : Option Context}
    {hit : ScoredHit R} :
    self.accept q c hit = true ↔
      entityGate q hit.entities = true ∧ self.Floors c hit.denseScore hit.sparseScore := by
  unfold accept Floors
  cases hg : entityGate q hit.entities
  · simp
  · cases hm : self.context <;> cases c <;> simp

/-- A hit that passes the entity gate of a query with entities shares one with it. -/
theorem inter_nonempty_of_entityGate {q e : Finset Entity} (h : entityGate q e = true)
    (hq : q.Nonempty) :
    (q ∩ e).Nonempty := by
  have hle := entityGate_iff.mp h (Finset.card_pos.mpr hq)
  exact Finset.card_pos.mp (lt_of_lt_of_le Nat.one_pos ((le_max_left _ _).trans hle))

/-- On hits in order of decreasing dense score, `select` returns the first accepted one. -/
theorem select_eq_find? (self : ScoringConfig R) (q : Finset Entity) (c : Option Context)
    {hits : List (ScoredHit R)} (h : hits.Pairwise fun a b => b.denseScore ≤ a.denseScore) :
    self.select q c hits = hits.find? (self.accept q c) :=
  firstBest_eq_find? _ _ h

end ScoringConfig

end Semisweet.Core
