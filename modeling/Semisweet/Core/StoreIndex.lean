import Semisweet.Core.Bm25
import Semisweet.Core.CacheHistory
import Semisweet.Core.StoreHistory

/-!
# The contexts and the BM25 index of a vector store

A shard of `MemoryVectorStore` keeps the contexts twice: in its entries, and as documents of
its BM25 index, from which the sparse score of a hit is computed. `index_context` updates the
index before the entry is put: "an entry with no context is left out of the index (it scores
0)". What it leaves out it does not remove, though: an entry without a context that replaces
one with a context leaves that context's document behind, and is scored by it.

## What is proved

* `represents_apply` — a call that does not replace a context by none keeps the documents those of
  the stored contexts.
* `indexed_iff` — so the index is right throughout, and every hit is scored by the context it
  carries, exactly when no call does that.
* `indexed_fails` — two calls after which it is not.
-/

namespace Semisweet.Core.MemoryVectorStore

open Semisweet.Foundations

variable {R : Type} [Field R] (P : Platform R)

/-- The contexts of the entries of a namespace. -/
def contextsOf (s : MemoryVectorStore R) (ns : Namespace) (id : EntryId) : Option Context :=
  (s.entries ns id).bind VectorEntry.context

/-- **The index has a document for an id exactly when the stored entry has a context**, and the
document's term counts and length are those of that context. -/
structure Indexed (s : MemoryVectorStore R) : Prop where
  /-- The term counts. -/
  termFrequency : ∀ ns id, (s.index ns).termFrequency id =
    (s.contextsOf ns id).map fun c => Bm25Index.termCounts (tokenize P c.asStr)
  /-- The lengths. -/
  documentLength : ∀ ns id, (s.index ns).documentLength id =
    (s.contextsOf ns id).map fun c => (tokenize P c.asStr).length

/-- The call does not put an entry without a context in place of one with a context. -/
def KeepsContext (s : MemoryVectorStore R) : Update R → Prop
  | .upsert ns entry => ∀ shard old, s ns = some shard → entry.vector.dim = shard.dim →
      shard.entries entry.id = some old → entry.context = none → old.context = none
  | .delete _ _ => True

/-- The index of every namespace holds the statistics of the stored contexts. -/
def Represented (s : MemoryVectorStore R) : Prop :=
  ∀ ns, ∃ ids, (s.index ns).Represents (Bm25Index.documents P (s.contextsOf ns)) ids

/-! ### One call -/

variable {P} {s s' : MemoryVectorStore R} {ns : Namespace} {entry : VectorEntry R} {u : Update R}
  {updates : List (Update R)}

theorem Represented.indexed (h : Represented P s) : Indexed P s := by
  constructor
  · intro ns id
    obtain ⟨ids, h⟩ := h ns
    rw [h.termFrequency, Bm25Index.documents, Function.comp_apply, Option.map_map]
    rfl
  · intro ns id
    obtain ⟨ids, h⟩ := h ns
    rw [h.documentLength, Bm25Index.documents, Function.comp_apply, Option.map_map]
    rfl

theorem represented_new : Represented P (new : MemoryVectorStore R) :=
  fun _ => ⟨∅, Bm25Index.represents_new⟩

/-- A namespace that is as it was has the index and the contexts it had. -/
theorem Represented.congr (h : Represented P s) (hns : s' ns = s ns) :
    ∃ ids, (s'.index ns).Represents (Bm25Index.documents P (s'.contextsOf ns)) ids := by
  have hindex : s'.index ns = s.index ns := by rw [index, index, hns]
  have hcontexts : s'.contextsOf ns = s.contextsOf ns := by
    funext id
    rw [contextsOf, contextsOf, entries, entries, hns]
  rw [hindex, hcontexts]
  exact h ns

/-- The contexts after a change of one entry. -/
theorem contextsOf_update {id : EntryId} {e : Option (VectorEntry R)}
    (h : s'.entries ns = Function.update (s.entries ns) id e) :
    s'.contextsOf ns = Function.update (s.contextsOf ns) id (e.bind VectorEntry.context) := by
  funext id'
  rw [contextsOf, h]
  by_cases hid : id' = id
  · subst hid
    simp
  · simp [hid, contextsOf]

/-- An entry that has no context and replaces none with a context changes no context. -/
theorem contextsOf_eq_none (hkeep : KeepsContext s (.upsert ns entry))
    (hu : s.upsert P ns entry = .ok s') (hnone : entry.context = none) :
    s.contextsOf ns entry.id = none := by
  rw [contextsOf, entries]
  cases hs : s ns with
  | none => rfl
  | some shard =>
    cases he : shard.entries entry.id with
    | none => simp [he]
    | some old =>
      have hdim : entry.vector.dim = shard.dim := by
        by_contra hne
        simp [upsert, hs, hne] at hu
      simpa [he] using hkeep shard old hs hdim he hnone

/-- **A call that keeps the contexts keeps the index.** -/
theorem represents_apply (h : Represented P s) (hkeep : KeepsContext s u) :
    Represented P (apply P s u).1 := by
  intro ns'
  cases u with
  | delete ns id =>
    obtain ⟨hentries, hindex, hother⟩ := delete_spec s ns id
    by_cases hns : ns' = ns
    · subst hns
      obtain ⟨ids, h⟩ := h ns'
      simp only [apply]
      rw [hindex, contextsOf_update hentries, Bm25Index.documents_update]
      exact ⟨_, Bm25Index.represents_remove h id⟩
    · exact h.congr (hother ns' hns)
  | upsert ns entry =>
    simp only [apply]
    cases hu : s.upsert P ns entry with
    | error e => exact h ns'
    | ok s' =>
      obtain ⟨hentries, hindex, hother⟩ := upsert_eq_ok P hu
      by_cases hns : ns' = ns
      · subst hns
        obtain ⟨ids, h⟩ := h ns'
        simp only
        rw [hindex, contextsOf_update hentries, Option.bind_some, indexContext]
        cases hc : entry.context with
        | some c =>
          rw [Bm25Index.documents_update]
          exact ⟨_, Bm25Index.represents_insert P h entry.id c.asStr⟩
        | none =>
          have hsame : Function.update (s.contextsOf ns') entry.id none = s.contextsOf ns' := by
            rw [← contextsOf_eq_none hkeep hu hc, Function.update_eq_self]
          rw [hsame]
          exact ⟨ids, h⟩
      · exact h.congr (hother ns' hns)

/-- The index is right after calls that all keep the contexts. -/
theorem represented_after
    (hkeep : ∀ before u later, updates = before ++ u :: later → KeepsContext (after P before) u) :
    Represented P (after P updates) := by
  induction updates using List.reverseRecOn with
  | nil => exact represented_new
  | append_singleton updates u ih =>
    rw [after_snoc]
    refine represents_apply (ih fun before v later heq => ?_) (hkeep updates u [] rfl)
    exact hkeep before v (later ++ [u]) (by rw [heq]; simp)

/-- A call that replaces a context by none leaves the document behind. -/
theorem keepsContext_of_indexed (h : Indexed P s) (h' : Indexed P (apply P s u).1) :
    KeepsContext s u := by
  cases u with
  | delete ns id => trivial
  | upsert ns entry =>
    intro shard old hs hdim hold hnone
    by_contra hcontext
    obtain ⟨c, hc⟩ := Option.ne_none_iff_exists'.mp hcontext
    cases hu : s.upsert P ns entry with
    | error e =>
      obtain ⟨shard', hs', hne⟩ := upsert_eq_error P hu
      rw [hs, Option.some.injEq] at hs'
      exact hne (hs' ▸ hdim)
    | ok s' =>
      obtain ⟨hentries, hindex, -⟩ := upsert_eq_ok P hu
      simp only [apply, hu] at h'
      have hbefore := h.termFrequency ns entry.id
      have hafter := h'.termFrequency ns entry.id
      rw [contextsOf_update hentries, hindex, indexContext, hnone] at hafter
      rw [hafter] at hbefore
      simp [contextsOf, entries, hs, hold, hc, hnone] at hbefore

/-! ### Scores -/

variable [LinearOrder R]

variable (P) in
/-- The score of a context against the terms of a query's context. -/
def ownScore (index : Bm25Index) (context : Option Context) (terms : Option (Finset String)) : R :=
  match context, terms with
  | some c, some terms => index.scoreDocument P (Bm25Index.termCounts (tokenize P c.asStr))
      (tokenize P c.asStr).length terms
  | _, _ => 0

variable (P) in
/-- **In every query result every hit is scored by the context it carries**: 0 if it
carries none. -/
def OwnScores (s : MemoryVectorStore R) : Prop :=
  ∀ ns iter, Enumerates iter (s.entries ns) → ∀ vector queryContext filter (topK : ℕ+) hits,
    query P s iter ns vector queryContext filter topK = .ok hits → ∀ hit ∈ hits,
      hit.sparseScore = ownScore P (s.index ns) hit.context (contextTerms P queryContext)

/-- An entry is scored by its own context, when the index is right. -/
theorem sparseScore_eq {shard : Shard R} (h : Indexed P s) (hs : s ns = some shard)
    (he : shard.entries entry.id = some entry) (terms : Option (Finset String)) :
    sparseScore P shard terms entry.id = ownScore P (s.index ns) entry.context terms := by
  have hindex : s.index ns = shard.bm25 := by rw [index, hs]
  have hcontext : s.contextsOf ns entry.id = entry.context := by
    rw [contextsOf, entries, hs]
    simp [he]
  have htf := h.termFrequency ns entry.id
  have hlen := h.documentLength ns entry.id
  rw [hindex, hcontext] at htf hlen
  rw [hindex]
  unfold sparseScore ownScore Bm25Index.score
  cases terms with
  | none => cases entry.context <;> rfl
  | some terms =>
    cases hc : entry.context with
    | none => simp [htf, hc]
    | some c => simp [htf, hlen, hc]

/-- A right index scores every hit by its own context. -/
theorem ownScores_after (h : Indexed P (after P updates)) : OwnScores P (after P updates) := by
  intro ns iter hiter vector queryContext filter topK hits hquery hit hhit
  cases hs : after P updates ns with
  | none =>
    simp only [query, hs, Except.ok.injEq] at hquery
    simp [← hquery] at hhit
  | some shard =>
    obtain ⟨-, -, rfl⟩ := (query_eq_ok_iff P hs).mp hquery
    obtain ⟨p, hp, -, rfl⟩ := mem_candidates.mp ((mem_rank _).mp (List.mem_of_mem_take hhit))
    have hentry := (hiter.mem_iff p.1 p.2).mp hp
    have hown : p.2.id = p.1 := (entries_after_iff.mp hentry).id_eq
    refine sparseScore_eq h hs ?_ _
    rw [hown]
    simpa [entries, hs] using hentry

/-- **The index is right throughout, and every hit is scored by its own context, exactly when no
entry without a context is put in place of one with a context.** -/
theorem indexed_iff (P : Platform R) (updates : List (Update R)) :
    (∀ before later, updates = before ++ later →
      Indexed P (after P before) ∧ OwnScores P (after P before)) ↔
    ∀ before u later, updates = before ++ u :: later → KeepsContext (after P before) u := by
  constructor
  · intro h before u later heq
    have hnow := (h before (u :: later) heq).1
    have hnext := (h (before ++ [u]) later (by simp [heq])).1
    rw [after_snoc] at hnext
    exact keepsContext_of_indexed hnow hnext
  · rintro hkeep before later rfl
    have hindexed : Indexed P (after P before) := by
      apply Represented.indexed
      refine represented_after fun b u l heq => hkeep b u (l ++ later) ?_
      rw [heq]
      simp
    exact ⟨hindexed, ownScores_after hindexed⟩

namespace Sample

open Semisweet.Core.Sample

/-- An entry in the context `a`. -/
def inContext : VectorEntry ℚ := ⟨idOne, embedding, ∅, ∅, some ⟨keyA.text⟩⟩

/-- The entry, and then the same entry without its context. -/
def twice : List (Update ℚ) :=
  [.upsert small.ns inContext, .upsert small.ns { inContext with context := none }]

end Sample

open Semisweet.Core.Sample in
/-- **A context's document outlives it**: once its entry is replaced by one without a context, the
index still has a document for the id, and a query by the old context scores the entry by it. -/
theorem indexed_fails :
    (¬ ∀ (updates : List (Update ℚ)), Indexed platform (after platform updates)) ∧
    (query platform (after platform Sample.twice)
      [(idOne, { Sample.inContext with context := none })] small.ns embedding
        Sample.inContext.context ⟨∅, ∅⟩ 1).map
          (List.map fun hit => (hit.context.isNone, decide (0 < hit.sparseScore))) =
            .ok [(true, true)] := by
  refine ⟨fun hall => ?_, by decide +kernel⟩
  have hdoc := (hall Sample.twice).documentLength small.ns idOne
  exact absurd hdoc (by decide)

end Semisweet.Core.MemoryVectorStore
