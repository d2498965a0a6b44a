import Semisweet.Core.Scoring
import Semisweet.Foundations.Maps
import Mathlib.Data.List.AList
import Mathlib.Algebra.BigOperators.Group.Finset.Basic

/-!
# The in-memory vector store

`MemoryVectorStore` (`src/backends/vector_memory.rs`): brute-force cosine retrieval with
a per-namespace BM25 index over the stored contexts, which scores the query's context
against each candidate's.

## The model

* A `HashMap` is a function to `Option`; the one map that is gone through to answer a
  query, a shard's entries, is given to `query` in the order of that visit, and `Enumerates`
  says that it is an order of the shard's entries. A document's term counts, whose keys are
  gone through too, are an `AList`: the visit only adds to or takes from counters of
  different terms, so its order does not matter.
* Counters are natural numbers, and scores are in exact arithmetic over an ordered field.
  A sum over a set of terms is a `Finset` sum.
* `Platform` collects what is not under the source tree: the natural logarithm of the
  arithmetic, Unicode lowercasing, and the `uuid` crate's `Uuid::new_v5`.

## What is proved

* `query_eq_ok_iff` — what a successful query returns: the matching entries' hits, ranked,
  the first `top_k` of them.
* `upsert_eq_ok`, `upsert_eq_error`, `delete_spec` — what the operations do to the entries
  and the index of a namespace.
-/

namespace Semisweet.Core

open Semisweet.Foundations

/-- What semisweet takes from outside its source tree. -/
structure Platform (R : Type) where
  /-- `f32::ln`. -/
  ln : R → R
  /-- `str::to_lowercase`. -/
  toLowercase : String → String
  /-- `Uuid::new_v5`. -/
  newV5 : Uuid → List UInt8 → Uuid

variable {R : Type} (P : Platform R)

/-- `str::split_whitespace`. -/
def splitWhitespace (text : String) : List String :=
  ((text.toList.splitOnP isWhitespace).filter fun w => !w.isEmpty).map String.ofList

/-- `tokenize`. -/
def tokenize (text : String) : List String := (splitWhitespace text).map P.toLowercase

/-! ### The BM25 index -/

/-- How often each term occurs in a document. -/
abbrev TermCounts := AList fun _ : String => ℕ

/-- `Bm25Index`. -/
structure Bm25Index where
  /-- In how many documents a term occurs. -/
  documentFrequency : String → Option ℕ
  /-- The term counts of each document. -/
  termFrequency : EntryId → Option TermCounts
  /-- The length of each document. -/
  documentLength : EntryId → Option ℕ
  /-- The sum of the lengths. -/
  totalLength : ℕ
  /-- The number of documents. -/
  documentCount : ℕ

namespace Bm25Index

/-- `Bm25Index::new`. -/
def new : Bm25Index := ⟨fun _ => none, fun _ => none, fun _ => none, 0, 0⟩

/-- `*term_frequency.entry(token).or_insert(0) += 1`. -/
def countToken (counts : TermCounts) (token : String) : TermCounts :=
  counts.insert token ((counts.lookup token).getD 0 + 1)

/-- The term counts of a document. -/
def termCounts (tokens : List String) : TermCounts := tokens.foldl countToken ∅

/-- `*self.document_frequency.entry(term).or_insert(0) += 1`. -/
def addTerm (df : String → Option ℕ) (term : String) : String → Option ℕ :=
  Function.update df term (some ((df term).getD 0 + 1))

/-- Take one document with the term away; a counter that reaches zero is removed. -/
def dropTerm (df : String → Option ℕ) (term : String) : String → Option ℕ :=
  match df term with
  | some count => if count - 1 = 0 then Function.update df term none
      else Function.update df term (some (count - 1))
  | none => df

/-- `Bm25Index::remove`. -/
def remove (self : Bm25Index) (id : EntryId) : Bm25Index :=
  match self.termFrequency id with
  | none => self
  | some counts =>
    { documentFrequency := counts.keys.foldl dropTerm self.documentFrequency
      termFrequency := Function.update self.termFrequency id none
      documentLength := Function.update self.documentLength id none
      totalLength := self.totalLength - (self.documentLength id).getD 0
      documentCount := self.documentCount - 1 }

/-- `Bm25Index::insert`. -/
def insert (self : Bm25Index) (id : EntryId) (text : String) : Bm25Index :=
  let self := self.remove id
  let tokens := tokenize P text
  let counts := termCounts tokens
  { documentFrequency := counts.keys.foldl addTerm self.documentFrequency
    termFrequency := Function.update self.termFrequency id (some counts)
    documentLength := Function.update self.documentLength id (some tokens.length)
    totalLength := self.totalLength + tokens.length
    documentCount := self.documentCount + 1 }

theorem remove_termFrequency (self : Bm25Index) (id : EntryId) :
    (self.remove id).termFrequency = Function.update self.termFrequency id none := by
  unfold remove
  cases h : self.termFrequency id with
  | none => simp [← h]
  | some counts => rfl

theorem insert_termFrequency (self : Bm25Index) (id : EntryId) (text : String) :
    (self.insert P id text).termFrequency =
      Function.update self.termFrequency id (some (termCounts (tokenize P text))) := by
  simp [insert, remove_termFrequency]

/-- Every other document keeps its length. -/
theorem remove_documentLength_of_ne (self : Bm25Index) {id id' : EntryId} (h : id' ≠ id) :
    (self.remove id).documentLength id' = self.documentLength id' := by
  unfold remove
  split
  · rfl
  · exact Function.update_of_ne h _ _

theorem insert_documentLength (self : Bm25Index) (id id' : EntryId) (text : String) :
    (self.insert P id text).documentLength id' =
      if id' = id then some (tokenize P text).length else self.documentLength id' := by
  by_cases h : id' = id
  · subst h
    simp [insert]
  · simp [insert, h, remove_documentLength_of_ne]

variable [Field R]

/-- `DEFAULT_BM25_K1`. -/
def k1 : R := (12 : ℕ) / (10 : ℕ)

/-- `DEFAULT_BM25_B`. -/
def b : R := (75 : ℕ) / (100 : ℕ)

/-- `Bm25Index::idf`. -/
def idf (self : Bm25Index) (term : String) : R :=
  let n : R := self.documentCount
  let df : R := ((self.documentFrequency term).getD 0 : ℕ)
  P.ln (1 + (n - df + 1 / 2) / (df + 1 / 2))

/-- What `idf` takes the logarithm of. -/
def idfArgument (self : Bm25Index) (term : String) : R :=
  let df : R := ((self.documentFrequency term).getD 0 : ℕ)
  1 + (self.documentCount - df + 1 / 2) / (df + 1 / 2)

variable [LinearOrder R]

/-- `Bm25Index::score` of a document that has these term counts and this length. -/
def scoreDocument (self : Bm25Index) (counts : TermCounts) (length : ℕ)
    (queryTerms : Finset String) : R :=
  if self.documentCount = 0 ∨ queryTerms = ∅ then 0
  else
    let averageLength : R := self.totalLength / self.documentCount
    let upperBound : R := ∑ term ∈ queryTerms, self.idf P term * (k1 + 1)
    let numerator : R := ∑ term ∈ queryTerms,
      let tf : R := ((counts.lookup term).getD 0 : ℕ)
      if tf > 0 then
        let denominator := tf + k1 * (1 - b + b * length / averageLength)
        self.idf P term * (tf * (k1 + 1)) / denominator
      else 0
    if upperBound ≤ 0 then 0 else max 0 (min 1 (numerator / upperBound))

/-- `Bm25Index::score`. -/
def score (self : Bm25Index) (id : EntryId) (queryTerms : Finset String) : R :=
  match self.termFrequency id with
  | none => 0
  | some counts => self.scoreDocument P counts ((self.documentLength id).getD 0) queryTerms

end Bm25Index

/-! ### The store -/

/-- `Shard`. -/
structure Shard (R : Type) [Field R] where
  /-- The dimension of every entry. -/
  dim : Dim
  /-- The entries. -/
  entries : EntryId → Option (VectorEntry R)
  /-- The index of their contexts. -/
  bm25 : Bm25Index

/-- `MemoryVectorStore`: the shard of each namespace. -/
abbrev MemoryVectorStore (R : Type) [Field R] := Namespace → Option (Shard R)

variable [Field R]

/-- `index_context`. -/
def indexContext (bm25 : Bm25Index) (entry : VectorEntry R) : Bm25Index :=
  match entry.context with
  | some context => bm25.insert P entry.id context.asStr
  | none => bm25

namespace MemoryVectorStore

/-- `MemoryVectorStore::new`. -/
def new : MemoryVectorStore R := fun _ => none

/-- Put an entry into a shard. -/
def insertEntry (shard : Shard R) (entry : VectorEntry R) : Shard R :=
  { shard with
    bm25 := indexContext P shard.bm25 entry
    entries := Function.update shard.entries entry.id (some entry) }

/-- `MemoryVectorStore::upsert`. -/
def upsert (self : MemoryVectorStore R) (ns : Namespace) (entry : VectorEntry R) :
    Except Error (MemoryVectorStore R) :=
  let dim := entry.vector.dim
  match self ns with
  | some shard =>
    if dim ≠ shard.dim then .error (.dimMismatch dim shard.dim)
    else .ok (Function.update self ns (some (insertEntry P shard entry)))
  | none => .ok (Function.update self ns (some (insertEntry P ⟨dim, fun _ => none, .new⟩ entry)))

/-- `MemoryVectorStore::delete`. -/
def delete (self : MemoryVectorStore R) (ns : Namespace) (id : EntryId) : MemoryVectorStore R :=
  match self ns with
  | some shard => Function.update self ns (some { shard with
      entries := Function.update shard.entries id none
      bm25 := shard.bm25.remove id })
  | none => self

/-- The two filter tests of `query`: whether an entry is kept. -/
def keeps (filter : Filter) (entry : VectorEntry R) : Bool :=
  decide (filter.keysAll ⊆ entry.keys) &&
    !(decide (filter.entitiesAny ≠ ∅) && decide (filter.entitiesAny ∩ entry.entities = ∅))

variable [LinearOrder R]

/-- The sparse score of an entry: how well the query's context matches its own. -/
def sparseScore (shard : Shard R) (contextTerms : Option (Finset String)) (id : EntryId) : R :=
  match contextTerms with
  | some terms => shard.bm25.score P id terms
  | none => 0

/-- The terms of the query's context. -/
def contextTerms (queryContext : Option Context) : Option (Finset String) :=
  queryContext.map fun context => (tokenize P context.asStr).toFinset

/-- The hit an entry becomes, once its dense score is known. -/
def hitOf (shard : Shard R) (queryContext : Option Context) (entry : VectorEntry R)
    (denseScore : R) :
    ScoredHit R where
  id := entry.id
  denseScore := denseScore
  sparseScore := sparseScore P shard (contextTerms P queryContext) entry.id
  entities := entry.entities
  context := entry.context

/-- The loop of `query` over the shard's entries. -/
def scan (shard : Shard R) (vector : Embedding R) (queryContext : Option Context)
    (filter : Filter) :
    List (EntryId × VectorEntry R) → Except Error (List (ScoredHit R))
  | [] => .ok []
  | (_, entry) :: rest =>
    if !keeps filter entry then scan shard vector queryContext filter rest
    else do
      let denseScore ← vector.dot entry.vector
      let hits ← scan shard vector queryContext filter rest
      .ok (hitOf P shard queryContext entry denseScore :: hits)

/-- `MemoryVectorStore::query`, going through the shard's entries in the order `iter`. -/
def query (self : MemoryVectorStore R) (iter : List (EntryId × VectorEntry R)) (ns : Namespace)
    (vector : Embedding R) (queryContext : Option Context) (filter : Filter) (topK : ℕ+) :
    Except Error (List (ScoredHit R)) :=
  match self ns with
  | none => .ok []
  | some shard =>
    if vector.dim ≠ shard.dim then .error (.dimMismatch vector.dim shard.dim)
    else do
      let hits ← scan P shard vector queryContext filter iter
      .ok ((rank ScoredHit.denseScore hits).take topK)

/-! ### What a query returns -/

/-- The hit an entry becomes, its dense score computed. -/
def entryHit (shard : Shard R) (vector : Embedding R) (queryContext : Option Context)
    (entry : VectorEntry R) :
    ScoredHit R :=
  hitOf P shard queryContext entry (sumProducts vector.values entry.vector.values)

/-- The loop succeeds when every kept entry has the query's dimension, and yields the hits of
the kept entries in order. -/
theorem scan_eq_ok_iff {shard : Shard R} {vector : Embedding R} {queryContext : Option Context}
    {filter : Filter} {iter : List (EntryId × VectorEntry R)} {hits : List (ScoredHit R)} :
    scan P shard vector queryContext filter iter = .ok hits ↔
      (∀ p ∈ iter, keeps filter p.2 = true → vector.dim = p.2.vector.dim) ∧
        hits = (iter.filter fun p => keeps filter p.2).map fun p =>
          entryHit P shard vector queryContext p.2 := by
  induction iter generalizing hits with
  | nil =>
    simp only [scan, Except.ok.injEq, List.not_mem_nil, false_imp_iff, implies_true,
      List.filter_nil,
      List.map_nil, true_and]
    exact eq_comm
  | cons p iter ih =>
    obtain ⟨id, entry⟩ := p
    cases hk : keeps filter entry with
    | false => simp [scan, hk, ih]
    | true =>
      simp only [scan, hk, Bool.not_true, Bool.false_eq_true, if_false, bind_eq_ok,
        Except.ok.injEq, ih]
      unfold Embedding.dot
      by_cases hd : vector.dim = entry.vector.dim
      · simp only [hd, ne_eq, not_true_eq_false, if_false, Except.ok.injEq, List.mem_cons,
          forall_eq_or_imp,
          hk, true_imp_iff, true_and, List.filter_cons_of_pos, List.map_cons]
        constructor
        · rintro ⟨_, rfl, _, ⟨hall, rfl⟩, rfl⟩
          exact ⟨hall, rfl⟩
        · rintro ⟨hall, rfl⟩
          exact ⟨_, rfl, _, ⟨hall, rfl⟩, rfl⟩
      · simp [hd, hk]

/-- **What a query of a shard returns**: the hits of the kept entries by decreasing dense
score, the first `top_k` of them. -/
theorem query_eq_ok_iff {self : MemoryVectorStore R} {iter : List (EntryId × VectorEntry R)}
    {ns : Namespace} {shard : Shard R} {vector : Embedding R} {queryContext : Option Context}
    {filter : Filter} {topK : ℕ+} {hits : List (ScoredHit R)} (hs : self ns = some shard) :
    query P self iter ns vector queryContext filter topK = .ok hits ↔
      vector.dim = shard.dim ∧ (∀ p ∈ iter, keeps filter p.2 = true → vector.dim = p.2.vector.dim) ∧
        hits = (rank ScoredHit.denseScore ((iter.filter fun p => keeps filter p.2).map
          fun p => entryHit P shard vector queryContext p.2)).take topK := by
  unfold query
  simp only [hs]
  by_cases hd : vector.dim = shard.dim
  · simp only [hd, ne_eq, not_true_eq_false, if_false, true_and, bind_eq_ok, scan_eq_ok_iff,
      Except.ok.injEq]
    constructor
    · rintro ⟨_, ⟨hall, rfl⟩, rfl⟩
      exact ⟨hall, rfl⟩
    · rintro ⟨hall, rfl⟩
      exact ⟨_, ⟨hall, rfl⟩, rfl⟩
  · simp [hd]

/-- A query's hits come in order of decreasing dense score. -/
theorem query_pairwise {self : MemoryVectorStore R} {iter : List (EntryId × VectorEntry R)}
    {ns : Namespace} {vector : Embedding R} {queryContext : Option Context} {filter : Filter}
    {topK : ℕ+} {hits : List (ScoredHit R)}
    (h : query P self iter ns vector queryContext filter topK = .ok hits) :
    hits.Pairwise fun a b => b.denseScore ≤ a.denseScore := by
  cases hs : self ns with
  | none =>
    simp only [query, hs, Except.ok.injEq] at h
    simp [← h]
  | some shard =>
    obtain ⟨-, -, rfl⟩ := (query_eq_ok_iff P hs).mp h
    exact (rank_pairwise _ _).sublist (List.take_sublist _ _)

/-! ### The store as a map -/

omit [LinearOrder R]

/-- The entries a store holds for a namespace. -/
def entries (self : MemoryVectorStore R) (ns : Namespace) : EntryId → Option (VectorEntry R) :=
  match self ns with
  | some shard => shard.entries
  | none => fun _ => none

/-- The index a store keeps for a namespace. -/
def index (self : MemoryVectorStore R) (ns : Namespace) : Bm25Index :=
  match self ns with
  | some shard => shard.bm25
  | none => .new

/-- The store's entries are of their shard's dimension. -/
def Dimensioned (self : MemoryVectorStore R) : Prop :=
  ∀ ns shard, self ns = some shard → ∀ id entry, shard.entries id = some entry →
    entry.vector.dim = shard.dim

/-- **An upsert puts the entry under its id**, indexes its context, and changes no other
namespace. -/
theorem upsert_eq_ok {self store : MemoryVectorStore R} {ns : Namespace} {entry : VectorEntry R}
    (h : upsert P self ns entry = .ok store) :
    store.entries ns = Function.update (self.entries ns) entry.id (some entry) ∧
      store.index ns = indexContext P (self.index ns) entry ∧
        ∀ ns', ns' ≠ ns → store ns' = self ns' := by
  unfold upsert at h
  cases hs : self ns with
  | none =>
    simp only [hs, Except.ok.injEq] at h
    subst h
    refine ⟨?_, ?_, fun ns' hne => Function.update_of_ne hne _ _⟩ <;>
      simp [entries, index, insertEntry, hs]
  | some shard =>
    simp only [hs] at h
    split at h
    · cases h
    · simp only [Except.ok.injEq] at h
      subst h
      refine ⟨?_, ?_, fun ns' hne => Function.update_of_ne hne _ _⟩ <;>
        simp [entries, index, insertEntry, hs]

/-- An upsert fails only on a vector of another dimension than the shard's. -/
theorem upsert_eq_error {self : MemoryVectorStore R} {ns : Namespace} {entry : VectorEntry R}
    {e : Error} (h : upsert P self ns entry = .error e) :
    ∃ shard, self ns = some shard ∧ entry.vector.dim ≠ shard.dim := by
  unfold upsert at h
  cases hs : self ns with
  | none => simp [hs] at h
  | some shard =>
    simp only [hs] at h
    split at h
    · exact ⟨shard, rfl, ‹_›⟩
    · cases h

/-- **A delete removes the entry under the id** and its document, and changes no other namespace. -/
theorem delete_spec (self : MemoryVectorStore R) (ns : Namespace) (id : EntryId) :
    (self.delete ns id).entries ns = Function.update (self.entries ns) id none ∧
      (self.delete ns id).index ns = (self.index ns).remove id ∧
        ∀ ns', ns' ≠ ns → self.delete ns id ns' = self ns' := by
  unfold delete
  cases hs : self ns with
  | none => simp [entries, index, hs, Bm25Index.new, Bm25Index.remove]
  | some shard =>
    refine ⟨?_, ?_, fun ns' hne => Function.update_of_ne hne _ _⟩ <;> simp [entries, index, hs]

theorem dimensioned_new : (new : MemoryVectorStore R).Dimensioned := by
  intro ns shard h
  simp [new] at h

/-- An entry of a shard's dimension keeps the shard to it. -/
theorem dim_insertEntry {shard : Shard R} {entry e : VectorEntry R} {id : EntryId}
    (hdim : entry.vector.dim = shard.dim)
    (hshard : ∀ id e, shard.entries id = some e → e.vector.dim = shard.dim)
    (he : (insertEntry P shard entry).entries id = some e) :
    e.vector.dim = (insertEntry P shard entry).dim := by
  simp only [insertEntry, Function.update_apply] at he ⊢
  split at he
  · rwa [← Option.some.inj he]
  · exact hshard id e he

/-- An upsert that succeeds keeps every shard to its dimension. -/
theorem dimensioned_upsert {self store : MemoryVectorStore R} {ns : Namespace}
    {entry : VectorEntry R} (hself : self.Dimensioned) (h : upsert P self ns entry = .ok store) :
    store.Dimensioned := by
  intro ns' shard' hs' id e he
  by_cases hns : ns' = ns
  · subst hns
    unfold upsert at h
    cases hs : self ns' with
    | none =>
      simp only [hs, Except.ok.injEq] at h
      subst h
      simp only [Function.update_self, Option.some.injEq] at hs'
      subst hs'
      exact dim_insertEntry P rfl (by simp) he
    | some shard =>
      simp only [hs] at h
      split at h
      · cases h
      · rename_i hdim
        simp only [Except.ok.injEq] at h
        subst h
        simp only [Function.update_self, Option.some.injEq] at hs'
        subst hs'
        exact dim_insertEntry P (not_not.mp hdim) (hself ns' shard hs) he
  · rw [(upsert_eq_ok P h).2.2 ns' hns] at hs'
    exact hself ns' shard' hs' id e he

/-- A delete keeps every shard to its dimension. -/
theorem dimensioned_delete {self : MemoryVectorStore R} (hself : self.Dimensioned) (ns : Namespace)
    (id : EntryId) : (self.delete ns id).Dimensioned := by
  intro ns' shard' hs' id' e he
  by_cases hns : ns' = ns
  · subst hns
    unfold delete at hs'
    cases hs : self ns' with
    | none => simp [hs] at hs'
    | some shard =>
      simp only [hs, Function.update_self, Option.some.injEq] at hs'
      subst hs'
      simp only [Function.update_apply] at he ⊢
      split at he
      · simp at he
      · exact hself ns' shard hs id' e he
  · rw [(delete_spec self ns id).2.2 ns' hns] at hs'
    exact hself ns' shard' hs' id' e he

end MemoryVectorStore

end Semisweet.Core
