import Semisweet.Core.CacheHistory
import Semisweet.Core.Bm25
import Mathlib.Analysis.SpecialFunctions.Log.Basic

/-!
# An entry's own gates

A lookup by the query and the context an entry was stored with ought to find the entry:
its entities should pass the filter and the gate that the lookup sets up, and its context
should match itself.

The entities first. The two sides run the extractor at different depths. A lookup extracts
fast (`find_match`), a write extracts in full (`prepare`), and each of them falls back from
the query to the context on its own, when *its* extraction of the query finds nothing.

The contract of `EntityBackend` (`src/entity.rs`) is about one text: "`extract(t, fast =
true)` MUST be a subset of `extract(t, fast = false)`". Where both sides read the same text
it gives everything (`entityGate_of_subset`). Where the lookup alone falls back, its
entities are the context's and the entry's are the query's, and nothing relates them.

Then the context. The score of a document against its own terms is a weighted mean of
`count / (count + penalty)`, where the penalty grows with the document's length relative to
the average (`score_own`). A document much longer than the others, of tokens that do not
repeat, falls below any gate.

## What is proved

* `passes_own_gates_iff` — the entry passes its own filter and gate exactly when the lookup
  does not fall back alone to a context that shares too few entities with the query.
* `own_gates_fail` — a cache in which an entry does not pass its own gate.
* `own_context_gate` — when a document clears the default context gate against its own terms:
  its terms occur often enough for its length, as they do in every document at most 29/3 times
  as long as the average.
* `own_context_gate_fails` — an index with a document that does not.
-/

namespace Semisweet.Core

open Semisweet.Foundations

variable {R : Type} [Field R] (P : Platform R) (self : Cache R)

/-- The contract of `EntityBackend`. -/
def FastSubset (extract : String → Bool → Except Error (Finset Entity)) : Prop :=
  ∀ text fast full, extract text true = .ok fast → extract text false = .ok full → fast ⊆ full

namespace Cache

/-- The lookup's entities turn the entry away neither in the filter of `find_match`, which is left
with its keys alone, nor in the gate of `accept`: there are none, or enough of them overlap. -/
def Admits (lookup : Parts) (fast : Finset Entity) (entry : VectorEntry R) : Prop :=
  MemoryVectorStore.keeps (self.filterOf lookup fast) entry = decide (lookup.keys ⊆ entry.keys) ∧
    ScoringConfig.entityGate fast entry.entities = true ∧
      (fast = ∅ ∨ max 1 (fast.card / 3) ≤ (fast ∩ entry.entities).card)

/-- **The lookup falls back alone**: the fast extraction finds nothing in the query, so the lookup
takes the context's entities; the full one does find some, so the write keeps the query's; and
too few of the former are among the latter. -/
def FallsBackAlone (query : QueryText) (context : Option Context) : Prop :=
  ∃ c full fast, context = some c ∧ self.extract query.asStr true = .ok ∅ ∧
    self.extract query.asStr false = .ok full ∧ full ≠ ∅ ∧
      self.extract c.asStr true = .ok fast ∧ fast ≠ ∅ ∧ (fast ∩ full).card < max 1 (fast.card / 3)

end Cache

/-! ### The gate and the filter -/

/-- Entities among the entry's pass its gate. -/
theorem entityGate_of_subset {F E : Finset Entity} (h : F ⊆ E) :
    ScoringConfig.entityGate F E = true := by
  rw [ScoringConfig.entityGate_iff, Finset.inter_eq_left.mpr h]
  omega

/-- **Whoever passes the gate passes the filter**, so that the gate decides. -/
theorem Cache.admits_iff {lookup : Parts} {fast : Finset Entity} {entry : VectorEntry R} :
    self.Admits lookup fast entry ↔ ScoringConfig.entityGate fast entry.entities = true := by
  constructor
  · intro h
    exact h.2.1
  · intro hgate
    refine ⟨self.keeps_filterOf hgate, hgate, ?_⟩
    rcases fast.eq_empty_or_nonempty with hempty | hne
    · exact .inl hempty
    · exact .inr (ScoringConfig.entityGate_iff.mp hgate (Finset.card_pos.mpr hne))

/-! ### Falling back -/

section FallingBack

variable {P self} {stored lookup : Parts} {fast full : Finset Entity} {entry : VectorEntry R}

/-- What `extract_entities` returns: the query's entities, or, if it has none, the context's. -/
theorem extractEntities_eq_ok {parts : Parts} {depth : Bool}
    (h : self.extractEntities parts depth = .ok full) :
    ∃ ofQuery, self.extract parts.query.asStr depth = .ok ofQuery ∧
      ((full = ofQuery ∧ (ofQuery ≠ ∅ ∨ parts.context = none)) ∨
        ∃ c, ofQuery = ∅ ∧ parts.context = some c ∧ self.extract c.asStr depth = .ok full) := by
  simp only [Cache.extractEntities, bind_eq_ok] at h
  obtain ⟨ofQuery, hq, h⟩ := h
  refine ⟨ofQuery, hq, ?_⟩
  cases hc : parts.context with
  | none =>
    simp only [hc, Except.ok.injEq] at h
    exact .inl ⟨h.symm, .inr rfl⟩
  | some c =>
    simp only [hc] at h
    split at h
    · rename_i hempty
      exact .inr ⟨c, hempty, rfl, h⟩
    · rename_i hne
      simp only [Except.ok.injEq] at h
      exact .inl ⟨h.symm, .inl hne⟩

/-- **An entry passes its own gates exactly when its lookup does not fall back alone.** -/
theorem passes_own_gates_iff (hcontract : FastSubset self.extract)
    (hstored : self.prepare P stored = .ok entry) (hquery : lookup.query = stored.query)
    (hcontext : lookup.context = stored.context)
    (hfast : self.extractEntities lookup true = .ok fast) :
    self.Admits lookup fast entry ↔ ¬ self.FallsBackAlone stored.query stored.context := by
  obtain ⟨-, -, -, hfull, -⟩ := self.prepare_eq_ok P hstored
  obtain ⟨fastQuery, hfq, hfast⟩ := extractEntities_eq_ok hfast
  obtain ⟨fullQuery, hq, hfull⟩ := extractEntities_eq_ok hfull
  rw [hquery] at hfq
  rw [hcontext] at hfast
  have hsub := hcontract _ _ _ hfq hq
  rw [Cache.admits_iff]
  -- By which text each of the two sides read.
  rcases hfast with ⟨rfl, hown⟩ | ⟨c, rfl, hc, hfc⟩
  · -- The lookup read the query: the write found at least as much there.
    have hgate : ScoringConfig.entityGate fast entry.entities = true := by
      rcases hfull with ⟨rfl, -⟩ | ⟨c, rfl, -, -⟩
      · exact entityGate_of_subset hsub
      · exact entityGate_of_subset ((Finset.subset_empty.mp hsub).trans_subset
          (Finset.empty_subset _))
    simp only [hgate, true_iff]
    rintro ⟨c, _, _, hc, hnothing, -⟩
    rw [hfq, Except.ok.injEq] at hnothing
    rcases hown with hne | hnone
    · exact hne hnothing
    · simp [hnone] at hc
  · rcases hfull with ⟨heq, hown⟩ | ⟨c', rfl, hc', hfull⟩
    · -- The lookup fell back and the write did not.
      rw [heq, ScoringConfig.entityGate_iff, Finset.card_pos]
      have hne : fullQuery ≠ ∅ := by
        rcases hown with hne | hnone
        · exact hne
        · simp [hnone] at hc
      constructor
      · rintro hcount ⟨d, full, fast', hd, -, hfull, -, hfd, hne', hfew⟩
        obtain rfl : d = c := by simpa [hc, eq_comm] using hd
        rw [hq, Except.ok.injEq] at hfull
        rw [hfc, Except.ok.injEq] at hfd
        subst hfull hfd
        exact absurd (hcount (Finset.nonempty_iff_ne_empty.mpr hne')) (not_le.mpr hfew)
      · intro hnot hnonempty
        by_contra hfew
        exact hnot ⟨c, fullQuery, fast, hc, hfq, hq, hne, hfc, hnonempty.ne_empty,
          not_le.mp hfew⟩
    · -- Both fell back to the same context.
      obtain rfl : c' = c := by simpa [hc, eq_comm] using hc'
      have hgate := entityGate_of_subset (hcontract _ _ _ hfc hfull)
      simp only [hgate, true_iff]
      rintro ⟨_, full, _, -, -, hfull', hne, -⟩
      rw [hq, Except.ok.injEq] at hfull'
      exact hne hfull'.symm

end FallingBack

namespace Sample

/-- The context `c`. -/
def context : Context := ⟨⟨"c", by decide, by decide⟩⟩

/-- The entity `c`. -/
def entityC : Entity := ⟨"c", by decide⟩

/-- The query `q` under the context `c`. -/
def inContext : Parts := ⟨query, ∅, some context⟩

/-- The query `r` under the context `c`. -/
def beside : Parts := ⟨⟨⟨"r", by decide, by decide⟩⟩, ∅, some context⟩

/-- An extractor that finds `q` in the query only when it extracts in full, `c` in the context at
either depth, and nothing in `r`. -/
def shy (text : String) (fast : Bool) : Except Error (Finset Entity) :=
  if text = "q" then .ok (if fast then ∅ else {entity})
  else if text = "c" then .ok {entityC} else .ok ∅

/-- The small cache with that extractor. -/
def shyCache : Cache ℚ := { small with extract := shy }

theorem fastSubset_shy : FastSubset shy := by
  intro text fast full hfast hfull
  unfold shy at hfast hfull
  split at hfast <;> split at hfull <;> grind

theorem prepare_beside : shyCache.prepare platform beside =
    .ok ⟨EntryId.derive platform.newV5 beside, embedding, ∅, {entityC}, some context⟩ := rfl

theorem fallsBackAlone_inContext :
    shyCache.FallsBackAlone inContext.query inContext.context :=
  ⟨context, {entity}, {entityC}, rfl, rfl, rfl, by decide, rfl, by decide, by decide⟩

theorem not_fallsBackAlone_beside : ¬ shyCache.FallsBackAlone beside.query beside.context := by
  rintro ⟨c, full, fast, -, -, hfull, hne, -⟩
  exact hne (Except.ok.inj hfull).symm

theorem prepare_shy : shyCache.prepare platform inContext =
    .ok ⟨EntryId.derive platform.newV5 inContext, embedding, ∅, {entity}, some context⟩ := rfl

theorem extract_shy : shyCache.extractEntities inContext true = .ok {entityC} := rfl

end Sample

/-- Where the write and the lookup both fall back to the context, the entry passes its own gates;
where the lookup falls back alone, it does not. -/
theorem passes_own_gates_context :
    Sample.shyCache.Admits Sample.beside {Sample.entityC} ⟨EntryId.derive Sample.platform.newV5
        Sample.beside, Sample.embedding, ∅, {Sample.entityC}, some Sample.context⟩ ∧
      ¬ Sample.shyCache.Admits Sample.inContext {Sample.entityC} ⟨EntryId.derive
        Sample.platform.newV5 Sample.inContext, Sample.embedding, ∅, {Sample.entity},
          some Sample.context⟩ :=
  ⟨(passes_own_gates_iff Sample.fastSubset_shy Sample.prepare_beside rfl rfl rfl).mpr
      Sample.not_fallsBackAlone_beside,
    fun hadmits => (passes_own_gates_iff Sample.fastSubset_shy Sample.prepare_shy rfl rfl
      Sample.extract_shy).mp hadmits Sample.fallsBackAlone_inContext⟩

/-- **An entry that does not pass its own gate**: the write keeps the query's entity, and the lookup
asks for the context's. -/
theorem own_gates_fail : ¬ ∀ (cache : Cache ℚ) (parts : Parts) (entry : VectorEntry ℚ)
    (fast : Finset Entity), FastSubset cache.extract →
      cache.prepare Sample.platform parts = .ok entry →
      cache.extractEntities parts true = .ok fast → cache.Admits parts fast entry := by
  intro hall
  have hadmits := hall Sample.shyCache Sample.inContext _ _ Sample.fastSubset_shy
    Sample.prepare_shy Sample.extract_shy
  rw [Cache.admits_iff] at hadmits
  exact absurd hadmits (by decide)

/-! ### The context gate -/

/-- A call on a BM25 index. -/
inductive IndexOp where
  /-- `Bm25Index::insert` of a context. -/
  | insert (id : EntryId) (context : Context)
  /-- `Bm25Index::remove`. -/
  | remove (id : EntryId)

/-- The call on an index. -/
def IndexOp.onIndex (index : Bm25Index) : IndexOp → Bm25Index
  | .insert id context => index.insert P id context.asStr
  | .remove id => index.remove id

/-- The call on the contexts that are stored. -/
def IndexOp.onContexts (contexts : EntryId → Option Context) : IndexOp → EntryId → Option Context
  | .insert id context => Function.update contexts id (some context)
  | .remove id => Function.update contexts id none

/-- The index that calls lead to from a new one. -/
def indexAfter (ops : List IndexOp) : Bm25Index := ops.foldl (IndexOp.onIndex P) .new

/-- The contexts that the calls leave in it. -/
def contextsAfter (ops : List IndexOp) : EntryId → Option Context :=
  ops.foldl IndexOp.onContexts fun _ => none

omit [Field R] in
/-- A call keeps the statistics those of the contexts. -/
theorem represents_step {index : Bm25Index} {contexts : EntryId → Option Context}
    {ids : Finset EntryId} (h : index.Represents (Bm25Index.documents P contexts) ids)
    (op : IndexOp) :
    ∃ ids', (op.onIndex P index).Represents (Bm25Index.documents P (op.onContexts contexts))
      ids' := by
  cases op with
  | insert id context =>
    simp only [IndexOp.onIndex, IndexOp.onContexts, Bm25Index.documents_update, Option.map_some]
    exact ⟨_, Bm25Index.represents_insert P h id context.asStr⟩
  | remove id =>
    simp only [IndexOp.onIndex, IndexOp.onContexts, Bm25Index.documents_update, Option.map_none]
    exact ⟨_, Bm25Index.represents_remove h id⟩

omit [Field R] in
/-- **The index holds the statistics of the contexts left in it.** -/
theorem represents_after (ops : List IndexOp) :
    ∃ ids, (indexAfter P ops).Represents (Bm25Index.documents P (contextsAfter ops)) ids := by
  induction ops using List.reverseRecOn with
  | nil => exact ⟨∅, Bm25Index.represents_new⟩
  | append_singleton ops op ih =>
    obtain ⟨ids, h⟩ := ih
    rw [indexAfter, contextsAfter, List.foldl_append, List.foldl_append]
    exact represents_step P h op

omit [Field R] in
theorem documents_eq_some {ops : List IndexOp} {id : EntryId} {context : Context}
    (h : contextsAfter ops id = some context) :
    Bm25Index.documents P (contextsAfter ops) id = some (tokenize P context.asStr) := by
  simp [Bm25Index.documents, h]

section ContextGate

variable [LinearOrder R]

/-- **A stored context clears the default gate against itself**: its score is not below the gate,
and so `accept` rejects its entry for nothing but the entities or the dense score. -/
def ClearsOwnGate (index : Bm25Index) (id : EntryId) (context : Context) : Prop :=
  let score : R := index.score P id (tokenize P context.asStr).toFinset
  ScoringConfig.default.contextGate ≤ score ∧
    ∀ fast (hit : ScoredHit R), hit.sparseScore = score →
      (ScoringConfig.default.accept fast (some context) hit = true ↔
        ScoringConfig.entityGate fast hit.entities = true ∧
          ScoringConfig.default.contextThreshold ≤ hit.denseScore)

variable {P} {index : Bm25Index} {id : EntryId} {context : Context}

theorem clearsOwnGate_iff : ClearsOwnGate P index id context ↔
    ScoringConfig.default.contextGate ≤
      index.score P id (tokenize P context.asStr).toFinset := by
  constructor
  · exact fun h => h.1
  · intro hgate
    refine ⟨hgate, fun fast hit hscore => ?_⟩
    rw [ScoringConfig.accept_iff, ScoringConfig.Floors, hscore, if_pos ⟨rfl, rfl⟩]
    simp only [hgate, true_and]

/-- The penalty of a document at most 29/3 times as long as the average. -/
theorem lengthPenalty_le [IsStrictOrderedRing R] {length : ℕ} (hpos : 0 < index.totalLength)
    (hcount : 0 < index.documentCount)
    (hlen : 3 * length * index.documentCount ≤ 29 * index.totalLength) :
    (index.lengthPenalty length : R) ≤ 9 := by
  have htotal : (0 : R) < index.totalLength := by exact_mod_cast hpos
  have hdocs : (0 : R) < index.documentCount := by exact_mod_cast hcount
  have hlen' : (3 * length * index.documentCount : R) ≤ 29 * index.totalLength := by
    exact_mod_cast hlen
  have hratio : (length : R) / (index.totalLength / index.documentCount) ≤ 29 / 3 := by
    rw [div_div_eq_mul_div, div_le_div_iff₀ htotal (by norm_num)]
    linarith
  rw [Bm25Index.lengthPenalty, mul_div_assoc, Bm25Index.k1, Bm25Index.b]
  push_cast
  linarith

variable [IsStrictOrderedRing R] {ops : List IndexOp}

/-- A context whose tokens all occur often enough for its length clears the gate. -/
theorem clearsOwnGate_of_often (hln : ∀ x : R, 1 < x → 0 < P.ln x)
    (hdoc : contextsAfter ops id = some context)
    (hoften : ∀ t ∈ tokenize P context.asStr,
      (indexAfter P ops).lengthPenalty (tokenize P context.asStr).length ≤
        (9 * (tokenize P context.asStr).count t : R)) :
    ClearsOwnGate P (indexAfter P ops) id context := by
  obtain ⟨ids, h⟩ := represents_after P ops
  rw [clearsOwnGate_iff]
  refine Bm25Index.le_score_own hln h (documents_eq_some P hdoc)
    (Bm25Index.tokenize_ne_nil P context) ?_ fun t ht => ?_
  · norm_num [ScoringConfig.default]
  · have := hoften t ht
    simp only [ScoringConfig.default]
    linarith

/-- A context whose tokens all occur too rarely for its length does not. -/
theorem not_clearsOwnGate_of_rare (hln : ∀ x : R, 1 < x → 0 < P.ln x)
    (hdoc : contextsAfter ops id = some context)
    (hrare : ∀ t ∈ tokenize P context.asStr, (9 * (tokenize P context.asStr).count t : R) <
      (indexAfter P ops).lengthPenalty (tokenize P context.asStr).length) :
    ¬ ClearsOwnGate P (indexAfter P ops) id context := by
  obtain ⟨ids, h⟩ := represents_after P ops
  rw [clearsOwnGate_iff, not_le]
  refine Bm25Index.score_own_lt hln h (documents_eq_some P hdoc)
    (Bm25Index.tokenize_ne_nil P context) ?_ fun t ht => ?_
  · norm_num [ScoringConfig.default]
  · have := hrare t ht
    simp only [ScoringConfig.default]
    linarith

/-- **When a stored context clears the default gate against itself**, in an index that any calls
led to: when each of its tokens occurs in it at least a ninth of its length penalty often, and so
whenever it is at most 29/3 times as long as the average. When none of them does, it does not. -/
theorem own_context_gate (hln : ∀ x : R, 1 < x → 0 < P.ln x) (ops : List IndexOp)
    (hdoc : contextsAfter ops id = some context) :
    let index := indexAfter P ops
    let tokens := tokenize P context.asStr
    ((∀ t ∈ tokens, index.lengthPenalty tokens.length ≤ (9 * tokens.count t : R)) →
        ClearsOwnGate P index id context) ∧
      (3 * tokens.length * index.documentCount ≤ 29 * index.totalLength →
        ClearsOwnGate P index id context) ∧
      ((∀ t ∈ tokens, (9 * tokens.count t : R) < index.lengthPenalty tokens.length) →
        ¬ ClearsOwnGate P index id context) := by
  intro index tokens
  refine ⟨clearsOwnGate_of_often hln hdoc, fun hlen => ?_, not_clearsOwnGate_of_rare hln hdoc⟩
  obtain ⟨ids, h⟩ := represents_after P ops
  obtain ⟨hcount, htotal⟩ := h.pos (documents_eq_some P hdoc) (Bm25Index.tokenize_ne_nil P context)
  have hpenalty := lengthPenalty_le (R := R) htotal hcount hlen
  refine clearsOwnGate_of_often hln hdoc fun t ht => ?_
  have honce : (1 : R) ≤ tokens.count t := by exact_mod_cast List.count_pos_iff.mpr ht
  linarith

end ContextGate

namespace Sample

/-- The real numbers and their logarithm. No id is derived, so nothing is hashed. -/
noncomputable def logarithms : Platform ℝ := ⟨Real.log, String.toLower, fun _ _ => idOne.bytes⟩

theorem ln_pos (x : ℝ) (h : 1 < x) : 0 < logarithms.ln x := Real.log_pos h

/-- A context of nineteen words. -/
def long : Context := ⟨⟨"a b c d e f g h i j k l m n o p q r s", by decide, by decide⟩⟩

/-- Eighteen contexts of one word, and then the long one. -/
def lopsided : List IndexOp :=
  (List.range 18).map (fun i => .insert ⟨Vector.replicate 16 (UInt8.ofNat i)⟩ context) ++
    [.insert idOne long]

theorem contextsAfter_lopsided : contextsAfter lopsided idOne = some long := by
  simp [contextsAfter, lopsided, List.foldl_append, IndexOp.onContexts]

theorem rare_long : ∀ t ∈ tokenize logarithms long.asStr,
    (9 * (tokenize logarithms long.asStr).count t : ℝ) <
      (indexAfter logarithms lopsided).lengthPenalty (tokenize logarithms long.asStr).length := by
  intro t ht
  have hcount : (tokenize logarithms long.asStr).count t = 1 :=
    List.count_eq_one_of_mem (by decide +kernel) ht
  have hlength : (tokenize logarithms long.asStr).length = 19 := by decide +kernel
  have htotal : (indexAfter logarithms lopsided).totalLength = 37 := by decide +kernel
  have hdocs : (indexAfter logarithms lopsided).documentCount = 19 := by decide +kernel
  rw [Bm25Index.lengthPenalty, hcount, hlength, htotal, hdocs, Bm25Index.k1, Bm25Index.b]
  norm_num

/-- A context of three words, one of them the sample's. -/
def wordy : Context := ⟨⟨"c d e", by decide, by decide⟩⟩

/-- Two contexts of one word, and then one of three: the average is five thirds. -/
def uneven : List IndexOp :=
  (List.range 2).map (fun i => .insert ⟨Vector.replicate 16 (UInt8.ofNat i)⟩ context) ++
    [.insert idOne wordy]

theorem contextsAfter_uneven : contextsAfter uneven idOne = some wordy := by
  simp [contextsAfter, uneven, List.foldl_append, IndexOp.onContexts]

theorem length_wordy : (tokenize logarithms wordy.asStr).length = 3 := by decide +kernel

theorem totalLength_uneven : (indexAfter logarithms uneven).totalLength = 5 := by
  decide +kernel

theorem documentCount_uneven : (indexAfter logarithms uneven).documentCount = 3 := by
  decide +kernel

end Sample

/-- The longest of three contexts is nearly twice as long as the average and clears its gate. -/
theorem own_context_gate_uneven :
    ClearsOwnGate Sample.logarithms (indexAfter Sample.logarithms Sample.uneven) Sample.idOne
      Sample.wordy := by
  refine (own_context_gate Sample.ln_pos Sample.uneven Sample.contextsAfter_uneven).2.1 ?_
  rw [Sample.length_wordy, Sample.totalLength_uneven, Sample.documentCount_uneven]
  decide

/-- **A context that does not clear its own gate**: nineteen different words, where the others are
single words. -/
theorem own_context_gate_fails : ¬ ∀ (ops : List IndexOp) (id : EntryId) (context : Context),
    contextsAfter ops id = some context →
      ClearsOwnGate Sample.logarithms (indexAfter Sample.logarithms ops) id context := by
  intro hall
  exact not_clearsOwnGate_of_rare Sample.ln_pos Sample.contextsAfter_lopsided Sample.rare_long
    (hall _ _ _ Sample.contextsAfter_lopsided)

end Semisweet.Core
