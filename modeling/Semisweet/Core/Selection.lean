import Semisweet.Core.Cache

/-!
# What `top_k` and the thresholds change

A lookup asks the vector store for the `top_k` nearest entries that pass its filter, and
`select` chooses among them (`src/scoring.rs`). The store filters before it truncates, and
`accept` judges after, so what is cut off might have been accepted where nothing that is
left is.

A larger `top_k` adds candidates at the end of the list only, so it never changes a hit to
another one. With the filter `find_match` builds and up to five entities, the entity gate
accepts every entry that passes the filter; then, unless the context gate counts, the dense
floor alone decides, and the nearest entry clears it if any does.

The dense floor is the same for all candidates of a lookup. Raising it takes away the
candidates of the lowest scores, and so it may turn a hit into a miss and nothing else. The
configurations in question are those `ScoringDto::to_config` makes (`src/registry.rs`),
which validates the settings of a client.

## What is proved

* `top_k_only_truncates` — what is selected of an answer, what a larger `top_k` changes, and
  when none of that depends on `top_k`.
* `raising_threshold` — what higher thresholds change.
-/

namespace Semisweet.Core

open Semisweet.Foundations

/-! ### The settings of a client -/

/-- `ScoringDto`. -/
structure ScoringDto (R : Type) where
  /-- The dense floor. -/
  threshold : R
  /-- Whether the entities of a query filter the candidates. -/
  entityFilter : Bool
  /-- What a query's context does, by name. -/
  context : String
  /-- The least context match. -/
  contextGate : R
  /-- The dense floor once the context matches. -/
  contextThreshold : R
  /-- How many candidates to ask for. -/
  topK : ℕ

/-- `context_name`. -/
def contextName : ContextMode → String
  | .ignore => "ignore"
  | .gate => "gate"

theorem contextName_injective : Function.Injective contextName := by
  intro a b h
  cases a <;> cases b <;> first | rfl | exact absurd h (by decide)

namespace ScoringDto

variable {R : Type} [Field R]

/-- `ScoringDto::default`. -/
def default : ScoringDto R :=
  let defaults : ScoringConfig R := .default
  { threshold := defaults.threshold
    entityFilter := defaults.entityFilter
    context := contextName defaults.context
    contextGate := defaults.contextGate
    contextThreshold := defaults.contextThreshold
    topK := defaults.topK }

variable [LinearOrder R] [ToString R]

/-- A field must be within `0.0..=1.0`. -/
def checkUnit (field : String) (value : R) : Except Error Unit :=
  if 0 ≤ value ∧ value ≤ 1 then .ok ()
  else .error (.invalidConfig s!"{field} {value} must be finite and within 0.0..=1.0")

/-- `context_threshold` must not exceed `threshold`. -/
def checkThresholds (contextThreshold threshold : R) : Except Error Unit :=
  if contextThreshold > threshold then
    .error (.invalidConfig
      s!"context_threshold {contextThreshold} must not exceed threshold {threshold}")
  else .ok ()

/-- `top_k` must not be zero. -/
def checkTopK (topK : ℕ) : Except Error ℕ+ :=
  if h : 0 < topK then .ok ⟨topK, h⟩
  else .error (.invalidConfig "top_k must be greater than zero")

/-- The context mode of a name. -/
def contextMode (name : String) : Except Error ContextMode :=
  if name = "ignore" then .ok .ignore
  else if name = "gate" then .ok .gate
  else .error (.invalidConfig s!"unknown context mode `{name}`")

/-- `ScoringDto::to_config`. -/
def toConfig (self : ScoringDto R) : Except Error (ScoringConfig R) := do
  checkUnit "threshold" self.threshold
  checkUnit "context_gate" self.contextGate
  checkUnit "context_threshold" self.contextThreshold
  checkThresholds self.contextThreshold self.threshold
  let topK ← checkTopK self.topK
  let context ← contextMode self.context
  .ok
    { threshold := self.threshold
      entityFilter := self.entityFilter
      context := context
      contextGate := self.contextGate
      contextThreshold := self.contextThreshold
      topK := topK }

theorem contextMode_eq_ok {name : String} {mode : ContextMode} :
    contextMode name = .ok mode ↔ name = contextName mode := by
  unfold contextMode
  cases mode <;> split_ifs <;> simp_all [contextName]

/-- **What `to_config` makes of settings it accepts**: it takes them over. -/
theorem toConfig_eq_ok {self : ScoringDto R} {config : ScoringConfig R}
    (h : self.toConfig = .ok config) :
    config.threshold = self.threshold ∧ config.entityFilter = self.entityFilter ∧
      contextName config.context = self.context ∧ config.contextGate = self.contextGate ∧
        config.contextThreshold = self.contextThreshold ∧ (config.topK : ℕ) = self.topK := by
  simp only [toConfig, bind_eq_ok, Except.ok.injEq] at h
  obtain ⟨-, -, -, -, -, -, -, -, topK, htopK, mode, hmode, rfl⟩ := h
  refine ⟨rfl, rfl, (contextMode_eq_ok.mp hmode).symm, rfl, rfl, ?_⟩
  unfold checkTopK at htopK
  split at htopK
  · rw [← Except.ok.inj htopK]
    rfl
  · cases htopK

variable [IsStrictOrderedRing R]

/-- The default settings make the default configuration. -/
theorem toConfig_default : (default : ScoringDto R).toConfig = .ok ScoringConfig.default := by
  have hunit : ∀ field (n : ℕ), n ≤ 100 → checkUnit field ((n : R) / 100) = .ok () := by
    intro field n hn
    have hn' : (n : R) ≤ 100 := by exact_mod_cast hn
    rw [checkUnit, if_pos ⟨by positivity, div_le_one_of_le₀ hn' (by norm_num)⟩]
  have hthreshold := hunit "threshold" 92 (by norm_num)
  have hgate := hunit "context_gate" 10 (by norm_num)
  have hcontext := hunit "context_threshold" 88 (by norm_num)
  push_cast at hthreshold hgate hcontext
  have horder : checkThresholds (88 / 100 : R) (92 / 100) = .ok () := by
    rw [checkThresholds, if_neg]
    norm_num
  simp only [toConfig, default, ScoringConfig.default, hthreshold, hgate, hcontext, horder]
  rfl

end ScoringDto

/-! ### Truncating -/

section Truncating

variable {R : Type} [Field R] [LinearOrder R] (P : Platform R)

/-- The first accepted hit of a list. No accepted hit of the list has a higher dense score, and of
several with the same it is the first. -/
def ScoringConfig.FirstAccepted (self : ScoringConfig R) (entities : Finset Entity)
    (queryContext : Option Context) (hits : List (ScoredHit R)) (hit : ScoredHit R) : Prop :=
  ∃ before after, hits = before ++ hit :: after ∧
    self.accept entities queryContext hit = true ∧
      (∀ x ∈ before, self.accept entities queryContext x = false) ∧
        ∀ x ∈ after, self.accept entities queryContext x = true → x.denseScore ≤ hit.denseScore

/-- The candidates of a query, all of them: the store's answer before it is truncated. -/
def MemoryVectorStore.candidatesOf (store : MemoryVectorStore R)
    (iter : List (EntryId × VectorEntry R)) (ns : Namespace) (vector : Embedding R)
    (queryContext : Option Context) (filter : Filter) : Except Error (List (ScoredHit R)) :=
  match store ns with
  | none => .ok []
  | some shard =>
    if vector.dim ≠ shard.dim then .error (.dimMismatch vector.dim shard.dim)
    else do
      let hits ← MemoryVectorStore.scan P shard vector queryContext filter iter
      .ok (rank ScoredHit.denseScore hits)

/-- A lookup with `top_k = k`: what is selected of the store's answer. -/
def lookup (config : ScoringConfig R) (store : MemoryVectorStore R)
    (iter : List (EntryId × VectorEntry R)) (ns : Namespace) (vector : Embedding R)
    (queryContext : Option Context) (filter : Filter) (entities : Finset Entity) (k : ℕ+) :
    Except Error (Option (ScoredHit R)) := do
  let hits ← store.query P iter ns vector queryContext filter k
  .ok (config.select entities queryContext hits)

/-- The cache, asking for `k` candidates. -/
def Cache.withTopK (self : Cache R) (k : ℕ+) : Cache R :=
  { self with scoring := { self.scoring with topK := k } }

variable {P} {config : ScoringConfig R} {store : MemoryVectorStore R}
  {iter : List (EntryId × VectorEntry R)} {ns : Namespace} {vector : Embedding R}
  {queryContext : Option Context} {filter : Filter} {entities : Finset Entity}
  {hits : List (ScoredHit R)} {k k' : ℕ+}

/-- A query answers with the first candidates. -/
theorem query_eq_candidatesOf :
    store.query P iter ns vector queryContext filter k =
      (store.candidatesOf P iter ns vector queryContext filter).map fun hits => hits.take k := by
  unfold MemoryVectorStore.query MemoryVectorStore.candidatesOf
  cases store ns with
  | none => simp [Except.map]
  | some shard =>
    dsimp only
    split
    · rfl
    · cases MemoryVectorStore.scan P shard vector queryContext filter iter <;> rfl

/-- The candidates come in order of decreasing dense score. -/
theorem candidatesOf_pairwise
    (h : store.candidatesOf P iter ns vector queryContext filter = .ok hits) :
    hits.Pairwise fun a b => b.denseScore ≤ a.denseScore := by
  unfold MemoryVectorStore.candidatesOf at h
  cases hs : store ns with
  | none =>
    simp only [hs, Except.ok.injEq] at h
    simp [← h]
  | some shard =>
    simp only [hs] at h
    split at h
    · cases h
    · simp only [bind_eq_ok, Except.ok.injEq] at h
      obtain ⟨scanned, -, rfl⟩ := h
      exact rank_pairwise _ _

/-- The candidates are the hits of the entries that pass the filter. -/
theorem mem_candidatesOf {shard : Shard R} (hs : store ns = some shard)
    (h : store.candidatesOf P iter ns vector queryContext filter = .ok hits) {hit : ScoredHit R} :
    hit ∈ hits ↔ ∃ p ∈ iter, MemoryVectorStore.keeps filter p.2 = true ∧
      hit = MemoryVectorStore.entryHit P shard vector queryContext p.2 := by
  simp only [MemoryVectorStore.candidatesOf, hs] at h
  split at h
  · cases h
  · simp only [bind_eq_ok, Except.ok.injEq, MemoryVectorStore.scan_eq_ok_iff] at h
    obtain ⟨scanned, ⟨-, rfl⟩, rfl⟩ := h
    simp only [mem_rank, List.mem_map, List.mem_filter, and_assoc, @eq_comm _ _ hit]

/-- A lookup selects the first accepted one of the first candidates. -/
theorem lookup_eq : lookup P config store iter ns vector queryContext filter entities k =
    (store.candidatesOf P iter ns vector queryContext filter).map fun hits =>
      (hits.take k).find? (config.accept entities queryContext) := by
  rw [lookup, query_eq_candidatesOf]
  cases h : store.candidatesOf P iter ns vector queryContext filter with
  | error e => rfl
  | ok hits =>
    have hpairwise := (candidatesOf_pairwise h).sublist (List.take_sublist k hits)
    exact congrArg Except.ok (config.select_eq_find? entities queryContext hpairwise)

/-- **What is selected of a store's answer.** -/
theorem select_query_iff (h : store.query P iter ns vector queryContext filter k = .ok hits)
    {hit : ScoredHit R} :
    config.select entities queryContext hits = some hit ↔
      config.FirstAccepted entities queryContext hits hit := by
  have hpairwise := MemoryVectorStore.query_pairwise P h
  rw [config.select_eq_find? entities queryContext hpairwise, List.find?_eq_some_iff_append]
  constructor
  · rintro ⟨hacc, before, after, rfl, hno⟩
    refine ⟨before, after, rfl, hacc, by simpa using hno, fun x hx _ => ?_⟩
    exact (List.pairwise_cons.mp (List.pairwise_append.mp hpairwise).2.1).1 x hx
  · rintro ⟨before, after, rfl, hacc, hno, -⟩
    exact ⟨hacc, before, after, rfl, by simpa using hno⟩

/-- **A larger `top_k` selects the same hit.** -/
theorem lookup_of_le {hit : ScoredHit R} (hle : k ≤ k')
    (h : lookup P config store iter ns vector queryContext filter entities k = .ok (some hit)) :
    lookup P config store iter ns vector queryContext filter entities k' = .ok (some hit) := by
  rw [lookup_eq] at h ⊢
  cases hc : store.candidatesOf P iter ns vector queryContext filter with
  | error e => simp [hc, Except.map] at h
  | ok hits =>
    simp only [hc, Except.map, Except.ok.injEq] at h ⊢
    have hprefix : hits.take k <+: hits.take k' := List.take_prefix_take_left hle
    exact hprefix.find?_eq_some h

/-! ### Where truncating loses nothing -/

omit [LinearOrder R] in
/-- **Up to five entities, whoever passes the filter passes the gate**, as one common entity is
enough. -/
theorem Cache.entityGate_of_keeps {cache : Cache R} {parts : Parts} {fast : Finset Entity}
    {entry : VectorEntry R} (hfilter : cache.scoring.entityFilter = true) (hfew : fast.card ≤ 5)
    (hkeeps : MemoryVectorStore.keeps (cache.filterOf parts fast) entry = true) :
    ScoringConfig.entityGate fast entry.entities = true := by
  rw [ScoringConfig.entityGate_iff]
  intro hpos
  have hne : fast ≠ ∅ := Finset.nonempty_iff_ne_empty.mp (Finset.card_pos.mp hpos)
  have hmeet : fast ∩ entry.entities ≠ ∅ := by
    simp only [MemoryVectorStore.keeps, Cache.filterOf, hfilter, if_true,
      Bool.and_eq_true] at hkeeps
    simpa [hne] using hkeeps.2
  have hone : 0 < (fast ∩ entry.entities).card :=
    Finset.card_pos.mpr (Finset.nonempty_iff_ne_empty.mpr hmeet)
  omega

/-- A lookup of the cache is a lookup with its filter and its `top_k`. -/
theorem Cache.findMatch_withTopK (cache : Cache R) (s : Stores R) (parts : Parts) (k : ℕ+) :
    (cache.withTopK k).findMatch P s iter parts =
      cache.extractEntities parts true >>= fun fast =>
        cache.embedQuery parts.query.asStr >>= fun embedding =>
          lookup P cache.scoring s.vector iter cache.ns embedding parts.context
            (cache.filterOf parts fast) fast k :=
  rfl

/-- **Without a context gate, and with up to five entities that are filtered by**, a hit that scores
as high as an accepted one is accepted. -/
theorem Cache.accept_upward {cache : Cache R} {parts : Parts} {fast : Finset Entity}
    (hgate : parts.context = none ∨ cache.scoring.context = .ignore)
    (hfilter : cache.scoring.entityFilter = true) (hfew : fast.card ≤ 5)
    (hc : store.candidatesOf P iter ns vector parts.context (cache.filterOf parts fast) =
      .ok hits) :
    ∀ a ∈ hits, ∀ b ∈ hits, cache.scoring.accept fast parts.context a = true →
      a.denseScore ≤ b.denseScore → cache.scoring.accept fast parts.context b = true := by
  have hno : ¬(cache.scoring.context = .gate ∧ parts.context.isSome) := by
    rcases hgate with hnone | hignore
    · simp [hnone]
    · simp [hignore]
  intro a _ b hb hacc hle
  rw [ScoringConfig.accept_iff, ScoringConfig.Floors, if_neg hno] at hacc ⊢
  refine ⟨?_, hacc.2.trans hle⟩
  cases hs : store ns with
  | none =>
    simp only [MemoryVectorStore.candidatesOf, hs, Except.ok.injEq] at hc
    simp [← hc] at hb
  | some shard =>
    obtain ⟨p, -, hkeeps, rfl⟩ := (mem_candidatesOf hs hc).mp hb
    exact Cache.entityGate_of_keeps hfilter hfew hkeeps

/-- Then `top_k` does not matter. -/
theorem Cache.lookup_eq_find? {cache : Cache R} {parts : Parts} {fast : Finset Entity}
    (hgate : parts.context = none ∨ cache.scoring.context = .ignore)
    (hfilter : cache.scoring.entityFilter = true) (hfew : fast.card ≤ 5) :
    lookup P cache.scoring store iter ns vector parts.context (cache.filterOf parts fast) fast k =
      (store.candidatesOf P iter ns vector parts.context (cache.filterOf parts fast)).map
        fun hits => hits.find? (cache.scoring.accept fast parts.context) := by
  rw [lookup_eq]
  cases hc : store.candidatesOf P iter ns vector parts.context (cache.filterOf parts fast) with
  | error e => rfl
  | ok hits =>
    exact congrArg Except.ok (find?_take_of_upward _ _ (candidatesOf_pairwise hc)
      (Cache.accept_upward hgate hfilter hfew hc) k.pos)

/-- **`top_k` never changes which entry is returned, only whether one is.** What is selected of an
answer is its first accepted hit, which has the highest dense score, and nothing only if none is
accepted; a larger `top_k` selects the same hit; and of a lookup with up to five entities that
are filtered by, and no context gate, every `top_k` makes the same, and no entry with its keys
is lost that `accept` would accept. -/
theorem top_k_only_truncates (P : Platform R) (store : MemoryVectorStore R)
    (iter : List (EntryId × VectorEntry R)) :
    (∀ (config : ScoringConfig R) ns vector queryContext filter entities (k : ℕ+) hits,
      store.query P iter ns vector queryContext filter k = .ok hits →
        (∀ hit, config.select entities queryContext hits = some hit ↔
          config.FirstAccepted entities queryContext hits hit) ∧
        (config.select entities queryContext hits = none ↔
          ∀ hit ∈ hits, config.accept entities queryContext hit = false)) ∧
    (∀ (config : ScoringConfig R) ns vector queryContext filter entities (k k' : ℕ+) hit, k ≤ k' →
      lookup P config store iter ns vector queryContext filter entities k = .ok (some hit) →
        lookup P config store iter ns vector queryContext filter entities k' = .ok (some hit)) ∧
    ∀ (cache : Cache R) (object : ObjectStore) parts fast,
      cache.extractEntities parts true = .ok fast → fast.card ≤ 5 →
      cache.scoring.entityFilter = true →
      (parts.context = none ∨ cache.scoring.context = .ignore) →
        (∀ k k' : ℕ+, (cache.withTopK k).findMatch P ⟨store, object⟩ iter parts =
          (cache.withTopK k').findMatch P ⟨store, object⟩ iter parts) ∧
        ∀ (k : ℕ+) shard embedding,
          (cache.withTopK k).findMatch P ⟨store, object⟩ iter parts = .ok none →
          store cache.ns = some shard → cache.embedQuery parts.query.asStr = .ok embedding →
            ∀ p ∈ iter, parts.keys ⊆ p.2.keys → cache.scoring.accept fast parts.context
              (MemoryVectorStore.entryHit P shard embedding parts.context p.2) = false := by
  refine ⟨fun config ns vector queryContext filter entities k hits h => ⟨fun hit => ?_, ?_⟩,
    fun config ns vector queryContext filter entities k k' hit hle => lookup_of_le hle,
    fun cache object parts fast hfast hfew hfilter hgate => ⟨fun k k' => ?_, ?_⟩⟩
  · exact select_query_iff h
  · exact firstBest_eq_none_iff _ _
  · rw [Cache.findMatch_withTopK, Cache.findMatch_withTopK, hfast]
    simp only [bind, Except.bind, Cache.lookup_eq_find? hgate hfilter hfew]
  · intro k shard embedding hnone hs hembed p hp hkeys
    rw [Cache.findMatch_withTopK, hfast, hembed] at hnone
    simp only [bind, Except.bind, Cache.lookup_eq_find? hgate hfilter hfew] at hnone
    cases hc : store.candidatesOf P iter cache.ns embedding parts.context
        (cache.filterOf parts fast) with
    | error e => simp [hc, Except.map] at hnone
    | ok hits =>
      simp only [hc, Except.map, Except.ok.injEq, List.find?_eq_none] at hnone
      by_contra hacc
      rw [Bool.not_eq_false] at hacc
      have hentity := (ScoringConfig.accept_iff.mp hacc).1
      have hkeeps : MemoryVectorStore.keeps (cache.filterOf parts fast) p.2 = true := by
        rw [cache.keeps_filterOf hentity, decide_eq_true_eq]
        exact hkeys
      exact hnone _ ((mem_candidatesOf hs hc).mpr ⟨p, hp, hkeeps, rfl⟩) hacc

end Truncating

/-! ### Raising a threshold -/

namespace ScoringConfig

variable {R : Type} [LinearOrder R] {self raised : ScoringConfig R} {q : Finset Entity}
  {c : Option Context} {hit : ScoredHit R} {hits : List (ScoredHit R)}

/-- The dense floor of a lookup. -/
def denseFloor (self : ScoringConfig R) (queryContext : Option Context) : R :=
  if self.context = .gate ∧ queryContext.isSome then self.contextThreshold else self.threshold

/-- The hit passes the two gates. -/
def PassesGates (self : ScoringConfig R) (q : Finset Entity) (queryContext : Option Context)
    (hit : ScoredHit R) : Prop :=
  entityGate q hit.entities = true ∧
    (self.context = .gate ∧ queryContext.isSome → self.contextGate ≤ hit.sparseScore)

/-- **A hit is accepted if it passes the gates and clears the floor**, which is one for all hits. -/
theorem accept_iff_floor :
    self.accept q c hit = true ↔ self.PassesGates q c hit ∧ self.denseFloor c ≤ hit.denseScore := by
  rw [accept_iff, Floors, PassesGates, denseFloor]
  by_cases hm : self.context = .gate ∧ c.isSome
  · simp only [if_pos hm, imp_iff_right hm, and_assoc]
  · rw [if_neg hm, if_neg hm]
    simp only [hm, false_imp_iff, and_true]

/-- Higher thresholds accept fewer hits. -/
theorem accept_of_raised (hmode : raised.context = self.context)
    (hgate : raised.contextGate = self.contextGate) (hthreshold : self.threshold ≤ raised.threshold)
    (hcontext : self.contextThreshold ≤ raised.contextThreshold)
    (hacc : raised.accept q c hit = true) : self.accept q c hit = true := by
  rw [accept_iff_floor, PassesGates, denseFloor, hmode, hgate] at hacc
  rw [accept_iff_floor, PassesGates, denseFloor]
  refine ⟨hacc.1, le_trans ?_ hacc.2⟩
  split
  · exact hcontext
  · exact hthreshold

/-- A hit that only the lower thresholds accept has less than the higher floor. -/
theorem denseScore_lt_of_not_accept (hmode : raised.context = self.context)
    (hgate : raised.contextGate = self.contextGate) (hacc : self.accept q c hit = true)
    (hno : raised.accept q c hit = false) : hit.denseScore < raised.denseFloor c := by
  rw [← Bool.not_eq_true, accept_iff_floor, PassesGates, hmode, hgate] at hno
  rw [accept_iff_floor] at hacc
  exact not_le.mp fun hle => hno ⟨hacc.1, hle⟩

end ScoringConfig

section Raising

variable {R : Type} [Field R] [LinearOrder R] [ToString R]

/-- **Raising a threshold can only turn a hit into a miss**: what is selected under settings with
higher thresholds is selected under the lower ones too. -/
theorem raising_threshold {dto raised : ScoringDto R} {config config' : ScoringConfig R}
    (hconfig : dto.toConfig = .ok config) (hraised : raised.toConfig = .ok config')
    (hmode : raised.context = dto.context) (hgate : raised.contextGate = dto.contextGate)
    (hthreshold : dto.threshold ≤ raised.threshold)
    (hcontext : dto.contextThreshold ≤ raised.contextThreshold) (entities : Finset Entity)
    (queryContext : Option Context) (hits : List (ScoredHit R)) :
    (∀ hit, config'.select entities queryContext hits = some hit →
      config.select entities queryContext hits = some hit) ∧
    ∀ hit ∈ hits, config'.accept entities queryContext hit = true →
      config.accept entities queryContext hit = true := by
  obtain ⟨hthr, -, hname, hg, hctx, -⟩ := ScoringDto.toConfig_eq_ok hconfig
  obtain ⟨hthr', -, hname', hg', hctx', -⟩ := ScoringDto.toConfig_eq_ok hraised
  have hmode' : config'.context = config.context := by
    apply contextName_injective
    rw [hname, hname', hmode]
  rw [← hg, ← hg'] at hgate
  rw [← hthr, ← hthr'] at hthreshold
  rw [← hctx, ← hctx'] at hcontext
  have hweaker : ∀ hit ∈ hits, config'.accept entities queryContext hit = true →
      config.accept entities queryContext hit = true := fun hit _ =>
    ScoringConfig.accept_of_raised hmode' hgate hthreshold hcontext
  refine ⟨fun hit hselect => ?_, hweaker⟩
  rw [ScoringConfig.select, firstBest_eq_some_iff] at hselect ⊢
  have hclears : config'.denseFloor queryContext ≤ hit.denseScore := by
    obtain ⟨-, -, -, hacc, -⟩ := hselect
    exact (ScoringConfig.accept_iff_floor.mp hacc).2
  refine hselect.of_weaker hweaker fun other _ hacc hno => ?_
  exact (ScoringConfig.denseScore_lt_of_not_accept hmode' hgate hacc hno).trans_le hclears

namespace Sample

/-- The default settings, with lower thresholds. -/
def lenient : ScoringDto ℚ := { ScoringDto.default with threshold := 1 / 2, contextThreshold := 0 }

/-- The configuration of these. -/
def lenientConfig : ScoringConfig ℚ :=
  { ScoringConfig.default with threshold := 1 / 2, contextThreshold := 0 }

/-- A hit that matches exactly. -/
def certain : ScoredHit ℚ := ⟨⟨Vector.replicate 16 0⟩, 1, 0, ∅, none⟩

theorem toConfig_lenient : lenient.toConfig = .ok lenientConfig := by
  have hunit : ∀ (field : String) (value : ℚ), 0 ≤ value ∧ value ≤ 1 →
      ScoringDto.checkUnit field value = .ok () := fun _ _ h => if_pos h
  have horder : ScoringDto.checkThresholds (0 : ℚ) (1 / 2) = .ok () := if_neg (by decide +kernel)
  simp only [ScoringDto.toConfig, lenient, ScoringDto.default, ScoringConfig.default, horder]
  rw [hunit _ (1 / 2) (by decide +kernel), hunit _ (10 / 100) (by decide +kernel),
    hunit _ 0 (by decide +kernel)]
  rfl

theorem select_certain : ScoringConfig.default.select ∅ none [certain] = some certain := by
  rw [ScoringConfig.select, firstBest_eq_some_iff]
  exact ⟨[], [], rfl, by decide +kernel, by simp, by simp⟩

end Sample

/-- What is selected under the default settings is selected under lower thresholds. -/
theorem raising_threshold_lenient :
    Sample.lenientConfig.select ∅ none [Sample.certain] = some Sample.certain :=
  (raising_threshold Sample.toConfig_lenient ScoringDto.toConfig_default rfl rfl
    (by decide +kernel) (by decide +kernel) ∅ none [Sample.certain]).1 _ Sample.select_certain

end Raising

end Semisweet.Core
