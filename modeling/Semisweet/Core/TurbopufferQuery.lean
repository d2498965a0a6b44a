import Semisweet.Core.CacheHistory
import Semisweet.Core.EntryHex
import Semisweet.Core.StoreHistory

/-!
# The two legs of a turbopuffer query

`TurbopufferVectorStore::query` (`src/backends/vector_turbopuffer.rs`) asks the service for two
rankings at once: the rows nearest to the query vector, and, if the query has a context, the
rows whose stored context matches it best by BM25. Each is cut off at `top_k`.
`fuse_multi_query` joins them by id: a row of the first leg takes its sparse score from the
second, and 0 if it is not there.

A row may be missing from the second leg because its context does not match at all, or
because `top_k` other rows match better. Its hit has the sparse score 0 either way.

## The model

The service has rows, which are entries that were upserted, and answers each leg exactly
(`IsTop`), with ties as it likes. Its BM25 score of a stored context against a query's is the
parameter `bm25`; its statistics of the corpus are not known. A row comes back as its id in
hex, its attributes, and `$dist`, the cosine distance in the one leg and the BM25 score in the
other. Of the request, the filter counts by what it means (`Matches`); the JSON is left out.

## What is proved

* `fuse_spec` — the hits of the rows of the first leg, with their sparse scores.
* `own_context_iff` — these are the scores of the rows' own contexts exactly when no row of the
  first leg that matches is missing from the second.
* `own_context_fails` — two rows of which one is.
-/

namespace Semisweet.Core

open Semisweet.Foundations

/-- `Entity::normalize`: collapse the white space, and lowercase. Text that has a character other
than white space still has one when it is lowercased. -/
def Entity.normalize {R : Type} (P : Platform R) (raw : String) : Option Entity :=
  let text := P.toLowercase (" ".intercalate (splitWhitespace raw))
  if h : trim text = "" then none else some ⟨text, h⟩

namespace TurbopufferVectorStore

variable {R : Type} [Field R]

/-- `QueryRow`. -/
structure QueryRow (R : Type) where
  /-- The id, in hex. -/
  id : String
  /-- `$dist`. -/
  dist : R
  /-- The stored entities. -/
  entities : List String
  /-- The stored context. -/
  context : Option String

/-- `ParsedRow`. -/
structure ParsedRow where
  /-- The id. -/
  id : EntryId
  /-- The entities. -/
  entities : Finset Entity
  /-- The context. -/
  context : Option Context

/-- `squash_bm25`, with `BM25_SATURATION`. -/
def squashBm25 (score : R) : R := score / (score + 5)

/-- `parse_row`. -/
def parseRow (P : Platform R) (row : QueryRow R) : Except Error ParsedRow := do
  let id ← match EntryId.fromHex row.id with
    | some id => Except.ok id
    | none => .error (.vectorStorage s!"turbopuffer returned an unparseable id `{row.id}`")
  let entities := (row.entities.filterMap (Entity.normalize P)).toFinset
  let context ← row.context.mapM Context.new
  .ok ⟨id, entities, context⟩

/-- The hits so far, and the order in which they came. -/
structure Fusion (R : Type) where
  /-- The hits. -/
  hits : EntryId → Option (ScoredHit R)
  /-- Their order. -/
  order : List EntryId

namespace Fusion

/-- A row of the first leg. -/
def addAnn (self : Fusion R) (row : ParsedRow) (dist : R) : Fusion R where
  hits := Function.update self.hits row.id (some ⟨row.id, 1 - dist, 0, row.entities, row.context⟩)
  order := if (self.hits row.id).isSome then self.order else self.order ++ [row.id]

/-- A row of the second leg. -/
def addBm25 (self : Fusion R) (row : ParsedRow) (dist : R) : Fusion R :=
  match self.hits row.id with
  | some hit =>
    { self with
      hits := Function.update self.hits row.id (some { hit with sparseScore := squashBm25 dist }) }
  | none =>
    { hits := Function.update self.hits row.id
        (some ⟨row.id, 0, squashBm25 dist, row.entities, row.context⟩)
      order := self.order ++ [row.id] }

/-- Take the hits out, in order. -/
def drain (hits : EntryId → Option (ScoredHit R)) : List EntryId → List (ScoredHit R)
  | [] => []
  | id :: order =>
    match hits id with
    | some hit => hit :: drain (Function.update hits id none) order
    | none => drain hits order

end Fusion

variable (P : Platform R)

/-- The loop of `fuse_multi_query` over the rows of the first leg. -/
def fuseAnn (rows : List (QueryRow R)) (fusion : Fusion R) : Except Error (Fusion R) :=
  rows.foldlM (fun fusion row => do .ok (fusion.addAnn (← parseRow P row) row.dist)) fusion

/-- The loop over the rows of the second. -/
def fuseBm25 (rows : List (QueryRow R)) (fusion : Fusion R) : Except Error (Fusion R) :=
  rows.foldlM (fun fusion row => do .ok (fusion.addBm25 (← parseRow P row) row.dist)) fusion

/-- `fuse_multi_query`, of the rows of the results; those after the second are not read. -/
def fuseMultiQuery (results : List (List (QueryRow R))) : Except Error (List (ScoredHit R)) := do
  let annRows := results.getD 0 []
  let bm25Rows := results.getD 1 []
  let fusion ← fuseAnn P annRows ⟨fun _ => none, []⟩
  let fusion ← fuseBm25 P bm25Rows fusion
  .ok (Fusion.drain fusion.hits fusion.order)

/-! ### What comes back -/

/-- The row is an entry's, with the given `$dist`. -/
structure Returns (dist : VectorEntry R → R) (entry : VectorEntry R) (row : QueryRow R) :
    Prop where
  /-- The id as it was sent. -/
  id : row.id = entry.id.toHex
  /-- What the leg ranks by. -/
  dist : row.dist = dist entry
  /-- The context as it was sent. -/
  context : row.context = entry.context.map Context.asStr

variable {P} {dist : VectorEntry R → R} {entry : VectorEntry R} {row : QueryRow R}

/-- **A row that comes back is read.** -/
theorem parseRow_eq (h : Returns dist entry row) :
    parseRow P row = .ok ⟨entry.id, (row.entities.filterMap (Entity.normalize P)).toFinset,
      entry.context⟩ := by
  simp only [parseRow, h.id, EntryId.fromHex_toHex, h.context, Context.mapM_new_asStr]
  rfl

/-! ### Fusing -/

namespace Fusion

/-- The order lists the ids of the hits, each once. -/
structure Valid (fusion : Fusion R) : Prop where
  /-- No id twice. -/
  nodup : fusion.order.Nodup
  /-- The ids of the hits. -/
  mem_order : ∀ id, id ∈ fusion.order ↔ fusion.hits id ≠ none
  /-- A hit is under its id. -/
  id_eq : ∀ id hit, fusion.hits id = some hit → hit.id = id

omit [Field R] in
/-- One hit more, or changed. -/
theorem Valid.update {self : Fusion R} (h : self.Valid) (id : EntryId) (hit : ScoredHit R)
    (hid : hit.id = id) :
    Valid ⟨Function.update self.hits id (some hit),
      if (self.hits id).isSome then self.order else self.order ++ [id]⟩ where
  nodup := by
    split
    · exact h.nodup
    · rename_i hnew
      refine List.nodup_append'.mpr ⟨h.nodup, List.nodup_singleton id, ?_⟩
      intro id' hmem hid'
      obtain rfl := List.mem_singleton.mp hid'
      exact (h.mem_order id').mp hmem (by simpa using hnew)
  mem_order id' := by
    by_cases heq : id' = id
    · subst heq
      cases hh : self.hits id' with
      | none => simp
      | some hit' => simp [h.mem_order, hh]
    · cases hh : self.hits id <;> simp [heq, h.mem_order]
  id_eq id' hit' hh := by
    by_cases heq : id' = id
    · subst heq
      obtain rfl : hit = hit' := by simpa using hh
      exact hid
    · exact h.id_eq id' hit' (by simpa [heq] using hh)

theorem valid_addAnn {self : Fusion R} (h : self.Valid) (row : ParsedRow) (dist : R) :
    (self.addAnn row dist).Valid :=
  h.update row.id _ rfl

theorem valid_addBm25 {self : Fusion R} (h : self.Valid) (row : ParsedRow) (dist : R) :
    (self.addBm25 row dist).Valid := by
  unfold addBm25
  cases hh : self.hits row.id with
  | none =>
    have hnew := h.update row.id ⟨row.id, 0, squashBm25 dist, row.entities, row.context⟩ rfl
    simpa [hh] using hnew
  | some hit =>
    have hid : hit.id = row.id := h.id_eq _ _ hh
    have hchanged := h.update row.id { hit with sparseScore := squashBm25 dist } hid
    simpa [hh] using hchanged

omit [Field R] in
/-- What is taken out in an order without repetitions is what is there. -/
theorem drain_eq {order : List EntryId} (hnodup : order.Nodup)
    (hits : EntryId → Option (ScoredHit R)) : drain hits order = order.filterMap hits := by
  induction order generalizing hits with
  | nil => rfl
  | cons id order ih =>
    obtain ⟨hid, hrest⟩ := List.nodup_cons.mp hnodup
    cases hh : hits id with
    | none => simp [drain, hh, ih hrest]
    | some hit =>
      have hsame : order.filterMap (Function.update hits id none) = order.filterMap hits :=
        List.filterMap_congr fun id' hid' => by
          rw [Function.update_of_ne]
          rintro rfl
          exact hid hid'
      simp [drain, hh, ih hrest, hsame]

omit [Field R] in
/-- The hits that are taken out of a valid fusion. -/
theorem mem_drain {self : Fusion R} (h : self.Valid) {hit : ScoredHit R} :
    hit ∈ drain self.hits self.order ↔ self.hits hit.id = some hit := by
  rw [drain_eq h.nodup, List.mem_filterMap]
  constructor
  · rintro ⟨id, -, hh⟩
    rw [h.id_eq id hit hh]
    exact hh
  · intro hh
    exact ⟨hit.id, (h.mem_order hit.id).mpr (by simp [hh]), hh⟩

/-- What a row of the second leg does to the sparse score under an id. -/
theorem hits_addBm25 {self : Fusion R} {hit : ScoredHit R} {id : EntryId} (row : ParsedRow)
    (dist : R) (hh : self.hits id = some hit) :
    (self.addBm25 row dist).hits id =
      some (if row.id = id then { hit with sparseScore := squashBm25 dist } else hit) := by
  unfold addBm25
  by_cases heq : row.id = id
  · subst heq
    simp [hh]
  · cases self.hits row.id <;> simp [heq, Ne.symm heq, hh]

end Fusion

variable {leg : List (VectorEntry R)} {rows : List (QueryRow R)} {fusion : Fusion R}

/-- **The first leg gives each of its rows a hit**, of sparse score 0. -/
theorem fuseAnn_spec (h : List.Forall₂ (Returns dist) leg rows) (hv : fusion.Valid)
    (hzero : ∀ id hit, fusion.hits id = some hit → hit.sparseScore = 0) :
    ∃ fusion', fuseAnn P rows fusion = .ok fusion' ∧ fusion'.Valid ∧
      (∀ id hit, fusion'.hits id = some hit → hit.sparseScore = 0) ∧
        ∀ id, fusion.hits id ≠ none ∨ id ∈ leg.map VectorEntry.id → fusion'.hits id ≠ none := by
  induction h generalizing fusion with
  | nil => exact ⟨fusion, rfl, hv, hzero, by simp⟩
  | @cons entry row leg rows hrow _ ih =>
    set parsed : ParsedRow := ⟨entry.id, (row.entities.filterMap (Entity.normalize P)).toFinset,
      entry.context⟩
    have hstep : fuseAnn P (row :: rows) fusion =
        fuseAnn P rows (fusion.addAnn parsed row.dist) := by
      rw [fuseAnn, List.foldlM_cons, parseRow_eq hrow]
      rfl
    have hzero' : ∀ id hit, (fusion.addAnn parsed row.dist).hits id = some hit →
        hit.sparseScore = 0 := by
      intro id hit hh
      by_cases hid : id = entry.id
      · simp only [Fusion.addAnn, hid, parsed, Function.update_self, Option.some.injEq] at hh
        rw [← hh]
      · exact hzero id hit (by simpa [Fusion.addAnn, parsed, hid] using hh)
    obtain ⟨fusion', hok, hv', hz, hall⟩ := ih (Fusion.valid_addAnn hv parsed row.dist) hzero'
    refine ⟨fusion', hstep.trans hok, hv', hz, fun id hid => hall id ?_⟩
    by_cases heq : id = entry.id
    · left
      simp [Fusion.addAnn, parsed, heq]
    · refine hid.imp (fun hne => ?_) fun hmem => ?_
      · simpa [Fusion.addAnn, parsed, heq] using hne
      · simpa [heq] using hmem

/-- **The second leg gives each of its rows its score**, and leaves the other hits. -/
theorem fuseBm25_spec (h : List.Forall₂ (Returns dist) leg rows) (hv : fusion.Valid)
    (hnodup : (leg.map VectorEntry.id).Nodup) :
    ∃ fusion', fuseBm25 P rows fusion = .ok fusion' ∧ fusion'.Valid ∧
      ∀ id hit, fusion.hits id = some hit → ∃ hit', fusion'.hits id = some hit' ∧
        (id ∉ leg.map VectorEntry.id → hit'.sparseScore = hit.sparseScore) ∧
          ∀ entry ∈ leg, entry.id = id → hit'.sparseScore = squashBm25 (dist entry) := by
  induction h generalizing fusion with
  | nil => exact ⟨fusion, rfl, hv, fun id hit hh => ⟨hit, hh, by simp, by simp⟩⟩
  | @cons entry row leg rows hrow _ ih =>
    rw [List.map_cons, List.nodup_cons] at hnodup
    set parsed : ParsedRow := ⟨entry.id, (row.entities.filterMap (Entity.normalize P)).toFinset,
      entry.context⟩
    have hstep : fuseBm25 P (row :: rows) fusion =
        fuseBm25 P rows (fusion.addBm25 parsed row.dist) := by
      rw [fuseBm25, List.foldlM_cons, parseRow_eq hrow]
      rfl
    obtain ⟨fusion', hok, hv', hscore⟩ :=
      ih (Fusion.valid_addBm25 hv parsed row.dist) hnodup.2
    refine ⟨fusion', hstep.trans hok, hv', fun id hit hh => ?_⟩
    obtain ⟨hit', hh', hout, hin⟩ :=
      hscore id _ (Fusion.hits_addBm25 parsed row.dist hh)
    refine ⟨hit', hh', fun hid => ?_, fun e he heq => ?_⟩
    · rw [List.map_cons, List.mem_cons, not_or] at hid
      rw [hout hid.2, if_neg (Ne.symm hid.1)]
    · rcases List.mem_cons.mp he with rfl | he
      · -- The row itself; no later row has its id.
        rw [hout (heq ▸ hnodup.1), if_pos heq, hrow.dist]
      · exact hin e he heq

/-- **What the fused answer has for the rows of the first leg**: one hit each, with the row's score
in the second leg, and 0 if it is not there. -/
theorem fuse_spec {ann matched : List (VectorEntry R)} {annRows matchedRows : List (QueryRow R)}
    {dist' : VectorEntry R → R} (hann : List.Forall₂ (Returns dist) ann annRows)
    (hmatched : List.Forall₂ (Returns dist') matched matchedRows)
    (hnodup : (matched.map VectorEntry.id).Nodup) :
    ∃ hits, fuseMultiQuery P [annRows, matchedRows] = .ok hits ∧
      ∀ entry ∈ ann, ∃ hit ∈ hits, hit.id = entry.id ∧
        (∀ hit' ∈ hits, hit'.id = entry.id → hit' = hit) ∧
          (entry.id ∉ matched.map VectorEntry.id → hit.sparseScore = 0) ∧
            ∀ e ∈ matched, e.id = entry.id → hit.sparseScore = squashBm25 (dist' e) := by
  have hempty : (⟨fun _ => none, []⟩ : Fusion R).Valid := ⟨by simp, by simp, by simp⟩
  obtain ⟨first, hok, hv, hzero, hall⟩ := fuseAnn_spec (P := P) hann hempty (by simp)
  obtain ⟨second, hok', hv', hscore⟩ := fuseBm25_spec (P := P) hmatched hv hnodup
  refine ⟨Fusion.drain second.hits second.order, ?_, fun entry he => ?_⟩
  · simp only [fuseMultiQuery, List.getD_cons_zero, List.getD_cons_succ, bind_eq_ok]
    exact ⟨first, hok, second, hok', rfl⟩
  · obtain ⟨hit, hh⟩ := Option.ne_none_iff_exists'.mp
      (hall entry.id (.inr (List.mem_map_of_mem he)))
    obtain ⟨hit', hh', hout, hin⟩ := hscore entry.id hit hh
    have hid := hv'.id_eq _ _ hh'
    refine ⟨hit', (Fusion.mem_drain hv').mpr (by rw [hid]; exact hh'), hid, fun h hmem heq => ?_,
      fun hno => by rw [hout hno, hzero _ _ hh], hin⟩
    have hsame := (Fusion.mem_drain hv').mp hmem
    rw [heq, hh', Option.some.injEq] at hsame
    exact hsame.symm

/-! ### The service -/

variable [LinearOrder R]

/-- The BM25 score of an entry's own context against the query's: 0 if either is missing. -/
def ownBm25 (bm25 : Context → Context → R) (queryContext : Option Context)
    (entry : VectorEntry R) : R :=
  match queryContext, entry.context with
  | some query, some stored => bm25 query stored
  | _, _ => 0

/-- The cosine of an entry and the query vector. -/
def cosine (vector : Embedding R) (entry : VectorEntry R) : R :=
  sumProducts vector.values entry.vector.values

/-- The entries that the filter and, by a positive score, the query's context match. -/
def matching (bm25 : Context → Context → R) (queryContext : Option Context) (filter : Filter)
    (entries : List (VectorEntry R)) : List (VectorEntry R) :=
  entries.filter fun e =>
    MemoryVectorStore.keeps filter e && decide (0 < ownBm25 bm25 queryContext e)

/-- **The service answers exactly**: the first leg with the nearest of the filtered entries, the
second, if the query has a context, with the best matching of them. -/
structure Answered (bm25 : Context → Context → R) (entries : List (VectorEntry R))
    (vector : Embedding R) (queryContext : Option Context) (filter : Filter) (topK : ℕ+)
    (ann matched : List (VectorEntry R)) (results : List (List (QueryRow R))) : Prop where
  /-- The nearest. -/
  nearest : IsTop (cosine vector) topK (entries.filter (MemoryVectorStore.keeps filter)) ann
  /-- The best matching. -/
  best : IsTop (ownBm25 bm25 queryContext) topK (matching bm25 queryContext filter entries) matched
  /-- As they come back. -/
  legs : ∃ annRows matchedRows,
    List.Forall₂ (Returns fun e => 1 - cosine vector e) ann annRows ∧
      List.Forall₂ (Returns (ownBm25 bm25 queryContext)) matched matchedRows ∧
        results = if queryContext.isSome then [annRows, matchedRows] else [annRows]

variable {bm25 : Context → Context → R} {entries ann matched : List (VectorEntry R)}
  {vector : Embedding R} {queryContext : Option Context} {filter : Filter} {topK : ℕ+}
  {results : List (List (QueryRow R))}

/-- Without a context nothing matches, and there is no second leg. -/
theorem Answered.fuse_eq
    (h : Answered bm25 entries vector queryContext filter topK ann matched results) :
    ∃ annRows matchedRows, List.Forall₂ (Returns fun e => 1 - cosine vector e) ann annRows ∧
      List.Forall₂ (Returns (ownBm25 bm25 queryContext)) matched matchedRows ∧
        fuseMultiQuery P results = fuseMultiQuery P [annRows, matchedRows] := by
  obtain ⟨annRows, matchedRows, hann, hmatched, rfl⟩ := h.legs
  refine ⟨annRows, matchedRows, hann, hmatched, ?_⟩
  cases queryContext with
  | some q => rfl
  | none =>
    have hnone : matched = [] := by
      apply List.eq_nil_iff_forall_not_mem.mpr
      intro e he
      have := h.best.subset he
      simp [matching, ownBm25] at this
    subst hnone
    obtain rfl := List.forall₂_nil_left_iff.mp hmatched
    rfl

theorem ownBm25_nonneg (hbm25 : ∀ query stored, 0 ≤ bm25 query stored) (entry : VectorEntry R) :
    0 ≤ ownBm25 bm25 queryContext entry := by
  unfold ownBm25
  split
  · exact hbm25 _ _
  · exact le_rfl

theorem Answered.mem_ann
    (h : Answered bm25 entries vector queryContext filter topK ann matched results)
    {e : VectorEntry R} (he : e ∈ ann) :
    e ∈ entries ∧ MemoryVectorStore.keeps filter e = true :=
  List.mem_filter.mp (h.nearest.subset he)

/-- An entry of the second leg with the id of an entry of the first is that entry. -/
theorem Answered.eq_of_id
    (h : Answered bm25 entries vector queryContext filter topK ann matched results)
    (hids : (entries.map VectorEntry.id).Nodup) {e e' : VectorEntry R} (he : e ∈ ann)
    (he' : e' ∈ matched) (hid : e'.id = e.id) : e' = e := by
  have hmem' : e' ∈ entries := (List.mem_filter.mp (h.best.subset he')).1
  exact List.inj_on_of_nodup_map hids hmem' (h.mem_ann he).1 hid

variable [IsStrictOrderedRing R]

theorem squashBm25_eq_zero_iff {score : R} (h : 0 ≤ score) : squashBm25 score = 0 ↔ score = 0 := by
  have hden : score + 5 ≠ 0 := by
    have : (0 : R) < score + 5 := by linarith
    exact ne_of_gt this
  simp [squashBm25, hden]

/-- **Every hit of the first leg is scored by its own context, exactly when no entry of the first
leg that matches the query's context is missing from the second.** None is missing if at most
`top_k` entries match. -/
theorem own_context_iff (hbm25 : ∀ query stored, 0 ≤ bm25 query stored)
    (hids : (entries.map VectorEntry.id).Nodup)
    (h : Answered bm25 entries vector queryContext filter topK ann matched results) :
    ∃ hits, fuseMultiQuery P results = .ok hits ∧
      ((∀ entry ∈ ann, ∀ hit ∈ hits, hit.id = entry.id →
          hit.sparseScore = squashBm25 (ownBm25 bm25 queryContext entry)) ↔
        ∀ entry ∈ ann, ownBm25 bm25 queryContext entry = 0 ∨ entry ∈ matched) ∧
      ((matching bm25 queryContext filter entries).length ≤ topK →
        ∀ entry ∈ ann, ownBm25 bm25 queryContext entry = 0 ∨ entry ∈ matched) := by
  have hnodup : (matched.map VectorEntry.id).Nodup :=
    h.best.nodup_map (hids.sublist (List.filter_sublist.map _))
  obtain ⟨annRows, matchedRows, hannRows, hmatchedRows, hfuse⟩ := h.fuse_eq (P := P)
  obtain ⟨hits, hok, hspec⟩ := fuse_spec (P := P) hannRows hmatchedRows hnodup
  refine ⟨hits, hfuse.trans hok, ⟨fun hall e he => ?_, fun hall e he hit hhit hid => ?_⟩,
    fun hroom e he => ?_⟩
  · obtain ⟨hit, hhit, hid, -, hout, -⟩ := hspec e he
    by_cases hin : e.id ∈ matched.map VectorEntry.id
    · obtain ⟨e', he', hid'⟩ := List.mem_map.mp hin
      exact .inr (h.eq_of_id hids he he' hid' ▸ he')
    · have hscore := hall e he hit hhit hid
      rw [hout hin] at hscore
      exact .inl ((squashBm25_eq_zero_iff (ownBm25_nonneg hbm25 e)).mp hscore.symm)
  · obtain ⟨hit', -, -, hunique, hout, hin⟩ := hspec e he
    rw [hunique hit hhit hid]
    rcases hall e he with hzero | hmatched
    · by_cases hmem : e.id ∈ matched.map VectorEntry.id
      · obtain ⟨e', he', hid'⟩ := List.mem_map.mp hmem
        rw [hin e' he' hid', h.eq_of_id hids he he' hid']
      · rw [hout hmem, hzero]
        exact ((squashBm25_eq_zero_iff le_rfl).mpr rfl).symm
    · exact hin e hmatched rfl
  · obtain ⟨hmem, hkeeps⟩ := h.mem_ann he
    have hown : 0 ≤ ownBm25 bm25 queryContext e := ownBm25_nonneg hbm25 e
    rcases hown.lt_or_eq with hpos | hzero
    · refine .inr (h.best.mem_of_length_le hroom (List.mem_filter.mpr ⟨hmem, ?_⟩))
      simp [hkeeps, hpos]
    · exact .inl hzero.symm

namespace Sample

open Semisweet.Core.Sample

/-- The context `a`. -/
def contextA : Context := ⟨keyA.text⟩

/-- The context `b`. -/
def contextB : Context := ⟨keyB.text⟩

/-- The vector opposite to the query's. -/
def opposite : Embedding ℚ := ⟨embedding.dim, [-1], rfl, by simp [sumSquares]⟩

/-- A near row whose context matches a little. -/
def near : VectorEntry ℚ := ⟨idOne, embedding, ∅, ∅, some contextA⟩

/-- A far row whose context matches better. -/
def far : VectorEntry ℚ := ⟨idBoth, opposite, ∅, ∅, some contextB⟩

/-- The service's scores. -/
def scores (_ stored : Context) : ℚ := if stored = contextB then 2 else 1

/-- An entry as it comes back. -/
def rowOf (dist : VectorEntry ℚ → ℚ) (entry : VectorEntry ℚ) : QueryRow ℚ :=
  ⟨entry.id.toHex, dist entry, [], entry.context.map Context.asStr⟩

/-- The answer: the near row in the first leg, the far row in the second. -/
def answer : List (List (QueryRow ℚ)) :=
  [[rowOf (fun e => 1 - cosine embedding e) near], [rowOf (ownBm25 scores (some contextB)) far]]

theorem returns_rowOf (dist : VectorEntry ℚ → ℚ) (entry : VectorEntry ℚ) :
    List.Forall₂ (Returns dist) [entry] [rowOf dist entry] :=
  .cons ⟨rfl, rfl, rfl⟩ .nil

theorem answered_answer :
    Answered scores [near, far] embedding (some contextB) ⟨∅, ∅⟩ 1 [near] [far] answer where
  nearest := by
    have hpool : [near, far].filter (MemoryVectorStore.keeps ⟨∅, ∅⟩) = [near, far] := by
      simp [MemoryVectorStore.keeps]
    rw [hpool]
    refine ⟨⟨[far], .refl _, fun a ha b hb => ?_⟩, by simp, by simp⟩
    rw [List.mem_singleton.mp ha, List.mem_singleton.mp hb]
    norm_num [cosine, sumProducts, near, far, embedding, opposite]
  best := by
    have hpool : matching scores (some contextB) ⟨∅, ∅⟩ [near, far] = [near, far] := by
      simp [matching, MemoryVectorStore.keeps, ownBm25, near, far, scores, contextA, contextB,
        keyA, keyB]
    rw [hpool]
    refine ⟨⟨[near], .swap near far [], fun a ha b hb => ?_⟩, by simp, by simp⟩
    rw [List.mem_singleton.mp ha, List.mem_singleton.mp hb]
    decide
  legs := ⟨_, _, returns_rowOf _ near, returns_rowOf _ far, rfl⟩

theorem scores_nonneg (query stored : Context) : 0 ≤ scores query stored := by
  unfold scores
  split <;> norm_num

theorem nodup_ids : ([near, far].map VectorEntry.id).Nodup := by decide

end Sample

/-- The two rows, where the near one is missing from the second leg. -/
theorem own_context_iff_two :
    ∃ hits, fuseMultiQuery Core.Sample.platform Sample.answer = .ok hits ∧
      ((∀ entry ∈ [Sample.near], ∀ hit ∈ hits, hit.id = entry.id → hit.sparseScore =
          squashBm25 (ownBm25 Sample.scores (some Sample.contextB) entry)) ↔
        ∀ entry ∈ [Sample.near], ownBm25 Sample.scores (some Sample.contextB) entry = 0 ∨
          entry ∈ [Sample.far]) := by
  obtain ⟨hits, hok, hiff, -⟩ := own_context_iff (P := Core.Sample.platform) Sample.scores_nonneg
    Sample.nodup_ids Sample.answered_answer
  exact ⟨hits, hok, hiff⟩

/-- **A hit that is not scored by its own context**: of two rows, with `top_k = 1`, the nearer one
is the only row of the first leg, and the other one the only row of the second. -/
theorem own_context_fails : ¬ ∀ (bm25 : Context → Context → ℚ) (entries : List (VectorEntry ℚ))
    (vector : Embedding ℚ) (queryContext : Option Context) (filter : Filter) (topK : ℕ+)
    (ann matched : List (VectorEntry ℚ)) (results : List (List (QueryRow ℚ)))
    (hits : List (ScoredHit ℚ)), (∀ query stored, 0 ≤ bm25 query stored) →
      (entries.map VectorEntry.id).Nodup →
      Answered bm25 entries vector queryContext filter topK ann matched results →
      fuseMultiQuery Core.Sample.platform results = .ok hits → ∀ entry ∈ ann, ∀ hit ∈ hits,
        hit.id = entry.id → hit.sparseScore = squashBm25 (ownBm25 bm25 queryContext entry) := by
  intro hall
  obtain ⟨hits, hok, hspec⟩ := fuse_spec (P := Core.Sample.platform)
    (Sample.returns_rowOf (fun e => 1 - cosine Core.Sample.embedding e) Sample.near)
    (Sample.returns_rowOf (ownBm25 Sample.scores (some Sample.contextB)) Sample.far) (by simp)
  obtain ⟨hit, hhit, hid, -, hout, -⟩ := hspec Sample.near (by simp)
  have hscore := hall _ _ _ _ _ _ _ _ _ hits Sample.scores_nonneg Sample.nodup_ids
    Sample.answered_answer hok Sample.near (by simp) hit hhit hid
  rw [hout (by decide)] at hscore
  exact absurd hscore (by decide +kernel)

end TurbopufferVectorStore

end Semisweet.Core
