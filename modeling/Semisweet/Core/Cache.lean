import Semisweet.Core.VectorMemory

/-!
# The cache

`Cache` (`src/cache.rs`) over a `MemoryVectorStore` and an object store that behaves as a
map: `find_match` looks a query up by similarity, `get` reads the payload of the match,
`set` is `prepare` (entity extraction and embedding) and then `commit` (the payload, then
the index), and `delete` removes the match from the index and from the object store.

## The model

The entity and embedding backends are functions of the text, which may fail. The stores
are passed along, and an operation returns the stores it leaves and what it answers. The
object store never fails; of the vector store's operations an `upsert` of a vector of
another dimension fails, and `commit` has then written the payload already.

Each operation is followed by what it does, in terms of the maps the stores are, so that
nothing later unfolds it. `Stores.Backed` is what calls that succeed keep: an entry has its
payload.
-/

namespace Semisweet.Core

open Semisweet.Foundations

/-- `ObjectStorageBackend`, as a map. -/
abbrev ObjectStore := Namespace → EntryId → Option (List UInt8)

namespace ObjectStore

/-- `ObjectStorageBackend::put`. -/
def put (self : ObjectStore) (ns : Namespace) (id : EntryId) (value : List UInt8) : ObjectStore :=
  Function.update self ns (Function.update (self ns) id (some value))

/-- `ObjectStorageBackend::delete`. -/
def delete (self : ObjectStore) (ns : Namespace) (id : EntryId) : ObjectStore :=
  Function.update self ns (Function.update (self ns) id none)

end ObjectStore

variable {R : Type} [Field R]

/-- The stores a cache works on. -/
structure Stores (R : Type) [Field R] where
  /-- The vector store. -/
  vector : MemoryVectorStore R
  /-- The object store. -/
  object : ObjectStore

/-- `Cache`, less its stores. -/
structure Cache (R : Type) [Field R] where
  /-- The namespace. -/
  ns : Namespace
  /-- `EntityBackend::extract`. -/
  extract : String → Bool → Except Error (Finset Entity)
  /-- `EmbeddingBackend::embed_query`. -/
  embedQuery : String → Except Error (Embedding R)
  /-- The scoring configuration. -/
  scoring : ScoringConfig R

namespace Cache

variable (P : Platform R) (self : Cache R)

/-- `Cache::extract_entities`: of the query, or of the context if the query has none. -/
def extractEntities (parts : Parts) (fast : Bool) : Except Error (Finset Entity) := do
  let entities ← self.extract parts.query.asStr fast
  match parts.context with
  | some context => if entities = ∅ then self.extract context.asStr fast else .ok entities
  | none => .ok entities

/-- `Cache::prepare`. -/
def prepare (parts : Parts) : Except Error (VectorEntry R) := do
  let entities ← self.extractEntities parts false
  let embedding ← self.embedQuery parts.query.asStr
  .ok
    { id := EntryId.derive P.newV5 parts
      vector := embedding
      keys := parts.keys
      entities := entities
      context := parts.context }

/-- `Cache::commit`. -/
def commit (s : Stores R) (entry : VectorEntry R) (value : List UInt8) :
    Stores R × Except Error Unit :=
  let object := s.object.put self.ns entry.id value
  match s.vector.upsert P self.ns entry with
  | .ok vector => (⟨vector, object⟩, .ok ())
  | .error e => (⟨s.vector, object⟩, .error e)

/-- `Cache::set`. -/
def set (s : Stores R) (parts : Parts) (value : List UInt8) : Stores R × Except Error Unit :=
  match self.prepare P parts with
  | .ok entry => self.commit P s entry value
  | .error e => (s, .error e)

variable [LinearOrder R]

/-- The filter `find_match` builds. -/
def filterOf (parts : Parts) (entities : Finset Entity) : Filter where
  keysAll := parts.keys
  entitiesAny := if self.scoring.entityFilter then entities else ∅

/-- `Cache::find_match`, the store's entries gone through in the order `iter`. -/
def findMatch (s : Stores R) (iter : List (EntryId × VectorEntry R)) (parts : Parts) :
    Except Error (Option (ScoredHit R)) := do
  let entities ← self.extractEntities parts true
  let embedding ← self.embedQuery parts.query.asStr
  let hits ← s.vector.query P iter self.ns embedding parts.context (self.filterOf parts entities)
    self.scoring.topK
  .ok (self.scoring.select entities parts.context hits)

/-- `Cache::get`. -/
def get (s : Stores R) (iter : List (EntryId × VectorEntry R)) (parts : Parts) :
    Except Error (Option (List UInt8)) := do
  match ← self.findMatch P s iter parts with
  | some hit => .ok (s.object self.ns hit.id)
  | none => .ok none

/-- `Cache::delete`. -/
def delete (s : Stores R) (iter : List (EntryId × VectorEntry R)) (parts : Parts) :
    Stores R × Except Error Bool :=
  match self.findMatch P s iter parts with
  | .ok (some hit) => (⟨s.vector.delete self.ns hit.id, s.object.delete self.ns hit.id⟩, .ok true)
  | .ok none => (s, .ok false)
  | .error e => (s, .error e)

/-! ### What the operations do -/

/-- The cosine of a lookup's embedding and an entry's. -/
def cosine (embedding : Embedding R) (entry : VectorEntry R) : R :=
  sumProducts embedding.values entry.vector.values

omit [LinearOrder R] in
/-- **Whoever passes the entity gate passes the entity filter**, as the gate asks for more: of the
filter, the keys are left to decide. -/
theorem keeps_filterOf {parts : Parts} {fast : Finset Entity} {entry : VectorEntry R}
    (hgate : ScoringConfig.entityGate fast entry.entities = true) :
    MemoryVectorStore.keeps (self.filterOf parts fast) entry =
      decide (parts.keys ⊆ entry.keys) := by
  rcases fast.eq_empty_or_nonempty with rfl | hne
  · simp [MemoryVectorStore.keeps, filterOf]
  · have hmeet := ScoringConfig.inter_nonempty_of_entityGate hgate hne
    cases hf : self.scoring.entityFilter <;>
      simp [MemoryVectorStore.keeps, filterOf, hf, hmeet.ne_empty]

omit [LinearOrder R] in
/-- What `prepare` prepares. -/
theorem prepare_eq_ok {parts : Parts} {entry : VectorEntry R}
    (h : self.prepare P parts = .ok entry) :
    entry.id = EntryId.derive P.newV5 parts ∧ entry.keys = parts.keys ∧
      entry.context = parts.context ∧
      self.extractEntities parts false = .ok entry.entities ∧
        self.embedQuery parts.query.asStr = .ok entry.vector := by
  simp only [prepare, bind_eq_ok, Except.ok.injEq] at h
  obtain ⟨entities, he, embedding, hv, rfl⟩ := h
  exact ⟨rfl, rfl, rfl, he, hv⟩

omit [LinearOrder R] in
/-- **What `commit` does** when it succeeds. -/
theorem commit_eq_ok {s s' : Stores R} {entry : VectorEntry R} {value : List UInt8}
    (h : self.commit P s entry value = (s', .ok ())) :
    s.vector.upsert P self.ns entry = .ok s'.vector ∧
      s'.object = s.object.put self.ns entry.id value := by
  unfold commit at h
  cases hu : s.vector.upsert P self.ns entry with
  | error e => simp [hu] at h
  | ok vector =>
    simp only [hu, Prod.mk.injEq, and_true] at h
    subst h
    exact ⟨rfl, rfl⟩

omit [LinearOrder R] in
/-- **What `set` does** when it succeeds: the prepared entry is under its id, its context is
indexed, and the payload is under the same id. -/
theorem set_eq_ok {s s' : Stores R} {parts : Parts} {value : List UInt8}
    (h : self.set P s parts value = (s', .ok ())) :
    ∃ entry, self.prepare P parts = .ok entry ∧
      s.vector.upsert P self.ns entry = .ok s'.vector ∧
        s'.object = s.object.put self.ns (EntryId.derive P.newV5 parts) value := by
  unfold set at h
  cases hp : self.prepare P parts with
  | error e => simp [hp] at h
  | ok entry =>
    simp only [hp] at h
    obtain ⟨hups, hobject⟩ := commit_eq_ok P self h
    exact ⟨entry, rfl, hups, by rw [hobject, (prepare_eq_ok P self hp).1]⟩

omit [LinearOrder R] in
/-- **What `set` does** when it fails: nothing, or, when the store rejects the entry's
dimension, it has written the payload. -/
theorem set_eq_error {s s' : Stores R} {parts : Parts} {value : List UInt8} {e : Error}
    (h : self.set P s parts value = (s', .error e)) :
    s' = s ∨ ∃ entry shard, self.prepare P parts = .ok entry ∧ s.vector self.ns = some shard ∧
      entry.vector.dim ≠ shard.dim ∧
        s' = ⟨s.vector, s.object.put self.ns (EntryId.derive P.newV5 parts) value⟩ := by
  unfold set commit at h
  cases hp : self.prepare P parts with
  | error e =>
    simp only [hp, Prod.mk.injEq] at h
    exact .inl h.1.symm
  | ok entry =>
    simp only [hp] at h
    cases hu : s.vector.upsert P self.ns entry with
    | ok vector => simp [hu] at h
    | error e =>
      obtain ⟨shard, hs, hne⟩ := MemoryVectorStore.upsert_eq_error P hu
      simp only [hu, Prod.mk.injEq] at h
      exact .inr ⟨entry, shard, rfl, hs, hne, by rw [← h.1, (prepare_eq_ok P self hp).1]⟩

/-- **What `delete` does** when it succeeds: it removes the match, if there is one, from both
stores. -/
theorem delete_eq_ok {s s' : Stores R} {iter : List (EntryId × VectorEntry R)} {parts : Parts}
    {b : Bool} (h : self.delete P s iter parts = (s', .ok b)) :
    (self.findMatch P s iter parts = .ok none ∧ b = false ∧ s' = s) ∨
      ∃ hit, self.findMatch P s iter parts = .ok (some hit) ∧ b = true ∧
        s' = ⟨s.vector.delete self.ns hit.id, s.object.delete self.ns hit.id⟩ := by
  unfold delete at h
  split at h
  · rename_i hit hf
    simp only [Prod.mk.injEq, Except.ok.injEq] at h
    exact .inr ⟨hit, hf, h.2.symm, h.1.symm⟩
  · rename_i hf
    simp only [Prod.mk.injEq, Except.ok.injEq] at h
    exact .inl ⟨hf, h.2.symm, h.1.symm⟩
  · simp at h

/-- `get` reads the payload of the match. -/
theorem get_eq {s : Stores R} {iter : List (EntryId × VectorEntry R)} {parts : Parts}
    {found : Option EntryId}
    (h : (self.findMatch P s iter parts).map (Option.map ScoredHit.id) = .ok found) :
    self.get P s iter parts = .ok (found.bind (s.object self.ns)) := by
  unfold get
  cases hf : self.findMatch P s iter parts with
  | error e => simp [hf, Except.map] at h
  | ok match_ =>
    simp only [hf, Except.map, Except.ok.injEq] at h
    subst h
    cases match_ <;> rfl

/-- A match of a known id. -/
theorem exists_hit {s : Stores R} {iter : List (EntryId × VectorEntry R)} {parts : Parts}
    {id : EntryId}
    (h : (self.findMatch P s iter parts).map (Option.map ScoredHit.id) = .ok (some id)) :
    ∃ hit, self.findMatch P s iter parts = .ok (some hit) ∧ hit.id = id := by
  cases hf : self.findMatch P s iter parts with
  | error e => simp [hf, Except.map] at h
  | ok found =>
    simp only [hf, Except.map, Except.ok.injEq, Option.map_eq_some_iff] at h
    obtain ⟨hit, rfl, rfl⟩ := h
    exact ⟨hit, rfl, rfl⟩

/-- **What `find_match` matches**: an entry of the namespace that has every key of the lookup
and that `accept` accepts. -/
theorem findMatch_eq_some {s : Stores R} {iter : List (EntryId × VectorEntry R)} {parts : Parts}
    {hit : ScoredHit R} (h : self.findMatch P s iter parts = .ok (some hit)) :
    ∃ fast embedding shard, self.extractEntities parts true = .ok fast ∧
      self.embedQuery parts.query.asStr = .ok embedding ∧ s.vector self.ns = some shard ∧
        ∃ p ∈ iter, parts.keys ⊆ p.2.keys ∧ self.scoring.accept fast parts.context hit = true ∧
          hit = MemoryVectorStore.entryHit P shard embedding parts.context p.2 := by
  simp only [findMatch, bind_eq_ok, Except.ok.injEq] at h
  obtain ⟨fast, hfast, embedding, hembed, hits, hquery, hselect⟩ := h
  rw [ScoringConfig.select_eq_find? _ _ _ (MemoryVectorStore.query_pairwise P hquery)] at hselect
  have hmem := List.mem_of_find?_eq_some hselect
  cases hs : s.vector self.ns with
  | none =>
    simp only [MemoryVectorStore.query, hs, Except.ok.injEq] at hquery
    simp [← hquery] at hmem
  | some shard =>
    obtain ⟨-, -, rfl⟩ := (MemoryVectorStore.query_eq_ok_iff P hs).mp hquery
    have hmem := List.mem_of_mem_take hmem
    rw [mem_rank, List.mem_map] at hmem
    obtain ⟨p, hp, rfl⟩ := hmem
    rw [List.mem_filter, MemoryVectorStore.keeps, Bool.and_eq_true, decide_eq_true_eq] at hp
    exact ⟨fast, embedding, shard, hfast, hembed, rfl, p, hp.1, hp.2.1,
      List.find?_some hselect, rfl⟩

/-- **What a lookup's best match is**: of the entries of the namespace that pass its filter, closest
first and at most `top_k`, the first that `accept` accepts. -/
def BestMatch (s : Stores R) (iter : List (EntryId × VectorEntry R)) (parts : Parts)
    (id : EntryId) : Prop :=
  ∃ fast embedding shard, self.extractEntities parts true = .ok fast ∧
    self.embedQuery parts.query.asStr = .ok embedding ∧ s.vector self.ns = some shard ∧
      ∃ closer hit farther,
        (rank ScoredHit.denseScore ((iter.filter fun p =>
          MemoryVectorStore.keeps (self.filterOf parts fast) p.2).map fun p =>
            MemoryVectorStore.entryHit P shard embedding parts.context p.2)).take
              self.scoring.topK = closer ++ hit :: farther ∧
        hit.id = id ∧ self.scoring.accept fast parts.context hit = true ∧
          ∀ x ∈ closer, self.scoring.accept fast parts.context x = false

/-- `find_match` finds the best match. -/
theorem bestMatch_iff {s : Stores R} {iter : List (EntryId × VectorEntry R)} {parts : Parts}
    {found : Option (ScoredHit R)} (h : self.findMatch P s iter parts = .ok found) (id : EntryId) :
    self.BestMatch P s iter parts id ↔ found.map ScoredHit.id = some id := by
  simp only [findMatch, bind_eq_ok, Except.ok.injEq] at h
  obtain ⟨fast, hfast, embedding, hembed, hits, hquery, hselect⟩ := h
  rw [ScoringConfig.select_eq_find? _ _ _ (MemoryVectorStore.query_pairwise P hquery)] at hselect
  simp only [BestMatch, hfast, hembed, Except.ok.injEq, ← hselect, Option.map_eq_some_iff,
    List.find?_eq_some_iff_append]
  cases hs : s.vector self.ns with
  | none =>
    simp only [MemoryVectorStore.query, hs, Except.ok.injEq] at hquery
    simp [← hquery]
  | some shard =>
    obtain ⟨-, -, rfl⟩ := (MemoryVectorStore.query_eq_ok_iff P hs).mp hquery
    constructor
    · rintro ⟨_, _, _, rfl, rfl, hshard, closer, hit, farther, hl, hid, hacc, hno⟩
      obtain rfl := Option.some.inj hshard
      exact ⟨hit, ⟨hacc, closer, farther, hl, by simpa using hno⟩, hid⟩
    · rintro ⟨hit, ⟨hacc, closer, farther, hl, hno⟩, hid⟩
      exact ⟨fast, embedding, shard, rfl, rfl, rfl, closer, hit, farther, hl, hid, hacc,
        by simpa using hno⟩

end Cache

/-! ### Entries and payloads -/

namespace Stores

/-- What the stores hold under an id: an entry, and a payload. -/
def row (s : Stores R) (ns : Namespace) (id : EntryId) :
    Option (VectorEntry R) × Option (List UInt8) :=
  (s.vector.entries ns id, s.object ns id)

/-- What a `delete` removes of the stores. -/
def erase (s : Stores R) (ns : Namespace) (id : EntryId) : Stores R :=
  ⟨s.vector.delete ns id, s.object.delete ns id⟩

/-- Every entry of the namespace is under its own id, and has its payload. -/
def Backed (s : Stores R) (ns : Namespace) : Prop :=
  ∀ id entry, (s.row ns id).1 = some entry → entry.id = id ∧ (s.row ns id).2 ≠ none

variable {P : Platform R} {cache : Cache R} {s s' : Stores R} {ns : Namespace} {id : EntryId}

/-- **A `commit` writes an entry and its payload**, and leaves all else. -/
theorem row_commit {entry : VectorEntry R} {value : List UInt8}
    (h : cache.commit P s entry value = (s', .ok ())) :
    s'.row cache.ns entry.id = (some entry, some value) ∧
      ∀ ns id, (ns, id) ≠ (cache.ns, entry.id) → s'.row ns id = s.row ns id := by
  obtain ⟨hups, hobject⟩ := cache.commit_eq_ok P h
  obtain ⟨hentries, -, hother⟩ := MemoryVectorStore.upsert_eq_ok P hups
  refine ⟨by simp [row, hentries, hobject, ObjectStore.put], fun ns id hne => ?_⟩
  by_cases hns : ns = cache.ns
  · subst hns
    have hid : id ≠ entry.id := fun hid => hne (by rw [hid])
    simp [row, hentries, hobject, ObjectStore.put, hid]
  · simp [row, MemoryVectorStore.entries, hother ns hns, hobject, ObjectStore.put, hns]

/-- A `delete` removes both, and leaves all else. -/
theorem row_erase (s : Stores R) (ns : Namespace) (id : EntryId) :
    (s.erase ns id).row ns id = (none, none) ∧
      ∀ ns' id', (ns', id') ≠ (ns, id) → (s.erase ns id).row ns' id' = s.row ns' id' := by
  obtain ⟨hentries, -, hother⟩ := MemoryVectorStore.delete_spec s.vector ns id
  refine ⟨by simp [row, erase, hentries, ObjectStore.delete], fun ns' id' hne => ?_⟩
  by_cases hns : ns' = ns
  · subst hns
    have hid : id' ≠ id := fun hid => hne (by rw [hid])
    simp [row, erase, hentries, ObjectStore.delete, hid]
  · simp [row, erase, MemoryVectorStore.entries, hother ns' hns, ObjectStore.delete, hns]

theorem Backed.commit {entry : VectorEntry R} {value : List UInt8} (hI : s.Backed ns)
    (h : cache.commit P s entry value = (s', .ok ())) : s'.Backed ns := by
  obtain ⟨hrow, hother⟩ := row_commit h
  intro id e he
  by_cases hslot : (ns, id) = (cache.ns, entry.id)
  · obtain ⟨rfl, rfl⟩ := Prod.mk.inj hslot
    rw [hrow] at he ⊢
    obtain rfl := Option.some.inj he
    exact ⟨rfl, by simp⟩
  · rw [hother ns id hslot] at he ⊢
    exact hI id e he

theorem Backed.erase (hI : s.Backed ns) (ns' : Namespace) (id' : EntryId) :
    (s.erase ns' id').Backed ns := by
  obtain ⟨hrow, hother⟩ := row_erase s ns' id'
  intro id e he
  by_cases hslot : (ns, id) = (ns', id')
  · obtain ⟨rfl, rfl⟩ := Prod.mk.inj hslot
    rw [hrow] at he
    cases he
  · rw [hother ns id hslot] at he ⊢
    exact hI id e he

variable [LinearOrder R]

/-- What is matched is there, with its payload. -/
theorem Backed.findMatch {iter : List (EntryId × VectorEntry R)} {parts : Parts}
    {hit : ScoredHit R} (hI : s.Backed cache.ns)
    (hiter : Enumerates iter (s.vector.entries cache.ns))
    (hfind : cache.findMatch P s iter parts = .ok (some hit)) :
    s.vector.entries cache.ns hit.id ≠ none ∧ s.object cache.ns hit.id ≠ none := by
  obtain ⟨fast, embedding, shard, -, -, -, p, hp, -, -, rfl⟩ := cache.findMatch_eq_some P hfind
  have hentry := (hiter.mem_iff p.1 p.2).mp hp
  obtain ⟨hid, hobject⟩ := hI p.1 p.2 hentry
  have hhit : (MemoryVectorStore.entryHit P shard embedding parts.context p.2).id = p.1 := hid
  rw [hhit, hentry]
  exact ⟨by simp, hobject⟩

end Stores

end Semisweet.Core
