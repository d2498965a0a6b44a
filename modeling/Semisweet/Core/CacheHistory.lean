import Semisweet.Core.Cache
import Semisweet.Foundations.Runs
import Mathlib.Algebra.Order.Field.Rat

/-!
# Histories of a cache

A cache over an empty vector store and whatever the object store already holds, and any
sequence of `set` and `delete` calls. What a lookup may return is decided by the calls
before it, through two stores, a filter, a truncation and three gates; this module says
which call each answer comes from.

## The model

A run of `Step` is a sequence of calls. A `delete` looks up before it removes, and goes
through the entries in an order of its own; one that fails changes nothing and is left
out. A `set` that fails may have written its payload, and stays in the history. The id of
an entry is a hash, so two lookups might share one; `CollisionFree` says that of the
lookups of a history no two do.

## What is proved

* `inv_run` — in every state reached, every entry is the one prepared by the last `set` of
  its id, not removed since; the object store holds that call's payload under the same id;
  and the index has, for the entry, the document of that call's context.
* `hit_justified` — so every hit is the payload of such a `set`, which clears all the gates.
-/

namespace Semisweet.Core

open Semisweet.Foundations

variable {R : Type} [Field R] [LinearOrder R]

/-- A call on a cache. -/
inductive Op (R : Type) [Field R] where
  /-- `Cache::set`, with success. -/
  | set (parts : Parts) (value : List UInt8)
  /-- `Cache::set`, with an error. -/
  | setFailed (parts : Parts) (value : List UInt8)
  /-- `Cache::delete`, going through the entries in the order `iter`. -/
  | delete (parts : Parts) (iter : List (EntryId × VectorEntry R))

variable (P : Platform R) (cache : Cache R)

/-- One call. -/
inductive Step : Stores R → Op R → Stores R → Prop
  /-- A `set` that succeeds. -/
  | set {s s' : Stores R} {parts : Parts} {value : List UInt8} :
      cache.set P s parts value = (s', .ok ()) → Step s (.set parts value) s'
  /-- A `set` that fails. -/
  | setFailed {s s' : Stores R} {parts : Parts} {value : List UInt8} {e : Error} :
      cache.set P s parts value = (s', .error e) → Step s (.setFailed parts value) s'
  /-- A `delete`, whichever order the hash map is gone through in. -/
  | delete {s s' : Stores R} {parts : Parts} {iter : List (EntryId × VectorEntry R)} {b : Bool} :
      Enumerates iter (s.vector.entries cache.ns) → cache.delete P s iter parts = (s', .ok b) →
        Step s (.delete parts iter) s'

/-- A new cache: nothing in the vector store, anything in the object store. -/
def Stores.fresh (object : ObjectStore) : Stores R := ⟨MemoryVectorStore.new, object⟩

/-- The calls of a cache that started fresh, and the stores they lead to. -/
abbrev Calls (object : ObjectStore) : History (Stores R) (Op R) → Stores R → Prop :=
  Run (Step P cache) (Stores.fresh object) Always

/-! ### Events -/

/-- The call sets the entry `id`. -/
def SetsId (id : EntryId) : Stores R × Op R → Prop
  | (_, .set parts _) => EntryId.derive P.newV5 parts = id
  | _ => False

/-- The call removes the entry `id`. -/
def RemovesId (id : EntryId) : Stores R × Op R → Prop
  | (s, .delete parts iter) => ∃ hit, cache.findMatch P s iter parts = .ok (some hit) ∧ hit.id = id
  | _ => False

/-- The last successful `set` of `id` in the history is of these parts and this payload, and no
`delete` removed `id` since. -/
def LastSet (h : History (Stores R) (Op R)) (id : EntryId) (parts : Parts) (value : List UInt8) :
    Prop :=
  EntryId.derive P.newV5 parts = id ∧ ∃ h₁ s h₂, h = h₁ ++ (s, .set parts value) :: h₂ ∧
    ∀ t ∈ h₂, ¬ SetsId P id t ∧ ¬ RemovesId P cache id t

/-- The parts of some `set` of the history. -/
def WasSet (h : History (Stores R) (Op R)) (parts : Parts) : Prop :=
  ∃ s value, (s, Op.set parts value) ∈ h ∨ (s, Op.setFailed parts value) ∈ h

/-- No two different lookups of the history share an id. -/
def CollisionFree (h : History (Stores R) (Op R)) : Prop :=
  ∀ p p', WasSet h p → WasSet h p' → EntryId.derive P.newV5 p = EntryId.derive P.newV5 p' → p = p'

omit [LinearOrder R] in
theorem WasSet.mono {h : History (Stores R) (Op R)} {parts : Parts} (t : Stores R × Op R)
    (hs : WasSet h parts) : WasSet (h ++ [t]) parts := by
  obtain ⟨s, value, hm⟩ := hs
  exact ⟨s, value, hm.imp (List.mem_append_left _) (List.mem_append_left _)⟩

omit [LinearOrder R] in
theorem CollisionFree.init {h : History (Stores R) (Op R)} {t : Stores R × Op R}
    (hfree : CollisionFree P (h ++ [t])) : CollisionFree P h :=
  fun p p' hp hp' => hfree p p' (hp.mono t) (hp'.mono t)

variable {P cache} {h : History (Stores R) (Op R)} {s s' : Stores R}

theorem LastSet.wasSet {id : EntryId} {parts : Parts} {value : List UInt8}
    (hl : LastSet P cache h id parts value) : WasSet h parts := by
  obtain ⟨-, h₁, s, h₂, rfl, -⟩ := hl
  exact ⟨s, value, by simp⟩

/-- A call that neither sets nor removes `id` leaves its last `set` the last. -/
theorem LastSet.snoc {id : EntryId} {parts : Parts} {value : List UInt8} {t : Stores R × Op R}
    (hl : LastSet P cache h id parts value) (hset : ¬ SetsId P id t)
    (hrem : ¬ RemovesId P cache id t) :
    LastSet P cache (h ++ [t]) id parts value := by
  obtain ⟨hid, h₁, s, h₂, rfl, hno⟩ := hl
  refine ⟨hid, h₁, s, h₂ ++ [t], by simp, fun t' ht' => ?_⟩
  rcases List.mem_append.mp ht' with ht' | ht'
  · exact hno t' ht'
  · rw [List.mem_singleton] at ht'
    exact ht' ▸ ⟨hset, hrem⟩

/-- A `set` just made is the last. -/
theorem LastSet.last (parts : Parts) (value : List UInt8) :
    LastSet P cache (h ++ [(s, .set parts value)]) (EntryId.derive P.newV5 parts) parts value :=
  ⟨rfl, h, s, [], rfl, by simp⟩

/-! ### The invariant -/

/-- The document an index has for a context. -/
def HasDocument (P : Platform R) (index : Bm25Index) (id : EntryId) (context : Context) : Prop :=
  index.termFrequency id = some (Bm25Index.termCounts (tokenize P context.asStr)) ∧
    index.documentLength id = some (tokenize P context.asStr).length

/-- What holds of the stores after the calls `h`. -/
structure Inv (P : Platform R) (cache : Cache R) (h : History (Stores R) (Op R)) (s : Stores R) :
    Prop where
  /-- Every entry is the one its last `set` prepared, and its payload is that call's. -/
  backed : ∀ id entry, s.vector.entries cache.ns id = some entry →
    ∃ parts value, LastSet P cache h id parts value ∧ cache.prepare P parts = .ok entry ∧
      s.object cache.ns id = some value
  /-- Every document is of a `set` that carried a context. -/
  indexed : ∀ id, (s.vector.index cache.ns).termFrequency id ≠ none →
    ∃ parts, WasSet h parts ∧ EntryId.derive P.newV5 parts = id ∧ parts.context ≠ none
  /-- Every entry with a context has that context's document. -/
  document : ∀ id entry context, s.vector.entries cache.ns id = some entry →
    entry.context = some context →
    HasDocument P (s.vector.index cache.ns) id context
  /-- Every entry has its shard's dimension. -/
  dimensioned : s.vector.Dimensioned

omit [LinearOrder R] in
theorem indexContext_termFrequency_ne {bm25 : Bm25Index} {entry : VectorEntry R} {id : EntryId}
    (hne : id ≠ entry.id) :
    (indexContext P bm25 entry).termFrequency id = bm25.termFrequency id ∧
      (indexContext P bm25 entry).documentLength id = bm25.documentLength id := by
  unfold indexContext
  split
  · simp [Bm25Index.insert_termFrequency, Bm25Index.insert_documentLength, hne]
  · exact ⟨rfl, rfl⟩

theorem inv_fresh (object : ObjectStore) : Inv P cache [] (Stores.fresh object) where
  backed id entry he := by
    simp [Stores.fresh, MemoryVectorStore.entries, MemoryVectorStore.new] at he
  indexed id hi := by
    simp [Stores.fresh, MemoryVectorStore.index, MemoryVectorStore.new, Bm25Index.new] at hi
  document id entry context he := by
    simp [Stores.fresh, MemoryVectorStore.entries, MemoryVectorStore.new] at he
  dimensioned := MemoryVectorStore.dimensioned_new

/-- A `set` keeps the invariant. -/
theorem inv_set {parts : Parts} {value : List UInt8} (hI : Inv P cache h s)
    (hset : cache.set P s parts value = (s', .ok ())) :
    Inv P cache (h ++ [(s, .set parts value)]) s' := by
  obtain ⟨entry, hprep, hups, hobj⟩ := cache.set_eq_ok P hset
  obtain ⟨hid, -, hctx, -, -⟩ := cache.prepare_eq_ok P hprep
  obtain ⟨hent, hidx, -⟩ := MemoryVectorStore.upsert_eq_ok P hups
  refine ⟨fun id e he => ?_, fun id hi => ?_, fun id e context he hc => ?_,
    MemoryVectorStore.dimensioned_upsert P hI.dimensioned hups⟩
  · rw [hent] at he
    by_cases heq : id = entry.id
    · subst heq
      rw [Function.update_self, Option.some.injEq] at he
      subst he
      refine ⟨parts, value, hid ▸ LastSet.last parts value, hprep, ?_⟩
      rw [hobj, ← hid]
      simp [ObjectStore.put]
    · rw [Function.update_of_ne heq] at he
      obtain ⟨p, v, hl, hp, ho⟩ := hI.backed id e he
      refine ⟨p, v, hl.snoc (fun h => heq (h.symm.trans hid.symm)) (by simp [RemovesId]), hp, ?_⟩
      rw [hobj, ← hid]
      simp [ObjectStore.put, Function.update_of_ne heq, ho]
  · rw [hidx] at hi
    by_cases heq : id = entry.id
    · subst heq
      cases hc : entry.context with
      | some context =>
        exact ⟨parts, ⟨s, value, by simp⟩, hid.symm, by rw [← hctx, hc]; simp⟩
      | none =>
        simp only [indexContext, hc] at hi
        obtain ⟨p, hp, hd⟩ := hI.indexed _ hi
        exact ⟨p, hp.mono _, hd⟩
    · rw [(indexContext_termFrequency_ne heq).1] at hi
      obtain ⟨p, hp, hd⟩ := hI.indexed _ hi
      exact ⟨p, hp.mono _, hd⟩
  · rw [hent] at he
    rw [hidx]
    by_cases heq : id = entry.id
    · subst heq
      rw [Function.update_self, Option.some.injEq] at he
      subst he
      simp [HasDocument, indexContext, hc, Bm25Index.insert_termFrequency,
        Bm25Index.insert_documentLength]
    · rw [Function.update_of_ne heq] at he
      unfold HasDocument
      rw [(indexContext_termFrequency_ne heq).1, (indexContext_termFrequency_ne heq).2]
      exact hI.document id e context he hc

/-- A `set` that fails keeps the invariant: were there an entry under the id, it would be of
the same parts, and its dimension would not have been rejected. -/
theorem inv_setFailed {parts : Parts} {value : List UInt8} {e : Error} (hI : Inv P cache h s)
    (hfree : CollisionFree P (h ++ [(s, .setFailed parts value)]))
    (hset : cache.set P s parts value = (s', .error e)) :
    Inv P cache (h ++ [(s, .setFailed parts value)]) s' := by
  have hkeep : s'.vector = s.vector ∧ ∀ id, s.vector.entries cache.ns id ≠ none →
      s'.object cache.ns id = s.object cache.ns id := by
    rcases cache.set_eq_error P hset with rfl | ⟨entry, shard, hprep, hs, hne, rfl⟩
    · exact ⟨rfl, fun _ _ => rfl⟩
    · refine ⟨rfl, fun id hid => ?_⟩
      obtain ⟨old, hold⟩ := Option.ne_none_iff_exists'.mp hid
      have hother : id ≠ EntryId.derive P.newV5 parts := by
        rintro rfl
        obtain ⟨p, v, hl, hp, -⟩ := hI.backed _ _ hold
        obtain rfl := hfree p parts (hl.wasSet.mono _) ⟨s, value, by simp⟩ hl.1
        rw [hp, Except.ok.injEq] at hprep
        subst hprep
        simp only [MemoryVectorStore.entries, hs] at hold
        exact hne (hI.dimensioned _ _ hs _ _ hold)
      simp [ObjectStore.put, Function.update_of_ne hother]
  obtain ⟨hvec, hobj⟩ := hkeep
  refine ⟨fun id old he => ?_, fun id hi => ?_, ?_, ?_⟩
  · rw [hvec] at he
    obtain ⟨p, v, hl, hp, ho⟩ := hI.backed id old he
    exact ⟨p, v, hl.snoc (by simp [SetsId]) (by simp [RemovesId]), hp,
      (hobj id (by simp [he])).trans ho⟩
  · rw [hvec] at hi
    obtain ⟨p, hp, hd⟩ := hI.indexed _ hi
    exact ⟨p, hp.mono _, hd⟩
  · rw [hvec]
    exact hI.document
  · rw [hvec]
    exact hI.dimensioned

/-- A `delete` keeps the invariant. -/
theorem inv_delete {parts : Parts} {iter : List (EntryId × VectorEntry R)} {b : Bool}
    (hI : Inv P cache h s) (hdel : cache.delete P s iter parts = (s', .ok b)) :
    Inv P cache (h ++ [(s, .delete parts iter)]) s' := by
  rcases cache.delete_eq_ok P hdel with ⟨hf, -, rfl⟩ | ⟨hit, hf, -, rfl⟩
  · -- nothing matched, and nothing changes
    refine ⟨fun id e he => ?_, fun id hi => ?_, hI.document, hI.dimensioned⟩
    · obtain ⟨p, v, hl, hp, ho⟩ := hI.backed id e he
      refine ⟨p, v, hl.snoc (by simp [SetsId]) ?_, hp, ho⟩
      rintro ⟨hit, hf', -⟩
      rw [hf] at hf'
      cases hf'
    · obtain ⟨p, hp, hd⟩ := hI.indexed _ hi
      exact ⟨p, hp.mono _, hd⟩
  · -- the match is removed from both stores, and from the index
    obtain ⟨hent, hidx, -⟩ := MemoryVectorStore.delete_spec s.vector cache.ns hit.id
    have hne : ∀ {id e}, (s.vector.delete cache.ns hit.id).entries cache.ns id = some e →
        id ≠ hit.id ∧ s.vector.entries cache.ns id = some e := by
      intro id e he
      rw [hent, Function.update_apply] at he
      split at he
      · cases he
      · exact ⟨‹_›, he⟩
    refine ⟨fun id e he => ?_, fun id hi => ?_, fun id e context he hc => ?_,
      MemoryVectorStore.dimensioned_delete hI.dimensioned _ _⟩
    · obtain ⟨hid, he⟩ := hne he
      obtain ⟨p, v, hl, hp, ho⟩ := hI.backed id e he
      refine ⟨p, v, hl.snoc (by simp [SetsId]) ?_, hp, ?_⟩
      · rintro ⟨hit', hf', rfl⟩
        rw [hf, Except.ok.injEq, Option.some.injEq] at hf'
        exact hid (by rw [hf'])
      · simp [ObjectStore.delete, Function.update_of_ne hid, ho]
    · rw [hidx, Bm25Index.remove_termFrequency, Function.update_apply] at hi
      split at hi
      · exact absurd rfl hi
      · obtain ⟨p, hp, hd⟩ := hI.indexed _ hi
        exact ⟨p, hp.mono _, hd⟩
    · obtain ⟨hid, he⟩ := hne he
      unfold HasDocument
      rw [hidx, Bm25Index.remove_termFrequency, Function.update_of_ne hid,
        Bm25Index.remove_documentLength_of_ne _ hid]
      exact hI.document id e context he hc

/-- **The invariant holds after any calls.** -/
theorem inv_run {object : ObjectStore} (hrun : Calls P cache object h s)
    (hfree : CollisionFree P h) :
    Inv P cache h s := by
  have hinv : CollisionFree P h → Inv P cache h s := by
    refine Run.invariant (I := fun h s => CollisionFree P h → Inv P cache h s)
      (fun _ => inv_fresh object)
      (fun h s a s' _ hI _ hstep hfree => ?_) hrun
    have hI := hI hfree.init
    cases hstep with
    | set hset => exact inv_set hI hset
    | setFailed hset => exact inv_setFailed hI hfree hset
    | delete _ hdel => exact inv_delete hI hdel
  exact hinv hfree

/-! ### Every hit is justified -/

/-- The BM25 score of a stored context against a lookup's, zero if either is absent. -/
def contextMatch (P : Platform R) (index : Bm25Index) (query stored : Option Context) : R :=
  match query, stored with
  | some query, some stored =>
    index.scoreDocument P (Bm25Index.termCounts (tokenize P stored.asStr))
      (tokenize P stored.asStr).length
      (tokenize P query.asStr).toFinset
  | _, _ => 0

/-- An entry's sparse score is computed from the context it was set with. Without a context
there is no document: one would be of a `set` of the same id with a context. -/
theorem sparseScore_eq (hI : Inv P cache h s) (hfree : CollisionFree P h) {shard : Shard R}
    (hs : s.vector cache.ns = some shard) {entry : VectorEntry R} {parts : Parts}
    {value : List UInt8} (he : shard.entries entry.id = some entry)
    (hl : LastSet P cache h entry.id parts value) (hp : cache.prepare P parts = .ok entry)
    (queryContext : Option Context) :
    MemoryVectorStore.sparseScore P shard (MemoryVectorStore.contextTerms P queryContext) entry.id =
      contextMatch P shard.bm25 queryContext parts.context := by
  obtain ⟨-, -, hctx, -, -⟩ := cache.prepare_eq_ok P hp
  have hent : s.vector.entries cache.ns entry.id = some entry := by
    simp [MemoryVectorStore.entries, hs, he]
  have hidx : s.vector.index cache.ns = shard.bm25 := by simp [MemoryVectorStore.index, hs]
  cases queryContext with
  | none => simp [MemoryVectorStore.sparseScore, MemoryVectorStore.contextTerms, contextMatch]
  | some query =>
    simp only [MemoryVectorStore.sparseScore, MemoryVectorStore.contextTerms, Option.map_some,
      Bm25Index.score]
    cases hc : parts.context with
    | some context =>
      obtain ⟨htf, hlen⟩ := hI.document _ _ context hent (hctx.trans hc)
      rw [hidx] at htf hlen
      simp [htf, hlen, contextMatch]
    | none =>
      have htf : shard.bm25.termFrequency entry.id = none := by
        by_contra hne
        rw [← hidx] at hne
        obtain ⟨p, hp', hd, hcne⟩ := hI.indexed _ hne
        have := hfree p parts hp' hl.wasSet (hd.trans hl.1.symm)
        exact hcne (this ▸ hc)
      simp [htf, contextMatch]

/-- What makes the `set` of `parts` an answer to the lookup: it has the lookup's keys, its
entities overlap the lookup's, and its cosine and its context clear the floors. -/
def Justifies (P : Platform R) (cache : Cache R) (index : Bm25Index) (lookup parts : Parts) :
    Prop :=
  lookup.keys ⊆ parts.keys ∧
    ∃ fast full embedding stored, cache.extractEntities lookup true = .ok fast ∧
      cache.extractEntities parts false = .ok full ∧
        (0 < fast.card → max 1 (fast.card / 3) ≤ (fast ∩ full).card) ∧
          cache.embedQuery lookup.query.asStr = .ok embedding ∧
            cache.embedQuery parts.query.asStr = .ok stored ∧
              if cache.scoring.context = .gate ∧ lookup.context.isSome then
                cache.scoring.contextGate ≤ contextMatch P index lookup.context parts.context ∧
                  cache.scoring.contextThreshold ≤ sumProducts embedding.values stored.values
              else cache.scoring.threshold ≤ sumProducts embedding.values stored.values

/-- **What a lookup finds**: an entry whose last `set` is an answer to it. -/
theorem findMatch_justified (hI : Inv P cache h s) (hfree : CollisionFree P h)
    {iter : List (EntryId × VectorEntry R)} (hiter : Enumerates iter (s.vector.entries cache.ns))
    {lookup : Parts} {hit : ScoredHit R}
    (hfind : cache.findMatch P s iter lookup = .ok (some hit)) :
    ∃ parts value, LastSet P cache h hit.id parts value ∧ s.object cache.ns hit.id = some value ∧
      Justifies P cache (s.vector.index cache.ns) lookup parts := by
  obtain ⟨fast, embedding, shard, hfast, hembed, hs, ⟨id, entry⟩, hmem, hkeys, hacc, rfl⟩ :=
    cache.findMatch_eq_some P hfind
  have hent := (hiter.mem_iff id entry).mp hmem
  obtain ⟨parts, value, hl, hp, ho⟩ := hI.backed id entry hent
  obtain ⟨hid, hk, -, hfull, hvec⟩ := cache.prepare_eq_ok P hp
  obtain rfl : entry.id = id := hid.trans hl.1
  have hsp := sparseScore_eq hI hfree hs (by simpa [MemoryVectorStore.entries, hs] using hent) hl
    hp lookup.context
  obtain ⟨hgate, hfloors⟩ := ScoringConfig.accept_iff.mp hacc
  refine ⟨parts, value, hl, ho, hk ▸ hkeys, fast, _, embedding, _, hfast, hfull,
    ScoringConfig.entityGate_iff.mp hgate, hembed, hvec, ?_⟩
  have hidx : s.vector.index cache.ns = shard.bm25 := by simp [MemoryVectorStore.index, hs]
  rw [hidx, ← hsp]
  exact hfloors

/-- **Every hit is justified**: what `get` returns is the payload of a `set` that is the last
of its id, that no `delete` removed since, and that clears every gate of the lookup. -/
theorem hit_justified {object : ObjectStore} (hrun : Calls P cache object h s)
    (hfree : CollisionFree P h) {iter : List (EntryId × VectorEntry R)}
    (hiter : Enumerates iter (s.vector.entries cache.ns)) (lookup : Parts) (value : List UInt8)
    (hget : cache.get P s iter lookup = .ok (some value)) :
    ∃ id parts, LastSet P cache h id parts value ∧
      Justifies P cache (s.vector.index cache.ns) lookup parts := by
  simp only [Cache.get, bind_eq_ok] at hget
  obtain ⟨found, hfind, hget⟩ := hget
  cases found with
  | none => simp at hget
  | some hit =>
    obtain ⟨parts, value', hl, ho, hj⟩ := findMatch_justified (inv_run hrun hfree) hfree hiter hfind
    simp only [ho, Except.ok.injEq, Option.some.injEq] at hget
    subst hget
    exact ⟨hit.id, parts, hl, hj⟩

/-! ### A small cache

One query, set under one key or under both; an embedding of dimension one and one entity.
The ids are the ones `EntryId::derive` gives these lookups. -/

namespace Sample

/-- The key `a`. -/
def keyA : Key := ⟨⟨"a", by decide, by decide⟩⟩

/-- The key `b`. -/
def keyB : Key := ⟨⟨"b", by decide, by decide⟩⟩

/-- The query `q`. -/
def query : QueryText := ⟨⟨"q", by decide, by decide⟩⟩

/-- The entity `q`. -/
def entity : Entity := ⟨"q", by decide⟩

/-- The query under the key `a`. -/
def one : Parts := ⟨query, {keyA}, none⟩

/-- The query under both keys. -/
def both : Parts := ⟨query, {keyA, keyB}, none⟩

/-- The id of `one`. -/
def idOne : EntryId :=
  ⟨#v[0xaf, 0xff, 0x68, 0x85, 0x09, 0x29, 0x5a, 0x9a,
      0x81, 0x59, 0xfb, 0xdf, 0xa1, 0x1b, 0xb6, 0x9a]⟩

/-- The id of `both`. -/
def idBoth : EntryId :=
  ⟨#v[0x1d, 0x82, 0x92, 0x50, 0x3d, 0xe2, 0x59, 0x80,
      0x83, 0xaf, 0x86, 0xe6, 0x38, 0xac, 0x8c, 0xaf]⟩

/-- What the lookup `one` feeds the hash. -/
def bufferOne : List UInt8 := [1, 0, 0, 0, 0, 0, 0, 0, 113, 0, 1, 0, 0, 0, 0, 0, 0, 0, 97]

/-- The hash on the two lookups. No context is scored, so no logarithm is taken. -/
def platform : Platform ℚ where
  ln x := x - 1
  toLowercase := String.toLower
  newV5 _ buffer := if buffer = bufferOne then idOne.bytes else idBoth.bytes

/-- The embedding of every text. -/
def embedding : Embedding ℚ := ⟨1, [1], rfl, by simp [sumSquares]⟩

/-- The cache. -/
def small : Cache ℚ where
  ns := ⟨"t", by decide, by decide, by decide, by decide⟩
  extract _ _ := .ok {entity}
  embedQuery _ := .ok embedding
  scoring := .default

/-- The entry a lookup prepares. -/
def entry (parts : Parts) : VectorEntry ℚ :=
  ⟨EntryId.derive platform.newV5 parts, embedding, parts.keys, {entity}, parts.context⟩

theorem derive_one : EntryId.derive platform.newV5 one = idOne := by
  have hbuffer : EntryId.buffer one = bufferOne := by
    simp only [EntryId.buffer, one, Finset.sort_singleton]
    decide
  simp [EntryId.derive, platform, hbuffer]

theorem derive_both : EntryId.derive platform.newV5 both = idBoth := by
  have hsort : ({keyA, keyB} : Finset Key).sort (· ≤ ·) = [keyA, keyB] := by
    rw [Finset.sort_insert] <;> simp [keyA, keyB]
    decide
  have hbuffer : EntryId.buffer both ≠ bufferOne := by
    simp only [EntryId.buffer, both, hsort]
    decide
  simp [EntryId.derive, platform, hbuffer]

/-- The stores before anything is set. -/
def empty : Stores ℚ := Stores.fresh fun _ _ => none

/-- The stores after `one` is set. -/
def oneSet : Stores ℚ := (small.set platform empty one [1]).1

theorem set_one : small.set platform empty one [1] = (oneSet, .ok ()) := rfl

/-- The call that sets `one`. -/
def oneCall : History (Stores ℚ) (Op ℚ) := [(empty, .set one [1])]

theorem calls_one : Calls platform small (fun _ _ => none) oneCall oneSet :=
  Run.next .start trivial (Step.set set_one)

theorem wasSet_one {p : Parts} (hp : WasSet oneCall p) : p = one := by
  obtain ⟨s, value, hp⟩ := hp
  simp only [oneCall, List.mem_singleton, Prod.mk.injEq, Op.set.injEq, reduceCtorEq, and_false,
    or_false] at hp
  exact hp.2.1

theorem collisionFree_one : CollisionFree platform oneCall :=
  fun _ _ hp hp' _ => (wasSet_one hp).trans (wasSet_one hp').symm

/-- What a successful `set` of new parts adds to an iteration order. -/
theorem enumerates_set {s s' : Stores ℚ} {parts : Parts} {value : List UInt8}
    {iter : List (EntryId × VectorEntry ℚ)} (hnone : parts.context = none)
    (hset : small.set platform s parts value = (s', .ok ()))
    (hiter : Enumerates iter (s.vector.entries small.ns))
    (hnew : s.vector.entries small.ns (EntryId.derive platform.newV5 parts) = none) :
    Enumerates ((EntryId.derive platform.newV5 parts, entry parts) :: iter)
      (s'.vector.entries small.ns) := by
  obtain ⟨e, hprep, hups, -⟩ := small.set_eq_ok platform hset
  have he : e = entry parts := by
    simpa [Cache.prepare, Cache.extractEntities, small, entry, hnone, bind, Except.bind,
      eq_comm] using hprep
  subst he
  rw [(MemoryVectorStore.upsert_eq_ok platform hups).1]
  exact hiter.insert hnew _

theorem enumerates_one :
    Enumerates [(EntryId.derive platform.newV5 one, entry one)] (oneSet.vector.entries small.ns) :=
  enumerates_set rfl set_one .empty rfl

theorem match_one : (small.findMatch platform oneSet
    [(EntryId.derive platform.newV5 one, entry one)] one).map (Option.map ScoredHit.id) =
      .ok (some (EntryId.derive platform.newV5 one)) := by
  decide +kernel

theorem get_one : small.get platform oneSet [(EntryId.derive platform.newV5 one, entry one)] one =
    .ok (some [1]) := by
  rw [small.get_eq platform match_one]
  simp [(small.set_eq_ok platform set_one).choose_spec.2.2, ObjectStore.put]

end Sample

/-- The payload of `one` is read back because it was set. -/
theorem hit_justified_one :
    ∃ id parts, LastSet Sample.platform Sample.small Sample.oneCall id parts [1] ∧
    Justifies Sample.platform Sample.small (Sample.oneSet.vector.index Sample.small.ns)
      Sample.one parts :=
  hit_justified Sample.calls_one Sample.collisionFree_one Sample.enumerates_one Sample.one
    [1] Sample.get_one

end Semisweet.Core
