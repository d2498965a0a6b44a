import Semisweet.Core.CacheHistory
import Mathlib.Algebra.Order.Field.Rat

/-!
# Looking up an entry by the parts it was set with

The write-behind shadow answers a lookup by the exact id of its parts; the stores answer it
by similarity. This module relates the two: a lookup of exactly the parts of a stored entry
that `accept` accepts.

No entry is closer to such a lookup than the entry itself (its cosine is one), so the match
is as close as the entry. But the key filter is contains-all, and the match is the first
of equals in the order the hash map is gone through: another accepted entry of the same
cosine whose keys include the lookup's — the same query under more keys, say — may be the
match instead.

## What is proved

* `findMatch_cosine` — the match is an accepted entry that has the lookup's keys, and its
  cosine is the exact entry's.
* `findMatch_rival` — with such a rival there is an order in which the match is the rival.
* `exact_identity` — the match is the exact entry in every order if and only if it has no
  rival; and then `get` returns the payload last set for the parts, and `delete` removes the
  entry and nothing else.
-/

namespace Semisweet.Core

open Semisweet.Foundations MemoryVectorStore

variable {R : Type} [Field R] [LinearOrder R]

/-- The hits of the entries that have the lookup's keys and pass the entity filter, in the
order of the visit. -/
def keptHits (P : Platform R) (shard : Shard R) (embedding : Embedding R) (context : Option Context)
    (filter : Filter) (iter : List (EntryId × VectorEntry R)) : List (ScoredHit R) :=
  (iter.filter fun p => keeps filter p.2).map fun p => entryHit P shard embedding context p.2

/-- A lookup of exactly the parts of a stored entry, which `accept` accepts: the situation the
results of this module are about. -/
structure ExactLookup (P : Platform R) (cache : Cache R) (h : History (Stores R) (Op R))
    (s : Stores R) (lookup : Parts) (shard : Shard R) (entry : VectorEntry R)
    (fast : Finset Entity) (embedding : Embedding R) :
    Prop where
  /-- The shard of the cache's namespace. -/
  shard_eq : s.vector cache.ns = some shard
  /-- It holds an entry under the id of the lookup. -/
  entry_eq : shard.entries (EntryId.derive P.newV5 lookup) = some entry
  /-- The lookup's entities. -/
  fast_eq : cache.extractEntities lookup true = .ok fast
  /-- The lookup's embedding. -/
  embedding_eq : cache.embedQuery lookup.query.asStr = .ok embedding
  /-- `accept` accepts the entry. -/
  accepted : cache.scoring.accept fast lookup.context
    (entryHit P shard embedding lookup.context entry) = true
  /-- Nothing else that was set shares the lookup's id. -/
  alone : ∀ p, WasSet h p → EntryId.derive P.newV5 p = EntryId.derive P.newV5 lookup → p = lookup

/-- Another entry that has the lookup's keys, that `accept` accepts, and that is as close to the
lookup as `entry`. -/
def Rival (P : Platform R) (cache : Cache R) (lookup : Parts) (shard : Shard R)
    (entry : VectorEntry R) (fast : Finset Entity) (embedding : Embedding R) (id : EntryId)
    (rival : VectorEntry R) : Prop :=
  shard.entries id = some rival ∧ id ≠ EntryId.derive P.newV5 lookup ∧ lookup.keys ⊆ rival.keys ∧
    cache.scoring.accept fast lookup.context
      (entryHit P shard embedding lookup.context rival) = true ∧
      Cache.cosine embedding rival = Cache.cosine embedding entry

/-- The lookup's own entry is the match, in whichever order the entries are gone through. -/
def ExactWins (P : Platform R) (cache : Cache R) (s : Stores R) (lookup : Parts) : Prop :=
  ∀ iter, Enumerates iter (s.vector.entries cache.ns) →
    (cache.findMatch P s iter lookup).map (Option.map ScoredHit.id) =
      .ok (some (EntryId.derive P.newV5 lookup))

/-- `get` returns the payload last set for the lookup's parts, and `delete` removes the entry
of the lookup, with its payload, and nothing else. -/
def ServesExact (P : Platform R) (cache : Cache R) (h : History (Stores R) (Op R)) (s : Stores R)
    (lookup : Parts) (iter : List (EntryId × VectorEntry R)) : Prop :=
  (∃ value, LastSet P cache h (EntryId.derive P.newV5 lookup) lookup value ∧
    cache.get P s iter lookup = .ok (some value)) ∧
    ∃ s', cache.delete P s iter lookup = (s', .ok true) ∧
      s'.vector.entries cache.ns =
        Function.update (s.vector.entries cache.ns) (EntryId.derive P.newV5 lookup) none ∧
      s'.object cache.ns =
        Function.update (s.object cache.ns) (EntryId.derive P.newV5 lookup) none ∧
      ∀ ns, ns ≠ cache.ns → s'.vector ns = s.vector ns ∧ s'.object ns = s.object ns

variable {P : Platform R} {cache : Cache R} {h : History (Stores R) (Op R)} {s : Stores R}
  {lookup : Parts}
  {shard : Shard R} {entry : VectorEntry R} {fast : Finset Entity} {embedding : Embedding R}
  {iter : List (EntryId × VectorEntry R)}

/-- An accepted entry that has the lookup's keys passes the filter. -/
theorem keeps_of_accept {e : VectorEntry R} (hk : lookup.keys ⊆ e.keys)
    (ha : cache.scoring.accept fast lookup.context
      (entryHit P shard embedding lookup.context e) = true) :
    keeps (cache.filterOf lookup fast) e = true := by
  have hgate := (ScoringConfig.accept_iff.mp ha).1
  rw [cache.keeps_filterOf hgate, decide_eq_true_eq]
  exact hk

namespace ExactLookup

/-- The entry is the one the lookup's parts prepare. -/
theorem prepare_eq (hI : Inv P cache h s)
    (hx : ExactLookup P cache h s lookup shard entry fast embedding) :
    cache.prepare P lookup = .ok entry ∧ entry.vector = embedding ∧
      ∃ value, LastSet P cache h (EntryId.derive P.newV5 lookup) lookup value ∧
        s.object cache.ns (EntryId.derive P.newV5 lookup) = some value := by
  have hent : s.vector.entries cache.ns (EntryId.derive P.newV5 lookup) = some entry := by
    simp [entries, hx.shard_eq, hx.entry_eq]
  obtain ⟨parts, value, hl, hp, ho⟩ := hI.backed _ _ hent
  obtain rfl := hx.alone parts hl.wasSet hl.1
  obtain ⟨-, -, -, -, hvec⟩ := cache.prepare_eq_ok P hp
  rw [hx.embedding_eq, Except.ok.injEq] at hvec
  exact ⟨hp, hvec.symm, value, hl, ho⟩

/-- **The lookup reaches `select`** with the hits of all the kept entries, ranked. -/
theorem findMatch_eq (hI : Inv P cache h s)
    (hx : ExactLookup P cache h s lookup shard entry fast embedding)
    (hiter : Enumerates iter (s.vector.entries cache.ns)) (hk : iter.length ≤ cache.scoring.topK) :
    cache.findMatch P s iter lookup = .ok ((rank ScoredHit.denseScore
      (keptHits P shard embedding lookup.context (cache.filterOf lookup fast) iter)).find?
        (cache.scoring.accept fast lookup.context)) := by
  have hdim : ∀ p ∈ iter, p.2.vector.dim = shard.dim := by
    intro p hp
    have := (hiter.mem_iff p.1 p.2).mp hp
    simp only [entries, hx.shard_eq] at this
    exact hI.dimensioned _ _ hx.shard_eq _ _ this
  have hown : embedding.dim = shard.dim := by
    rw [← (hx.prepare_eq hI).2.1]
    exact hI.dimensioned _ _ hx.shard_eq _ _ hx.entry_eq
  have hquery : s.vector.query P iter cache.ns embedding lookup.context (cache.filterOf lookup fast)
      cache.scoring.topK = .ok ((rank ScoredHit.denseScore
        (keptHits P shard embedding lookup.context
        (cache.filterOf lookup fast) iter)).take cache.scoring.topK) :=
    (query_eq_ok_iff P hx.shard_eq).mpr ⟨hown, fun p hp _ => hown.trans (hdim p hp).symm, rfl⟩
  have hlen : (rank ScoredHit.denseScore
      (keptHits P shard embedding lookup.context (cache.filterOf lookup fast) iter)).length ≤
        cache.scoring.topK := by
    rw [(rank_perm _ _).length_eq, keptHits, List.length_map]
    exact (List.length_filter_le _ _).trans hk
  have hall : ((rank ScoredHit.denseScore
      (keptHits P shard embedding lookup.context (cache.filterOf lookup fast) iter)).take
        cache.scoring.topK) =
        rank ScoredHit.denseScore
          (keptHits P shard embedding lookup.context (cache.filterOf lookup fast) iter) :=
    List.take_of_length_le hlen
  simp only [Cache.findMatch, bind_eq_ok, Except.ok.injEq]
  refine ⟨fast, hx.fast_eq, embedding, hx.embedding_eq, _, hquery, ?_⟩
  rw [ScoringConfig.select_eq_find? _ _ _ (query_pairwise P hquery)]
  exact congrArg _ hall

variable [IsStrictOrderedRing R]

/-- No entry of the namespace is closer to the lookup than the exact entry. -/
theorem cosine_le (hI : Inv P cache h s)
    (hx : ExactLookup P cache h s lookup shard entry fast embedding) {id : EntryId}
    {e : VectorEntry R} (he : shard.entries id = some e) :
    Cache.cosine embedding e ≤ Cache.cosine embedding entry := by
  obtain ⟨-, hvec, -⟩ := hx.prepare_eq hI
  have hd : embedding.dim = e.vector.dim := by
    rw [← hvec, hI.dimensioned _ _ hx.shard_eq _ _ hx.entry_eq,
      hI.dimensioned _ _ hx.shard_eq _ _ he]
  calc Cache.cosine embedding e ≤ 1 := embedding.sumProducts_le_one e.vector hd
    _ = Cache.cosine embedding entry := by rw [Cache.cosine, hvec, embedding.sumProducts_self]

/-- **The match is as close as the exact entry**: it is an accepted entry that has the lookup's
keys, and its cosine is the exact entry's. -/
theorem findMatch_cosine (hI : Inv P cache h s)
    (hx : ExactLookup P cache h s lookup shard entry fast embedding)
    (hiter : Enumerates iter (s.vector.entries cache.ns)) (hk : iter.length ≤ cache.scoring.topK) :
    ∃ id e, shard.entries id = some e ∧ lookup.keys ⊆ e.keys ∧
      cache.scoring.accept fast lookup.context
        (entryHit P shard embedding lookup.context e) = true ∧
        Cache.cosine embedding e = Cache.cosine embedding entry ∧
          cache.findMatch P s iter lookup =
            .ok (some (entryHit P shard embedding lookup.context e)) := by
  obtain ⟨hprep, -, -⟩ := hx.prepare_eq hI
  obtain ⟨-, hkeys, -, -, -⟩ := cache.prepare_eq_ok P hprep
  have hmem : (EntryId.derive P.newV5 lookup, entry) ∈ iter := by
    rw [hiter.mem_iff]
    simp [entries, hx.shard_eq, hx.entry_eq]
  have hexact : entryHit P shard embedding lookup.context entry ∈ rank ScoredHit.denseScore
      (keptHits P shard embedding lookup.context (cache.filterOf lookup fast) iter) := by
    rw [mem_rank, keptHits, List.mem_map]
    exact ⟨_, List.mem_filter.mpr ⟨hmem, keeps_of_accept (hkeys ▸ subset_rfl) hx.accepted⟩, rfl⟩
  rw [hx.findMatch_eq hI hiter hk]
  cases hf : (rank ScoredHit.denseScore (keptHits P shard embedding lookup.context
    (cache.filterOf lookup fast)
      iter)).find? (cache.scoring.accept fast lookup.context) with
  | none => exact absurd hx.accepted (List.find?_eq_none.mp hf _ hexact)
  | some hit =>
    have hin := List.mem_of_find?_eq_some hf
    rw [mem_rank, keptHits, List.mem_map] at hin
    obtain ⟨⟨id, e⟩, hp, rfl⟩ := hin
    rw [List.mem_filter, keeps, Bool.and_eq_true, decide_eq_true_eq] at hp
    have he : shard.entries id = some e := by
      have := (hiter.mem_iff id e).mp hp.1
      simpa [entries, hx.shard_eq] using this
    have hge := score_le_of_find? _ _ (rank_pairwise _ _) hf hexact hx.accepted
    exact ⟨id, e, he, hp.2.1, List.find?_some hf, le_antisymm (hx.cosine_le hI he) hge, rfl⟩

/-- **With a rival, some order makes the rival the match**: the order that visits it first. -/
theorem findMatch_rival (hI : Inv P cache h s)
    (hx : ExactLookup P cache h s lookup shard entry fast embedding)
    (hiter : Enumerates iter (s.vector.entries cache.ns)) (hk : iter.length ≤ cache.scoring.topK)
    {id : EntryId} {rival : VectorEntry R}
    (hr : Rival P cache lookup shard entry fast embedding id rival) :
    ∃ iter', Enumerates iter' (s.vector.entries cache.ns) ∧ ∃ hit,
      cache.findMatch P s iter' lookup = .ok (some hit) ∧
        hit.id ≠ EntryId.derive P.newV5 lookup := by
  obtain ⟨he, hne, hkeys, hacc, hcos⟩ := hr
  have hent : s.vector.entries cache.ns id = some rival := by simp [entries, hx.shard_eq, he]
  obtain ⟨l₁, l₂, rfl⟩ := List.append_of_mem ((hiter.mem_iff id rival).mpr hent)
  have hperm : ((id, rival) :: (l₁ ++ l₂)).Perm (l₁ ++ (id, rival) :: l₂) := List.perm_middle.symm
  have hiter' := hiter.perm hperm
  have hkeep : (fun p : EntryId × VectorEntry R => keeps (cache.filterOf lookup fast) p.2)
    (id, rival) = true :=
    keeps_of_accept hkeys hacc
  refine ⟨_, hiter', entryHit P shard embedding lookup.context rival, ?_, ?_⟩
  · rw [hx.findMatch_eq hI hiter' (hperm.length_eq ▸ hk), keptHits, List.filter_cons, if_pos hkeep,
      List.map_cons, rank_cons_of_forall_le,
      List.find?_cons_of_pos hacc]
    intro hit hin
    obtain ⟨⟨id', e⟩, hp, rfl⟩ := List.mem_map.mp hin
    have he' := (hiter'.mem_iff id' e).mp (List.mem_cons_of_mem _ (List.mem_filter.mp hp).1)
    exact (hx.cosine_le hI (by simpa [entries, hx.shard_eq] using he')).trans_eq hcos.symm
  · obtain ⟨parts, value, hl, hp, -⟩ := hI.backed _ _ hent
    rw [show (entryHit P shard embedding lookup.context rival).id = id from
      (cache.prepare_eq_ok P hp).1.trans hl.1]
    exact hne

/-- Without a rival the match is the lookup's own entry. -/
theorem exactWins (hI : Inv P cache h s)
    (hx : ExactLookup P cache h s lookup shard entry fast embedding)
    {iter₀ : List (EntryId × VectorEntry R)}
    (hiter₀ : Enumerates iter₀ (s.vector.entries cache.ns))
    (hk : iter₀.length ≤ cache.scoring.topK)
    (hno : ∀ id rival, ¬ Rival P cache lookup shard entry fast embedding id rival) :
    ExactWins P cache s lookup := by
  intro iter hiter
  have hk' : iter.length ≤ cache.scoring.topK := (hiter₀.perm_of hiter).length_eq ▸ hk
  obtain ⟨id, e, he, hkeys, hacc, hcos, hf⟩ := hx.findMatch_cosine hI hiter hk'
  have hid : id = EntryId.derive P.newV5 lookup := by
    by_contra hne
    exact hno id e ⟨he, hne, hkeys, hacc, hcos⟩
  have hent : s.vector.entries cache.ns id = some e := by simp [entries, hx.shard_eq, he]
  obtain ⟨parts, value, hl, hp, -⟩ := hI.backed _ _ hent
  have heid : e.id = id := (cache.prepare_eq_ok P hp).1.trans hl.1
  rw [hf, ← hid, ← heid]
  rfl

omit [IsStrictOrderedRing R] in
/-- Where the match is the lookup's own entry, `get` and `delete` are about that entry. -/
theorem servesExact (hI : Inv P cache h s)
    (hx : ExactLookup P cache h s lookup shard entry fast embedding)
    (hwins : ExactWins P cache s lookup) (hiter : Enumerates iter (s.vector.entries cache.ns)) :
    ServesExact P cache h s lookup iter := by
  obtain ⟨-, -, value, hl, ho⟩ := hx.prepare_eq hI
  have hmatch := hwins iter hiter
  refine ⟨⟨value, hl, ?_⟩, ?_⟩
  · rw [cache.get_eq P hmatch]
    simp [ho]
  · obtain ⟨hent, -, hother⟩ := delete_spec s.vector cache.ns (EntryId.derive P.newV5 lookup)
    refine ⟨⟨s.vector.delete cache.ns (EntryId.derive P.newV5 lookup),
      s.object.delete cache.ns (EntryId.derive P.newV5 lookup)⟩, ?_, hent, ?_, fun ns hns =>
        ⟨hother ns hns, ?_⟩⟩
    · obtain ⟨hit, hf, hid⟩ := cache.exists_hit P hmatch
      simp [Cache.delete, hf, hid]
    · simp [ObjectStore.delete]
    · simp [ObjectStore.delete, Function.update_of_ne hns]

end ExactLookup

variable [IsStrictOrderedRing R]

/-- **Looking up an entry by its parts**: the match is always accepted and as close as the entry;
it is the entry itself in every order exactly when the entry has no rival; and then `get` returns
the payload last set for the parts, and `delete` removes that entry and nothing else. -/
theorem exact_identity {object : ObjectStore} (hrun : Calls P cache object h s)
    (hfree : CollisionFree P h) (hx : ExactLookup P cache h s lookup shard entry fast embedding)
    {iter₀ : List (EntryId × VectorEntry R)}
    (hiter₀ : Enumerates iter₀ (s.vector.entries cache.ns))
    (hk : iter₀.length ≤ cache.scoring.topK) :
    (∀ iter, Enumerates iter (s.vector.entries cache.ns) → ∃ id e, shard.entries id = some e ∧
      lookup.keys ⊆ e.keys ∧
      cache.scoring.accept fast lookup.context
        (entryHit P shard embedding lookup.context e) = true ∧
        Cache.cosine embedding e = Cache.cosine embedding entry ∧
          cache.findMatch P s iter lookup =
            .ok (some (entryHit P shard embedding lookup.context e))) ∧
    (ExactWins P cache s lookup ↔
      ∀ id rival, ¬ Rival P cache lookup shard entry fast embedding id rival) ∧
    ((∀ id rival, ¬ Rival P cache lookup shard entry fast embedding id rival) →
      ∀ iter, Enumerates iter (s.vector.entries cache.ns) →
        ServesExact P cache h s lookup iter) := by
  have hI := inv_run hrun hfree
  refine ⟨fun iter hiter => ?_, ⟨fun hwins id rival hr => ?_, hx.exactWins hI hiter₀ hk⟩,
    fun hno iter hiter => hx.servesExact hI (hx.exactWins hI hiter₀ hk hno) hiter⟩
  · have hk' : iter.length ≤ cache.scoring.topK := (hiter₀.perm_of hiter).length_eq ▸ hk
    exact hx.findMatch_cosine hI hiter hk'
  · obtain ⟨iter, hiter, hit, hf, hne⟩ := hx.findMatch_rival hI hiter₀ hk hr
    have := hwins iter hiter
    simp only [hf, Except.map, Option.map_some, Except.ok.injEq, Option.some.injEq] at this
    exact hne this

namespace Sample

/-- The stores after `both` is set as well. -/
def bothSet : Stores ℚ := (small.set platform oneSet both [2]).1

theorem set_both : small.set platform oneSet both [2] = (bothSet, .ok ()) := rfl

/-- The calls that set `one` and then `both`. -/
def bothCalls : History (Stores ℚ) (Op ℚ) := oneCall ++ [(oneSet, .set both [2])]

theorem calls_both : Calls platform small (fun _ _ => none) bothCalls bothSet :=
  Run.next calls_one trivial (Step.set set_both)

/-- The namespace's shard, once `one` is set. -/
def shardOf (s : Stores ℚ) : Shard ℚ :=
  (s.vector small.ns).getD ⟨Sample.embedding.dim, fun _ => none, .new⟩

theorem derive_ne : EntryId.derive platform.newV5 both ≠ EntryId.derive platform.newV5 one := by
  rw [derive_one, derive_both]
  decide

theorem wasSet_both {p : Parts} (hp : WasSet bothCalls p) : p = one ∨ p = both := by
  obtain ⟨s, value, hp⟩ := hp
  simp only [bothCalls, oneCall, List.mem_append, List.mem_singleton, Prod.mk.injEq,
    Op.set.injEq, reduceCtorEq,
    and_false, or_false] at hp
  exact hp.imp (fun h => h.2.1) (fun h => h.2.1)

theorem collisionFree_both : CollisionFree platform bothCalls := by
  intro p p' hp hp' hid
  rcases wasSet_both hp with rfl | rfl <;> rcases wasSet_both hp' with rfl | rfl
  · rfl
  · exact absurd hid.symm derive_ne
  · exact absurd hid derive_ne
  · rfl

theorem enumerates_both : Enumerates
    [(EntryId.derive platform.newV5 both, Sample.entry both),
      (EntryId.derive platform.newV5 one, Sample.entry one)]
    (bothSet.vector.entries small.ns) := by
  apply enumerates_set rfl set_both enumerates_one
  cases he : oneSet.vector.entries small.ns (EntryId.derive platform.newV5 both) with
  | none => rfl
  | some e =>
    have := (enumerates_one.mem_iff _ _).mpr he
    simp only [List.mem_singleton, Prod.mk.injEq] at this
    exact absurd this.1 derive_ne

theorem exactLookup_one :
    ExactLookup platform small oneCall oneSet one (shardOf oneSet) (Sample.entry one) {entity}
    Sample.embedding where
  shard_eq := rfl
  entry_eq := (enumerates_one.mem_iff _ _).mp (by simp)
  fast_eq := rfl
  embedding_eq := rfl
  accepted := by decide +kernel
  alone _ hp _ := wasSet_one hp

theorem exactLookup_both :
    ExactLookup platform small bothCalls bothSet one (shardOf bothSet) (Sample.entry one) {entity}
    Sample.embedding where
  shard_eq := rfl
  entry_eq := (enumerates_both.mem_iff _ _).mp (by simp)
  fast_eq := rfl
  embedding_eq := rfl
  accepted := by decide +kernel
  alone p hp hid := by
    rcases wasSet_both hp with rfl | rfl
    · rfl
    · exact absurd hid derive_ne

end Sample

/-- With `one` alone set, a lookup of `one` finds it and reads its payload back. -/
theorem exact_identity_one : ExactWins Sample.platform Sample.small Sample.oneSet Sample.one ∧
    ServesExact Sample.platform Sample.small Sample.oneCall Sample.oneSet Sample.one
      [(EntryId.derive Sample.platform.newV5 Sample.one, Sample.entry Sample.one)] := by
  obtain ⟨-, hwins, hserves⟩ := exact_identity Sample.calls_one Sample.collisionFree_one
    Sample.exactLookup_one Sample.enumerates_one (by decide)
  have hno : ∀ id rival, ¬ Rival Sample.platform Sample.small Sample.one
    (Sample.shardOf Sample.oneSet)
      (Sample.entry Sample.one) {Sample.entity} Sample.embedding id rival := by
    rintro id rival ⟨he, hne, -⟩
    have := (Sample.enumerates_one.mem_iff id rival).mpr he
    simp only [List.mem_singleton, Prod.mk.injEq] at this
    exact hne this.1
  exact ⟨hwins.mpr hno, hserves hno _ Sample.enumerates_one⟩

/-- **Not the lookup's own entry**: with `one` and `both` set, and `both` visited first, a
lookup of exactly `one` matches `both`. -/
theorem exact_identity_fails :
    ¬ ∀ h s lookup shard entry fast embedding iter,
      Calls Sample.platform Sample.small (fun _ _ => none) h s → CollisionFree Sample.platform h →
        ExactLookup Sample.platform Sample.small h s lookup shard entry fast embedding →
        Enumerates iter (s.vector.entries Sample.small.ns) →
          iter.length ≤ Sample.small.scoring.topK →
          (Sample.small.findMatch Sample.platform s iter lookup).map (Option.map ScoredHit.id) =
            .ok (some (EntryId.derive Sample.platform.newV5 lookup)) := by
  intro hall
  have hexact := hall _ _ _ _ _ _ _ _ Sample.calls_both Sample.collisionFree_both
    Sample.exactLookup_both
    Sample.enumerates_both (by decide)
  have hboth : (Sample.small.findMatch Sample.platform Sample.bothSet
      [(EntryId.derive Sample.platform.newV5 Sample.both, Sample.entry Sample.both),
        (EntryId.derive Sample.platform.newV5 Sample.one, Sample.entry Sample.one)] Sample.one).map
          (Option.map ScoredHit.id) =
            .ok (some (EntryId.derive Sample.platform.newV5 Sample.both)) := by
    simp only [Sample.entry, Sample.derive_one, Sample.derive_both]
    decide +kernel
  rw [hboth, Except.ok.injEq, Option.some.injEq] at hexact
  exact Sample.derive_ne hexact

end Semisweet.Core
