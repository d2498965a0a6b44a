import Semisweet.Core.VectorMemory

/-!
# The in-memory vector store over its updates

Any sequence of `upsert` and `delete` calls on a `MemoryVectorStore`, over any namespaces.
What the store then holds is a map, the entries last upserted and not deleted since, and a
query is a filtered and ranked reading of that map.

## The model

`after updates` is the store the calls lead to from an empty one. An `upsert` that returns
an error counts for nothing: an update *takes effect* on an id when it deletes the id or
upserts an entry of that id with success (`Affects`), and `LastUpserted` is said of the
calls alone.

## What is proved

* `entries_after_iff` — the entries are the last upserted.
* `exists_enumerates_after` — there is an order to go through them in.
* `store_refines_map` — the store as a filtered, ranked map.
-/

namespace Semisweet.Core.MemoryVectorStore

open Semisweet.Foundations

/-- A call that changes a store. -/
inductive Update (R : Type) [Field R] where
  /-- `upsert`. -/
  | upsert (ns : Namespace) (entry : VectorEntry R)
  /-- `delete`. -/
  | delete (ns : Namespace) (id : EntryId)

variable {R : Type} [Field R] (P : Platform R)

/-- The call on a store: the store it leaves, and what it returns. -/
def apply (s : MemoryVectorStore R) : Update R → MemoryVectorStore R × Except Error Unit
  | .upsert ns entry =>
    match s.upsert P ns entry with
    | .ok s' => (s', .ok ())
    | .error e => (s, .error e)
  | .delete ns id => (s.delete ns id, .ok ())

/-- The store that calls lead to from an empty one. -/
def after (updates : List (Update R)) : MemoryVectorStore R :=
  updates.foldl (fun s u => (apply P s u).1) new

/-- The call takes effect on an id of a namespace. -/
def Affects (s : MemoryVectorStore R) (ns : Namespace) (id : EntryId) (u : Update R) : Prop :=
  match u with
  | .upsert ns' entry => ns' = ns ∧ entry.id = id ∧ (apply P s u).2 = .ok ()
  | .delete ns' id' => ns' = ns ∧ id' = id

/-- The entry was upserted under the id, and nothing took effect on that id since. -/
def LastUpserted (updates : List (Update R)) (ns : Namespace) (id : EntryId)
    (entry : VectorEntry R) : Prop :=
  ∃ before later, updates = before ++ .upsert ns entry :: later ∧
    Affects P (after P before) ns id (.upsert ns entry) ∧
      ∀ between u rest, later = between ++ u :: rest →
        ¬ Affects P (after P (before ++ .upsert ns entry :: between)) ns id u

/-- The entry satisfies the filter. -/
def Matches (filter : Filter) (entry : VectorEntry R) : Prop :=
  filter.keysAll ⊆ entry.keys ∧
    (filter.entitiesAny = ∅ ∨ (filter.entitiesAny ∩ entry.entities).Nonempty)

/-! ### One call -/

variable {P} {s : MemoryVectorStore R} {ns : Namespace} {id : EntryId} {entry : VectorEntry R}
  {u : Update R} {updates : List (Update R)}

@[simp] theorem after_nil : after P ([] : List (Update R)) = new := rfl

@[simp] theorem after_snoc (updates : List (Update R)) (u : Update R) :
    after P (updates ++ [u]) = (apply P (after P updates) u).1 := by
  simp [after]

/-- **What a call does to the entries.** -/
theorem entries_apply (s : MemoryVectorStore R) (u : Update R) (ns : Namespace) (id : EntryId) :
    (¬ Affects P s ns id u ∧ (apply P s u).1.entries ns id = s.entries ns id) ∨
      Affects P s ns id u ∧
        ((∃ entry, u = .upsert ns entry ∧ (apply P s u).1.entries ns id = some entry) ∨
          u = .delete ns id ∧ (apply P s u).1.entries ns id = none) := by
  cases u with
  | upsert ns' entry =>
    cases hu : s.upsert P ns' entry with
    | error e => exact .inl ⟨by simp [Affects, apply, hu], by simp [apply, hu]⟩
    | ok s' =>
      obtain ⟨hentries, -, hother⟩ := upsert_eq_ok P hu
      by_cases hns : ns' = ns
      · subst hns
        by_cases hid : entry.id = id
        · subst hid
          exact .inr ⟨by simp [Affects, apply, hu],
            .inl ⟨entry, rfl, by simp [apply, hu, hentries]⟩⟩
        · exact .inl ⟨by simp [Affects, hid], by
            simp [apply, hu, hentries, Function.update_of_ne (Ne.symm hid)]⟩
      · exact .inl ⟨by simp [Affects, hns], by
          simp [apply, hu, entries, hother ns (Ne.symm hns)]⟩
  | delete ns' id' =>
    obtain ⟨hentries, -, hother⟩ := delete_spec s ns' id'
    by_cases hns : ns' = ns
    · subst hns
      by_cases hid : id' = id
      · subst hid
        exact .inr ⟨by simp [Affects], .inr ⟨rfl, by simp [apply, hentries]⟩⟩
      · exact .inl ⟨by simp [Affects, hid], by
          simp [apply, hentries, Function.update_of_ne (Ne.symm hid)]⟩
    · exact .inl ⟨by simp [Affects, hns], by
        simp [apply, entries, hother ns (Ne.symm hns)]⟩

theorem LastUpserted.id_eq (h : LastUpserted P updates ns id entry) : entry.id = id := by
  obtain ⟨_, _, _, haff, _⟩ := h
  exact haff.2.1

/-- One call more: it upserts the entry itself, or leaves it. -/
theorem lastUpserted_snoc : LastUpserted P (updates ++ [u]) ns id entry ↔
    (u = .upsert ns entry ∧ Affects P (after P updates) ns id u) ∨
      (LastUpserted P updates ns id entry ∧ ¬ Affects P (after P updates) ns id u) := by
  constructor
  · rintro ⟨before, later, heq, haff, hno⟩
    induction later using List.reverseRecOn with
    | nil =>
      obtain ⟨rfl, hu⟩ := List.append_inj' heq rfl
      simp only [List.cons.injEq, and_true] at hu
      exact .inl ⟨hu, hu ▸ haff⟩
    | append_singleton later v _ =>
      rw [← List.cons_append, ← List.append_assoc] at heq
      obtain ⟨rfl, hu⟩ := List.append_inj' heq rfl
      simp only [List.cons.injEq, and_true] at hu
      subst hu
      refine .inr ⟨⟨before, later, rfl, haff, fun between w rest hl => ?_⟩, hno later u [] rfl⟩
      exact hno between w (rest ++ [u]) (by simp [hl])
  · rintro (⟨rfl, haff⟩ | ⟨⟨before, later, rfl, haff, hno⟩, hnot⟩)
    · exact ⟨updates, [], rfl, haff, by simp⟩
    · refine ⟨before, later ++ [u], by simp, haff, fun between v rest heq => ?_⟩
      induction rest using List.reverseRecOn with
      | nil =>
        obtain ⟨rfl, hv⟩ := List.append_inj' heq rfl
        simp only [List.cons.injEq, and_true] at hv
        exact hv ▸ hnot
      | append_singleton rest w _ =>
        rw [← List.cons_append, ← List.append_assoc] at heq
        exact hno between v rest (List.append_inj' heq rfl).1

/-- **The entries of a store are the entries last upserted** and not deleted. -/
theorem entries_after_iff : (after P updates).entries ns id = some entry ↔
    LastUpserted P updates ns id entry := by
  induction updates using List.reverseRecOn with
  | nil => simp [LastUpserted, new, entries]
  | append_singleton updates u ih =>
    rw [after_snoc, lastUpserted_snoc, ← ih]
    rcases entries_apply (P := P) (after P updates) u ns id with ⟨hnot, h⟩ |
      ⟨haff, ⟨e, rfl, h⟩ | ⟨rfl, h⟩⟩
    · simp [h, hnot]
    · simp [h, haff, eq_comm]
    · simp [h, haff]

/-- **The entries of a store are gone through in some order**: they are finitely many. -/
theorem exists_enumerates_after (P : Platform R) (updates : List (Update R)) (ns : Namespace) :
    ∃ iter, Enumerates iter ((after P updates).entries ns) := by
  induction updates using List.reverseRecOn with
  | nil => exact ⟨[], Enumerates.empty⟩
  | append_singleton updates u ih =>
    obtain ⟨iter, hiter⟩ := ih
    rw [after_snoc]
    cases u with
    | upsert ns' entry =>
      simp only [apply]
      cases hu : (after P updates).upsert P ns' entry with
      | error e => exact ⟨iter, hiter⟩
      | ok s' =>
        obtain ⟨hentries, -, hother⟩ := upsert_eq_ok P hu
        by_cases hns : ns = ns'
        · subst hns
          exact hentries ▸ hiter.exists_update entry.id (some entry)
        · exact ⟨iter, by simpa only [entries, hother ns hns] using hiter⟩
    | delete ns' id =>
      obtain ⟨hentries, -, hother⟩ := delete_spec (after P updates) ns' id
      simp only [apply]
      by_cases hns : ns = ns'
      · subst hns
        exact hentries ▸ hiter.exists_update id none
      · exact ⟨iter, by simpa only [entries, hother ns hns] using hiter⟩

/-! ### The dimensions -/

/-- Every entry of a store is of its namespace's dimension. -/
theorem dimensioned_after (P : Platform R) (updates : List (Update R)) :
    (after P updates).Dimensioned := by
  induction updates using List.reverseRecOn with
  | nil => exact dimensioned_new
  | append_singleton updates u ih =>
    rw [after_snoc]
    cases u with
    | delete ns id => exact dimensioned_delete ih ns id
    | upsert ns entry =>
      simp only [apply]
      cases hu : (after P updates).upsert P ns entry with
      | error e => exact ih
      | ok s' => exact dimensioned_upsert P ih hu

/-- A namespace keeps its dimension, whatever is called. -/
theorem dim_apply {shard : Shard R} (h : s ns = some shard) (u : Update R) :
    ∃ shard', (apply P s u).1 ns = some shard' ∧ shard'.dim = shard.dim := by
  cases u with
  | upsert ns' entry =>
    simp only [apply]
    cases hu : s.upsert P ns' entry with
    | error e => exact ⟨shard, h, rfl⟩
    | ok s' =>
      by_cases hns : ns = ns'
      · subst hns
        simp only [upsert, h] at hu
        split at hu
        · cases hu
        · cases hu
          exact ⟨_, Function.update_self _ _ _, rfl⟩
      · exact ⟨shard, ((upsert_eq_ok P hu).2.2 ns hns).trans h, rfl⟩
  | delete ns' id' =>
    by_cases hns : ns = ns'
    · subst hns
      simp only [apply, delete, h]
      exact ⟨_, Function.update_self _ _ _, rfl⟩
    · exact ⟨shard, ((delete_spec s ns' id').2.2 ns hns).trans h, rfl⟩

/-- A namespace keeps its dimension over any further calls. -/
theorem dim_after {shard : Shard R} (h : after P updates ns = some shard)
    (more : List (Update R)) :
    ∃ shard', after P (updates ++ more) ns = some shard' ∧ shard'.dim = shard.dim := by
  induction more using List.reverseRecOn with
  | nil => exact ⟨shard, by rw [List.append_nil]; exact h, rfl⟩
  | append_singleton more u ih =>
    obtain ⟨mid, hmid, hdim⟩ := ih
    obtain ⟨shard', hs', hdim'⟩ := dim_apply (P := P) hmid u
    exact ⟨shard', by rw [← List.append_assoc, after_snoc]; exact hs', hdim'.trans hdim⟩

/-! ### Queries -/

variable [LinearOrder R] {iter : List (EntryId × VectorEntry R)} {vector : Embedding R}
  {queryContext : Option Context} {filter : Filter} {topK : ℕ+} {hits : List (ScoredHit R)}

omit [LinearOrder R] in
theorem keeps_iff : keeps filter entry = true ↔ Matches filter entry := by
  simp only [keeps, Matches, Bool.and_eq_true, decide_eq_true_eq, Bool.not_eq_true',
    Bool.and_eq_false_iff, decide_eq_false_iff_not, ne_eq, not_not, Finset.nonempty_iff_ne_empty]

/-- The hits of the kept entries, before they are ranked. -/
def candidates (P : Platform R) (shard : Shard R) (iter : List (EntryId × VectorEntry R))
    (vector : Embedding R) (queryContext : Option Context) (filter : Filter) :
    List (ScoredHit R) :=
  (iter.filter fun p => keeps filter p.2).map fun p => entryHit P shard vector queryContext p.2

/-- **What a query of a dimensioned store does**, whatever the order the entries are gone
through in. -/
theorem query_eq (hdim : s.Dimensioned) (hiter : Enumerates iter (s.entries ns)) :
    query P s iter ns vector queryContext filter topK =
      match s ns with
      | none => .ok []
      | some shard =>
        if vector.dim ≠ shard.dim then .error (.dimMismatch vector.dim shard.dim)
        else .ok ((rank ScoredHit.denseScore
          (candidates P shard iter vector queryContext filter)).take topK) := by
  cases hs : s ns with
  | none => simp [query, hs]
  | some shard =>
    by_cases hd : vector.dim = shard.dim
    · simp only [hd, ne_eq, not_true_eq_false, if_false]
      refine (query_eq_ok_iff P hs).mpr ⟨hd, fun p hp _ => ?_, rfl⟩
      have hentry : shard.entries p.1 = some p.2 := by
        simpa [entries, hs] using (hiter.mem_iff p.1 p.2).mp hp
      rw [hd, hdim ns shard hs p.1 p.2 hentry]
    · simp [query, hs, hd]

theorem mem_candidates {shard : Shard R} {hit : ScoredHit R} :
    hit ∈ candidates P shard iter vector queryContext filter ↔
      ∃ p ∈ iter, Matches filter p.2 ∧ hit = entryHit P shard vector queryContext p.2 := by
  simp only [candidates, List.mem_map, List.mem_filter, keeps_iff, and_assoc, eq_comm (a := hit)]

/-- The candidates' ids are the keys of the kept entries, when every entry is under its own id. -/
theorem map_id_candidates {shard : Shard R} (hown : ∀ p ∈ iter, p.2.id = p.1) :
    (candidates P shard iter vector queryContext filter).map ScoredHit.id =
      (iter.filter fun p => keeps filter p.2).map Prod.fst := by
  rw [candidates, List.map_map]
  exact List.map_congr_left fun p hp => hown p (List.mem_of_mem_filter hp)

/-- The answer to a query: `hits` are `top_k` of the entries that the calls left in the namespace
and that match, or all of them if they are fewer; by decreasing dense score; and no matching entry
that is left out has a higher one. -/
structure Answers (P : Platform R) (updates : List (Update R)) (ns : Namespace)
    (vector : Embedding R) (filter : Filter) (topK : ℕ+) (hits : List (ScoredHit R)) : Prop where
  /-- No id twice. -/
  nodup : (hits.map ScoredHit.id).Nodup
  /-- In non-increasing order. -/
  ordered : hits.Pairwise fun a b => b.denseScore ≤ a.denseScore
  /-- Every hit is a matching entry, with its dense score, its entities and its context. -/
  sound : ∀ hit ∈ hits, ∃ entry, LastUpserted P updates ns hit.id entry ∧ Matches filter entry ∧
    hit.denseScore = sumProducts vector.values entry.vector.values ∧
      hit.entities = entry.entities ∧ hit.context = entry.context
  /-- There are as many as match, up to `top_k`. -/
  count : ∃ matching : Finset EntryId,
    (∀ id, id ∈ matching ↔ ∃ entry, LastUpserted P updates ns id entry ∧ Matches filter entry) ∧
      hits.length = min (topK : ℕ) matching.card
  /-- None that is left out outscores one that is listed. -/
  best : ∀ id entry, LastUpserted P updates ns id entry → Matches filter entry →
    id ∉ hits.map ScoredHit.id → ∀ hit ∈ hits,
      sumProducts vector.values entry.vector.values ≤ hit.denseScore

/-- The first of the ranked candidates are an answer. -/
theorem answers_take {shard : Shard R}
    (hmem : ∀ p, p ∈ iter ↔ LastUpserted P updates ns p.1 p.2)
    (hown : ∀ p ∈ iter, p.2.id = p.1) (hnodup : (iter.map Prod.fst).Nodup) :
    Answers P updates ns vector filter topK ((rank ScoredHit.denseScore
      (candidates P shard iter vector queryContext filter)).take topK) := by
  have hids : ((candidates P shard iter vector queryContext filter).map ScoredHit.id).Nodup := by
    rw [map_id_candidates hown]
    exact hnodup.sublist ((List.filter_sublist).map _)
  refine ⟨?_, ?_, fun hit hhit => ?_, ?_, fun id entry hl hmatch hout hit hhit => ?_⟩
  · have hperm := (rank_perm ScoredHit.denseScore
      (candidates P shard iter vector queryContext filter)).map ScoredHit.id
    exact (hperm.nodup_iff.mpr hids).sublist ((List.take_sublist _ _).map _)
  · exact (rank_pairwise _ _).sublist (List.take_sublist _ _)
  · have hcand := (mem_rank _).mp (List.mem_of_mem_take hhit)
    obtain ⟨p, hp, hmatch, rfl⟩ := mem_candidates.mp hcand
    refine ⟨p.2, ?_, hmatch, rfl, rfl, rfl⟩
    have hid : (entryHit P shard vector queryContext p.2).id = p.1 := hown p hp
    rw [hid]
    exact (hmem p).mp hp
  · refine ⟨((candidates P shard iter vector queryContext filter).map ScoredHit.id).toFinset,
      fun id => ?_, ?_⟩
    · simp only [List.mem_toFinset, map_id_candidates hown, List.mem_map, List.mem_filter,
        keeps_iff, hmem, Prod.exists]
      constructor
      · rintro ⟨_, entry, ⟨hl, hmatch⟩, rfl⟩
        exact ⟨entry, hl, hmatch⟩
      · rintro ⟨entry, hl, hmatch⟩
        exact ⟨id, entry, ⟨hl, hmatch⟩, rfl⟩
    · rw [List.toFinset_card_of_nodup hids, List.length_map, length_take_rank]
  · -- The entry is a candidate, and so it is listed or left out.
    have hp : (id, entry) ∈ iter := (hmem (id, entry)).mpr hl
    have hcand : entryHit P shard vector queryContext entry ∈
        candidates P shard iter vector queryContext filter :=
      mem_candidates.mpr ⟨(id, entry), hp, hmatch, rfl⟩
    rw [← mem_rank ScoredHit.denseScore, ← List.take_append_drop topK (rank _ _),
      List.mem_append] at hcand
    rcases hcand with hin | hleft
    · exact absurd (List.mem_map.mpr ⟨_, hin, hown _ hp⟩) hout
    · exact score_le_of_mem_drop _ hhit hleft

/-- A query that succeeds answers. -/
theorem answers_of_query (hiter : Enumerates iter ((after P updates).entries ns))
    (h : query P (after P updates) iter ns vector queryContext filter topK = .ok hits) :
    Answers P updates ns vector filter topK hits := by
  have hmem : ∀ p, p ∈ iter ↔ LastUpserted P updates ns p.1 p.2 := fun p =>
    (hiter.mem_iff p.1 p.2).trans entries_after_iff
  have hown : ∀ p ∈ iter, p.2.id = p.1 := fun p hp => ((hmem p).mp hp).id_eq
  rw [query_eq (dimensioned_after P updates) hiter] at h
  cases hs : after P updates ns with
  | none =>
    have hnone : ∀ id entry, ¬ LastUpserted P updates ns id entry := by
      intro id entry hl
      simp [← entries_after_iff, entries, hs] at hl
    simp only [hs, Except.ok.injEq] at h
    subst h
    exact ⟨by simp, by simp, by simp, ⟨∅, by simp [hnone], by simp⟩,
      fun id entry hl => absurd hl (hnone id entry)⟩
  | some shard =>
    simp only [hs] at h
    split at h
    · cases h
    · simp only [Except.ok.injEq] at h
      subst h
      exact answers_take hmem hown hiter.nodup

/-- **The store is a filtered, ranked map.** Every entry has its namespace's dimension, which never
changes, and is under its own id; an `upsert` that is refused for its dimension changes nothing;
there is an order to go through the hash map in; and in every such order a query fails exactly when
the namespace has another dimension than it, and one that succeeds answers with the best of the
matching entries. -/
theorem store_refines_map (P : Platform R) (updates : List (Update R)) :
    (∀ ns shard, after P updates ns = some shard →
      (∀ more, ∃ shard', after P (updates ++ more) ns = some shard' ∧ shard'.dim = shard.dim) ∧
        ∀ id entry, shard.entries id = some entry →
          entry.vector.dim = shard.dim ∧ entry.id = id) ∧
    (∀ ns entry got want s', apply P (after P updates) (.upsert ns entry) =
      (s', .error (.dimMismatch got want)) → s' = after P updates) ∧
    ∀ ns, (∃ iter, Enumerates iter ((after P updates).entries ns)) ∧
      ∀ iter, Enumerates iter ((after P updates).entries ns) →
        ∀ vector queryContext filter (topK : ℕ+),
          ((∃ e, query P (after P updates) iter ns vector queryContext filter topK = .error e) ↔
            ∃ shard, after P updates ns = some shard ∧ vector.dim ≠ shard.dim) ∧
          ∀ hits, query P (after P updates) iter ns vector queryContext filter topK = .ok hits →
            Answers P updates ns vector filter topK hits := by
  refine ⟨fun ns shard hs => ⟨fun more => dim_after hs more, fun id entry he => ⟨?_, ?_⟩⟩,
    fun ns entry got want s' h => ?_, fun ns => ⟨exists_enumerates_after P updates ns,
      fun iter hiter vector queryContext filter topK => ⟨?_, ?_⟩⟩⟩
  · exact dimensioned_after P updates ns shard hs id entry he
  · have hl : LastUpserted P updates ns id entry := by
      rw [← entries_after_iff, entries, hs]
      exact he
    exact hl.id_eq
  · simp only [apply] at h
    split at h
    · simp at h
    · simp only [Prod.mk.injEq] at h
      exact h.1.symm
  · rw [query_eq (dimensioned_after P updates) hiter]
    cases after P updates ns with
    | none => simp
    | some shard =>
      by_cases hd : vector.dim = shard.dim <;> simp [hd]
  · exact fun hits h => answers_of_query hiter h

end Semisweet.Core.MemoryVectorStore
