import Semisweet.Core.CacheHistory

/-!
# The cache over backends that fail

Any call of a backend may fail. A call of a store that fails may have taken effect all the
same, when only its answer was lost, and the code cannot tell. `Cache` (`src/cache.rs`)
orders its writes so that the vector store never has an entry whose payload is missing:
`commit` puts the payload before it upserts the entry, `delete` deletes the entry before it
deletes the payload, and either stops at the first error.

## The model

The extractor and the embedder answer each call as they like, or fail. A `Fault` says how a
call of a store goes: it may answer, and for an `upsert` the answer may be an error of its
own; it may be refused with no effect; or it may take its full effect and report an error.
The calls are the operations of `Semisweet.Core.Cache`, with the faults of each call of a
store along the way.

## What is proved

* `commitFaulty_none`, `deleteFaulty_none` — without faults these are the operations of the cache.
* `Fault.attempt_cases` — what a call of a store can do.
* `noDangling_step`, `no_dangling_row` — after every call, successful or not, every id of the
  vector store has a payload in the object store.
-/

namespace Semisweet.Core

open Semisweet.Foundations

/-- How a call of a store goes. -/
inductive Fault where
  /-- It answers. -/
  | none
  /-- It fails with no effect. -/
  | refused (e : Error)
  /-- It takes effect, and fails. -/
  | lost (e : Error)

/-- A call of a store that goes as the fault says. -/
def Fault.attempt {σ : Type} (fault : Fault) (call : σ → Except Error σ) (s : σ) :
    σ × Except Error Unit :=
  match fault, call s with
  | .none, .ok s' => (s', .ok ())
  | .none, .error e => (s, .error e)
  | .refused e, _ => (s, .error e)
  | .lost e, .ok s' => (s', .error e)
  | .lost e, .error _ => (s, .error e)

/-- **What a call of a store can do**: it has no effect or its full effect, and if it succeeds it
has its effect. -/
theorem Fault.attempt_cases {σ : Type} {fault : Fault} {call : σ → Except Error σ} {s s' : σ}
    {r : Except Error Unit} (h : fault.attempt call s = (s', r)) :
    (s' = s ∨ call s = .ok s') ∧ (r = .ok () → call s = .ok s') := by
  unfold attempt at h
  split at h <;> rw [Prod.mk.injEq] at h <;> obtain ⟨rfl, rfl⟩ := h
  · rename_i hcall
    exact ⟨.inr hcall, fun _ => hcall⟩
  · exact ⟨.inl rfl, by simp⟩
  · exact ⟨.inl rfl, by simp⟩
  · rename_i hcall
    exact ⟨.inr hcall, by simp⟩
  · exact ⟨.inl rfl, by simp⟩

/-- The faults of the calls of the stores along an operation. -/
structure Faults where
  /-- Of `ObjectStorageBackend::put`. -/
  put : Fault
  /-- Of `VectorStorageBackend::upsert`. -/
  upsert : Fault
  /-- Of `VectorStorageBackend::query`, which has no effect. -/
  query : Option Error
  /-- Of `VectorStorageBackend::delete`. -/
  vectorDelete : Fault
  /-- Of `ObjectStorageBackend::delete`. -/
  objectDelete : Fault

/-- Nothing goes wrong. -/
def Faults.none : Faults := ⟨.none, .none, Option.none, .none, .none⟩

variable {R : Type} [Field R]

namespace Cache

variable (P : Platform R) (self : Cache R) (faults : Faults)

/-- `Cache::commit`. -/
def commitFaulty (s : Stores R) (entry : VectorEntry R) (value : List UInt8) :
    Stores R × Except Error Unit :=
  match faults.put.attempt (fun object => .ok (object.put self.ns entry.id value)) s.object with
  | (object, .error e) => (⟨s.vector, object⟩, .error e)
  | (object, .ok ()) =>
    match faults.upsert.attempt (fun vector => vector.upsert P self.ns entry) s.vector with
    | (vector, answer) => (⟨vector, object⟩, answer)

/-- `Cache::set`. -/
def setFaulty (s : Stores R) (parts : Parts) (value : List UInt8) : Stores R × Except Error Unit :=
  match self.prepare P parts with
  | .ok entry => self.commitFaulty P faults s entry value
  | .error e => (s, .error e)

variable [LinearOrder R]

/-- `Cache::find_match`. -/
def findMatchFaulty (s : Stores R) (iter : List (EntryId × VectorEntry R)) (parts : Parts) :
    Except Error (Option (ScoredHit R)) := do
  let entities ← self.extractEntities parts true
  let embedding ← self.embedQuery parts.query.asStr
  let answer := s.vector.query P iter self.ns embedding parts.context
    (self.filterOf parts entities) self.scoring.topK
  let hits ← (faults.query.elim answer Except.error)
  .ok (self.scoring.select entities parts.context hits)

/-- `Cache::delete`. -/
def deleteFaulty (s : Stores R) (iter : List (EntryId × VectorEntry R)) (parts : Parts) :
    Stores R × Except Error Bool :=
  match self.findMatchFaulty P faults s iter parts with
  | .error e => (s, .error e)
  | .ok none => (s, .ok false)
  | .ok (some hit) =>
    match faults.vectorDelete.attempt (fun vector => .ok (vector.delete self.ns hit.id))
      s.vector with
    | (vector, .error e) => (⟨vector, s.object⟩, .error e)
    | (vector, .ok ()) =>
      match faults.objectDelete.attempt (fun object => .ok (object.delete self.ns hit.id))
        s.object with
      | (object, .error e) => (⟨vector, object⟩, .error e)
      | (object, .ok ()) => (⟨vector, object⟩, .ok true)

/-! ### Without faults -/

variable {P self}

omit [LinearOrder R] in
/-- Where nothing goes wrong, `commit` is the `commit` of the cache. -/
theorem commitFaulty_none (s : Stores R) (entry : VectorEntry R) (value : List UInt8) :
    self.commitFaulty P .none s entry value = self.commit P s entry value := by
  unfold commitFaulty commit
  simp only [Faults.none, Fault.attempt]
  cases s.vector.upsert P self.ns entry <;> rfl

/-- Where nothing goes wrong, `delete` is the `delete` of the cache. -/
theorem deleteFaulty_none (s : Stores R) (iter : List (EntryId × VectorEntry R)) (parts : Parts) :
    self.deleteFaulty P .none s iter parts = self.delete P s iter parts := by
  have hfind : self.findMatchFaulty P .none s iter parts = self.findMatch P s iter parts := rfl
  unfold deleteFaulty delete
  rw [hfind]
  rcases self.findMatch P s iter parts with e | _ | hit <;> rfl

/-- Where its two deletes do not fail, a `delete` that fails has not reached them. -/
theorem deleteFaulty_eq_error {s stores : Stores R} {iter : List (EntryId × VectorEntry R)}
    {parts : Parts} {faults : Faults} {e : Error} (hvector : faults.vectorDelete = .none)
    (hobject : faults.objectDelete = .none)
    (h : self.deleteFaulty P faults s iter parts = (stores, .error e)) : stores = s := by
  unfold deleteFaulty at h
  rw [hvector, hobject] at h
  simp only [Fault.attempt] at h
  split at h
  · exact (Prod.mk.inj h).1.symm
  · cases h
  · cases h

end Cache

/-! ### Calls -/

/-- An operation of a cache. -/
inductive CacheOp (R : Type) [Field R] where
  /-- `Cache::set`. -/
  | set (parts : Parts) (value : List UInt8)
  /-- `Cache::commit`. -/
  | commit (entry : VectorEntry R) (value : List UInt8)
  /-- `Cache::delete`, going through the entries in the order `iter`. -/
  | delete (parts : Parts) (iter : List (EntryId × VectorEntry R))

/-- A call: the operation, and how the backends behave while it runs. -/
structure FaultyCall (R : Type) [Field R] where
  /-- The operation. -/
  op : CacheOp R
  /-- What the extractor answers. -/
  extract : String → Bool → Except Error (Finset Entity)
  /-- What the embedder answers. -/
  embedQuery : String → Except Error (Embedding R)
  /-- What goes wrong with the stores. -/
  faults : Faults

variable [LinearOrder R] (P : Platform R) (cache : Cache R)

/-- The stores a call leaves, whatever it returns. -/
def FaultyCall.run (s : Stores R) (call : FaultyCall R) : Stores R :=
  let self : Cache R := { cache with extract := call.extract, embedQuery := call.embedQuery }
  match call.op with
  | .set parts value => (self.setFaulty P call.faults s parts value).1
  | .commit entry value => (self.commitFaulty P call.faults s entry value).1
  | .delete parts iter => (self.deleteFaulty P call.faults s iter parts).1

/-- The stores that calls lead to, from an empty vector store. -/
def afterCalls (object : ObjectStore) (calls : List (FaultyCall R)) : Stores R :=
  calls.foldl (FaultyCall.run P cache) (Stores.fresh object)

/-- **No dangling row**: every id of the vector store has a payload in the object store. -/
def NoDangling (ns : Namespace) (s : Stores R) : Prop :=
  ∀ id, s.vector.entries ns id ≠ none → s.object ns id ≠ none

variable {P cache} {self : Cache R} {faults : Faults} {s : Stores R}

omit [LinearOrder R] in
/-- A put, with or without effect, leaves every payload there. -/
theorem put_ne_none {ns : Namespace} {fault : Fault} {object object' : ObjectStore}
    {id : EntryId} {value : List UInt8} {r : Except Error Unit}
    (h : fault.attempt (fun object => .ok (object.put ns id value)) object = (object', r)) :
    (∀ id', object ns id' ≠ none → object' ns id' ≠ none) ∧
      (r = .ok () → object' ns id ≠ none) := by
  obtain ⟨heff, hok⟩ := Fault.attempt_cases h
  constructor
  · intro id' hid'
    rcases heff with rfl | heff
    · exact hid'
    · simp only [Except.ok.injEq] at heff
      subst heff
      by_cases hid : id' = id <;> simp [ObjectStore.put, hid, hid']
  · intro hr
    have := hok hr
    simp only [Except.ok.injEq] at this
    simp [← this, ObjectStore.put]

omit [LinearOrder R] in
/-- `commit` upserts nothing but what has its payload. -/
theorem noDangling_commit (h : NoDangling self.ns s) (entry : VectorEntry R) (value : List UInt8) :
    NoDangling self.ns (self.commitFaulty P faults s entry value).1 := by
  unfold Cache.commitFaulty
  split
  · rename_i object e hput
    intro id hid
    exact (put_ne_none hput).1 id (h id hid)
  · rename_i object hput
    obtain ⟨hkeep, hnew⟩ := put_ne_none hput
    split
    rename_i vector answer hups
    intro id hid
    rcases (Fault.attempt_cases hups).1 with rfl | heff
    · exact hkeep id (h id hid)
    · by_cases heq : id = entry.id
      · subst heq
        exact hnew rfl
      · simp only [(MemoryVectorStore.upsert_eq_ok P heff).1, Function.update_of_ne heq] at hid
        exact hkeep id (h id hid)

omit [LinearOrder R] in
/-- `set` prepares, and then commits. -/
theorem noDangling_set (h : NoDangling self.ns s) (parts : Parts) (value : List UInt8) :
    NoDangling self.ns (self.setFaulty P faults s parts value).1 := by
  unfold Cache.setFaulty
  split
  · exact noDangling_commit h _ value
  · exact h

omit [LinearOrder R] in
/-- What is left of the entries after one of them is deleted. -/
theorem entries_of_delete {ns : Namespace} {vector vector' : MemoryVectorStore R} {id id' : EntryId}
    (h : (Except.ok (vector.delete ns id) : Except Error (MemoryVectorStore R)) = .ok vector')
    (hid : vector'.entries ns id' ≠ none) : id' ≠ id ∧ vector.entries ns id' ≠ none := by
  simp only [Except.ok.injEq] at h
  subst h
  rw [(MemoryVectorStore.delete_spec vector ns id).1] at hid
  by_cases heq : id' = id
  · simp [heq] at hid
  · exact ⟨heq, by simpa [heq] using hid⟩

/-- `delete` deletes no payload but of an id it has deleted from the vector store. -/
theorem noDangling_delete (h : NoDangling self.ns s) (iter : List (EntryId × VectorEntry R))
    (parts : Parts) :
    NoDangling self.ns (self.deleteFaulty P faults s iter parts).1 := by
  unfold Cache.deleteFaulty
  split
  · exact h
  · exact h
  · rename_i hit _
    split
    · rename_i vector e hdelete
      intro id hid
      rcases (Fault.attempt_cases hdelete).1 with rfl | heff
      · exact h id hid
      · exact h id (entries_of_delete heff hid).2
    · rename_i vector hdelete
      have hgone := (Fault.attempt_cases hdelete).2 rfl
      have hobject : ∀ object r, faults.objectDelete.attempt
          (fun object => .ok (object.delete self.ns hit.id)) s.object = (object, r) →
            NoDangling self.ns ⟨vector, object⟩ := by
        intro object r hdel id hid
        obtain ⟨hne, hbefore⟩ := entries_of_delete hgone hid
        rcases (Fault.attempt_cases hdel).1 with rfl | heff
        · exact h id hbefore
        · simp only [Except.ok.injEq] at heff
          simpa [← heff, ObjectStore.delete, hne] using h id hbefore
      split
      · exact hobject _ _ ‹_›
      · exact hobject _ _ ‹_›

/-- **A call leaves no dangling row.** -/
theorem noDangling_step (h : NoDangling cache.ns s) (call : FaultyCall R) :
    NoDangling cache.ns (call.run P cache s) := by
  unfold FaultyCall.run
  -- The backends of the call are the cache's but for what they answer.
  set self : Cache R := { cache with extract := call.extract, embedQuery := call.embedQuery }
  have h : NoDangling self.ns s := h
  show NoDangling self.ns _
  cases call.op with
  | set parts value => exact noDangling_set h parts value
  | commit entry value => exact noDangling_commit h entry value
  | delete parts iter => exact noDangling_delete h iter parts

/-- **No dangling row under failures**: after every one of any calls, however the backends
behave. -/
theorem no_dangling_row (P : Platform R) (cache : Cache R) (object : ObjectStore)
    (calls : List (FaultyCall R)) (n : ℕ) :
    NoDangling cache.ns (afterCalls P cache object (calls.take n)) := by
  generalize calls.take n = calls
  induction calls using List.reverseRecOn with
  | nil =>
    intro id hid
    exact absurd rfl hid
  | append_singleton calls call ih =>
    rw [afterCalls, List.foldl_append]
    exact noDangling_step ih call

end Semisweet.Core
