import Semisweet.Core.CacheHistory

/-!
# Commits and deletes at once

`Cache::commit` writes the payload and then the index, `Cache::delete` looks its match up and
removes it from the index and then from the object store. Each is safe alone: there is no
index row without a payload at any point. Nothing orders the calls of one against those of
the other, and the write-behind runs them at once.

## The model

Any number of tasks on one namespace, each with one `commit` or `delete` at a time, interleaved
at the granularity of single calls on a store. All calls succeed.

## What is proved

* `commit_alone`, `delete_alone` — the steps of a task, with none between them, are
  `Cache::commit` and `Cache::delete`.
* `coherent_run` — if no commit and delete of one id overlap, an id that is being indexed has its
  payload, and one that is being removed has no index row.
* `stores_agree` — so, once all tasks are done, the stores agree; `dangling_row`, an index row
  without a payload.
-/

namespace Semisweet.Core

open Semisweet.Foundations

variable {R : Type} [Field R]

/-- What a task is doing. -/
inductive Task (R : Type) [Field R] where
  /-- Nothing. -/
  | idle
  /-- `commit`, before `object.put`. -/
  | putting (entry : VectorEntry R) (value : List UInt8)
  /-- `commit`, before `vector.upsert`. -/
  | indexing (entry : VectorEntry R)
  /-- `delete`, before `vector.query`. -/
  | finding (parts : Parts)
  /-- `delete`, before `vector.delete`. -/
  | unindexing (id : EntryId)
  /-- `delete`, before `object.delete`. -/
  | unstoring (id : EntryId)

/-- The id whose payload the task has put, and whose index row it has not written yet. -/
def Task.indexes : Task R → Option EntryId
  | .indexing entry => some entry.id
  | _ => none

/-- The id whose index row the task has removed, and whose payload it has not removed yet. -/
def Task.unstores : Task R → Option EntryId
  | .unstoring id => some id
  | _ => none

/-- The stores, and the tasks that work on them. -/
structure Shared (R : Type) [Field R] where
  /-- The stores. -/
  stores : Stores R
  /-- The tasks. -/
  task : ℕ → Task R

/-- Task `c` goes on to `x`, and leaves these stores. -/
def Shared.toTask (s : Shared R) (stores : Stores R) (c : ℕ) (x : Task R) : Shared R :=
  ⟨stores, Function.update s.task c x⟩

/-- What is done. -/
inductive TaskAction (R : Type) [Field R] where
  /-- `commit` is called. -/
  | commit (c : ℕ) (entry : VectorEntry R) (value : List UInt8)
  /-- `object.put`. -/
  | put (c : ℕ) (id : EntryId)
  /-- `vector.upsert`. -/
  | upsert (c : ℕ) (id : EntryId)
  /-- `delete` is called. -/
  | delete (c : ℕ) (parts : Parts)
  /-- `vector.query`, and the match. -/
  | find (c : ℕ) (found : Option EntryId)
  /-- `vector.delete`. -/
  | vectorDelete (c : ℕ) (id : EntryId)
  /-- `object.delete`. -/
  | objectDelete (c : ℕ) (id : EntryId)

variable (P : Platform R) (cache : Cache R) [LinearOrder R]

/-- One call on a store, or the beginning of a task. -/
inductive TaskStep : Shared R → TaskAction R → Shared R → Prop
  /-- A `commit` begins. -/
  | commit {s : Shared R} {c : ℕ} {entry : VectorEntry R} {value : List UInt8} :
      s.task c = .idle →
        TaskStep s (.commit c entry value) (s.toTask s.stores c (.putting entry value))
  /-- The payload is written. -/
  | put {s : Shared R} {c : ℕ} {entry : VectorEntry R} {value : List UInt8} :
      s.task c = .putting entry value →
        TaskStep s (.put c entry.id)
          (s.toTask { s.stores with object := s.stores.object.put cache.ns entry.id value } c
            (.indexing entry))
  /-- The index row is written. -/
  | upsert {s : Shared R} {c : ℕ} {entry : VectorEntry R} {vector : MemoryVectorStore R} :
      s.task c = .indexing entry → s.stores.vector.upsert P cache.ns entry = .ok vector →
        TaskStep s (.upsert c entry.id) (s.toTask { s.stores with vector := vector } c .idle)
  /-- A `delete` begins. -/
  | delete {s : Shared R} {c : ℕ} {parts : Parts} :
      s.task c = .idle → TaskStep s (.delete c parts) (s.toTask s.stores c (.finding parts))
  /-- There is a match. -/
  | found {s : Shared R} {c : ℕ} {parts : Parts} {iter : List (EntryId × VectorEntry R)}
      {hit : ScoredHit R} :
      s.task c = .finding parts → Enumerates iter (s.stores.vector.entries cache.ns) →
        cache.findMatch P s.stores iter parts = .ok (some hit) →
          TaskStep s (.find c (some hit.id)) (s.toTask s.stores c (.unindexing hit.id))
  /-- There is none. -/
  | unfound {s : Shared R} {c : ℕ} {parts : Parts} {iter : List (EntryId × VectorEntry R)} :
      s.task c = .finding parts → Enumerates iter (s.stores.vector.entries cache.ns) →
        cache.findMatch P s.stores iter parts = .ok none →
          TaskStep s (.find c none) (s.toTask s.stores c .idle)
  /-- The index row is removed. -/
  | vectorDelete {s : Shared R} {c : ℕ} {id : EntryId} :
      s.task c = .unindexing id →
        TaskStep s (.vectorDelete c id)
          (s.toTask { s.stores with vector := s.stores.vector.delete cache.ns id } c
            (.unstoring id))
  /-- The payload is removed. -/
  | objectDelete {s : Shared R} {c : ℕ} {id : EntryId} :
      s.task c = .unstoring id →
        TaskStep s (.objectDelete c id)
          (s.toTask { s.stores with object := s.stores.object.delete cache.ns id } c .idle)

omit [LinearOrder R] in
/-- The stores agree on the id: it has an index row if and only if it has a payload. -/
def Stores.Agree (s : Stores R) (ns : Namespace) (id : EntryId) : Prop :=
  s.vector.entries ns id ≠ none ↔ s.object ns id ≠ none

/-- The runs of tasks on stores that agree, under a condition on their steps. -/
def TaskRun (ok : Guard (Shared R) (TaskAction R)) (h : History (Shared R) (TaskAction R))
    (s : Shared R) : Prop :=
  ∃ stores : Stores R, (∀ id, stores.Agree cache.ns id) ∧
    Run (TaskStep P cache) ⟨stores, fun _ => .idle⟩ ok h s

variable {P cache} {s s' : Shared R} {a : TaskAction R} {h : History (Shared R) (TaskAction R)}
  {ok : Guard (Shared R) (TaskAction R)} {c : ℕ}

/-! ### A task alone -/

/-- **`commit`, alone**: its two steps in a row are `Cache::commit`. -/
theorem commit_alone {s₁ : Shared R} {entry : VectorEntry R} {value : List UInt8} {id : EntryId}
    (hc : s.task c = .putting entry value) (hput : TaskStep P cache s (.put c id) s₁)
    (hupsert : TaskStep P cache s₁ (.upsert c id) s') :
    cache.commit P s.stores entry value = (s'.stores, .ok ()) := by
  cases hput with
  | put hc' =>
    obtain ⟨rfl, rfl⟩ := Task.putting.inj (hc.symm.trans hc')
    generalize hid : entry.id = id at hupsert
    cases hupsert with
    | upsert hc₁ hups =>
      obtain rfl : entry = _ := by simpa [Shared.toTask] using hc₁
      have hups : s.stores.vector.upsert P cache.ns entry = .ok _ := hups
      simp only [Cache.commit, hups]
      rfl

/-- **`delete`, alone**: its three steps in a row are `Cache::delete`. -/
theorem delete_alone {s₁ s₂ : Shared R} {parts : Parts} {id : EntryId}
    (hc : s.task c = .finding parts) (hfind : TaskStep P cache s (.find c (some id)) s₁)
    (hvector : TaskStep P cache s₁ (.vectorDelete c id) s₂)
    (hobject : TaskStep P cache s₂ (.objectDelete c id) s') :
    ∃ iter, Enumerates iter (s.stores.vector.entries cache.ns) ∧
      cache.delete P s.stores iter parts = (s'.stores, .ok true) := by
  generalize hsome : some id = found at hfind
  cases hfind with
  | found hc' hiter hmatch =>
    obtain rfl := Option.some.inj hsome
    obtain rfl := Task.finding.inj (hc.symm.trans hc')
    cases hvector with
    | vectorDelete _ =>
      cases hobject with
      | objectDelete _ =>
        refine ⟨_, hiter, ?_⟩
        simp only [Cache.delete, hmatch]
        rfl
  | unfound _ _ _ => cases hsome

/-! ### Tasks at once -/

section Between

omit [LinearOrder R]

/-- A commit of the id is between its two calls. -/
def Shared.Indexing (s : Shared R) (id : EntryId) : Prop := ∃ c, (s.task c).indexes = some id

/-- A delete of the id is between its two calls. -/
def Shared.Unstoring (s : Shared R) (id : EntryId) : Prop := ∃ c, (s.task c).unstores = some id

/-- No commit and delete of one id overlap: a payload is not put while a delete of it is between
its two calls, and an index row not removed while a commit of it is. -/
def NoOverlap : Guard (Shared R) (TaskAction R) := fun _ s a =>
  (∀ c id, a = .put c id → ¬ s.Unstoring id) ∧ ∀ c id, a = .vectorDelete c id → ¬ s.Indexing id

/-- What is between its calls for the id after task `c` has gone on to `x`: the task itself, or who
was before. -/
theorem exists_of_update {task : ℕ → Task R} {x : Task R} {f : Task R → Option EntryId}
    {id : EntryId} (hx : ∃ c', f (Function.update task c x c') = some id) :
    f x = some id ∨ ∃ c', f (task c') = some id := by
  obtain ⟨c', hc'⟩ := hx
  by_cases hcc : c' = c
  · subst hcc
    rw [Function.update_self] at hc'
    exact .inl hc'
  · rw [Function.update_of_ne hcc] at hc'
    exact .inr ⟨c', hc'⟩

/-- Who was between its calls still is, unless it is task `c`. -/
theorem exists_update {task : ℕ → Task R} {x : Task R} {f : Task R → Option EntryId} {id : EntryId}
    (hc : f (task c) ≠ some id) (hf : ∃ c', f (task c') = some id) :
    ∃ c', f (Function.update task c x c') = some id := by
  obtain ⟨c', hc'⟩ := hf
  have hcc : c' ≠ c := by
    rintro rfl
    exact hc hc'
  exact ⟨c', by rwa [Function.update_of_ne hcc]⟩

/-- What the stores hold for an id, with these tasks. -/
structure Coherent (cache : Cache R) (s : Shared R) (id : EntryId) : Prop where
  /-- No commit and delete of it overlap. -/
  apart : s.Indexing id → ¬ s.Unstoring id
  /-- What is being indexed has its payload. -/
  stored : s.Indexing id → s.stores.object cache.ns id ≠ none
  /-- What is being removed has no index row. -/
  unindexed : s.Unstoring id → s.stores.vector.entries cache.ns id = none
  /-- What is neither is in both stores, or in none. -/
  agree : ¬ s.Indexing id → ¬ s.Unstoring id → s.stores.Agree cache.ns id

/-- A step that has nothing to do with the id. -/
theorem Coherent.quiet {id : EntryId} {stores : Stores R} {x : Task R} (hI : Coherent cache s id)
    (hobject : stores.object cache.ns id = s.stores.object cache.ns id)
    (hvector : stores.vector.entries cache.ns id = s.stores.vector.entries cache.ns id)
    (hbefore : (s.task c).indexes ≠ some id ∧ (s.task c).unstores ≠ some id)
    (hafter : x.indexes ≠ some id ∧ x.unstores ≠ some id) :
    Coherent cache (s.toTask stores c x) id := by
  have hindexing : (s.toTask stores c x).Indexing id → s.Indexing id := fun hx =>
    (exists_of_update hx).resolve_left hafter.1
  have hunstoring : (s.toTask stores c x).Unstoring id → s.Unstoring id := fun hx =>
    (exists_of_update hx).resolve_left hafter.2
  refine ⟨fun hx hy => hI.apart (hindexing hx) (hunstoring hy), fun hx => ?_, fun hx => ?_,
    fun hx hy => ?_⟩
  · exact hobject ▸ hI.stored (hindexing hx)
  · exact hvector ▸ hI.unindexed (hunstoring hx)
  · have hagree := hI.agree (fun h => hx (exists_update hbefore.1 h))
      fun h => hy (exists_update hbefore.2 h)
    simpa only [Stores.Agree, Shared.toTask, hobject, hvector] using hagree

end Between

/-- **Without overlap, every step leaves the stores coherent.** -/
theorem coherent_step {id : EntryId} (hI : Coherent cache s id) (hok : NoOverlap h s a)
    (hstep : TaskStep P cache s a s') : Coherent cache s' id := by
  cases hstep with
  | commit hc | delete hc | found hc _ _ | unfound hc _ _ =>
    exact hI.quiet rfl rfl (by simp [hc, Task.indexes, Task.unstores])
      (by simp [Task.indexes, Task.unstores])
  | @put c entry value hc =>
    by_cases hid : id = entry.id
    · -- nobody is removing the id, and now it has its payload
      subst hid
      have hno : ∀ y, ¬ (s.toTask y c (.indexing entry)).Unstoring entry.id := fun y hy =>
        hok.1 c entry.id rfl ((exists_of_update hy).resolve_left (by simp [Task.unstores]))
      refine ⟨fun _ => hno _, fun _ => ?_, fun hy => absurd hy (hno _), fun hx => ?_⟩
      · simp [Shared.toTask, ObjectStore.put]
      · exact absurd ⟨c, by simp [Shared.toTask, Task.indexes]⟩ hx
    · exact hI.quiet (by simp [ObjectStore.put, hid]) rfl
        (by simp [hc, Task.indexes, Task.unstores])
        (by simp [Task.indexes, Task.unstores, Ne.symm hid])
  | @upsert c entry vector hc hups =>
    have hentries := (MemoryVectorStore.upsert_eq_ok P hups).1
    by_cases hid : id = entry.id
    · -- its payload was there all along, and nobody is removing it
      subst hid
      have hindexing : s.Indexing entry.id := ⟨c, by simp [hc, Task.indexes]⟩
      have hno : ∀ y, ¬ (s.toTask y c .idle).Unstoring entry.id := fun y hy =>
        hI.apart hindexing ((exists_of_update hy).resolve_left (by simp [Task.unstores]))
      refine ⟨fun _ => hno _, fun _ => hI.stored hindexing, fun hy => absurd hy (hno _),
        fun _ _ => iff_of_true ?_ (hI.stored hindexing)⟩
      simp [Shared.toTask, hentries]
    · exact hI.quiet rfl (by simp [hentries, hid])
        (by simp [hc, Task.indexes, Task.unstores, Ne.symm hid])
        (by simp [Task.indexes, Task.unstores])
  | @vectorDelete c id₀ hc =>
    have hentries := (MemoryVectorStore.delete_spec s.stores.vector cache.ns id₀).1
    by_cases hid : id = id₀
    · -- nobody is indexing the id, and now it has no index row
      subst hid
      have hno : ∀ y, ¬ (s.toTask y c (.unstoring id)).Indexing id := fun y hx =>
        hok.2 c id rfl ((exists_of_update hx).resolve_left (by simp [Task.indexes]))
      refine ⟨fun hx => absurd hx (hno _), fun hx => absurd hx (hno _), fun _ => ?_, fun _ hy => ?_⟩
      · simp [Shared.toTask, hentries]
      · exact absurd ⟨c, by simp [Shared.toTask, Task.unstores]⟩ hy
    · exact hI.quiet rfl (by simp [hentries, hid])
        (by simp [hc, Task.indexes, Task.unstores])
        (by simp [Task.indexes, Task.unstores, Ne.symm hid])
  | @objectDelete c id₀ hc =>
    by_cases hid : id = id₀
    · -- its index row was gone all along, and nobody is indexing it
      subst hid
      have hunstoring : s.Unstoring id := ⟨c, by simp [hc, Task.unstores]⟩
      have hno : ∀ y, ¬ (s.toTask y c .idle).Indexing id := fun y hx =>
        hI.apart ((exists_of_update hx).resolve_left (by simp [Task.indexes])) hunstoring
      have hnone := hI.unindexed hunstoring
      refine ⟨fun hx => absurd hx (hno _), fun hx => absurd hx (hno _), fun _ => hnone,
        fun _ _ => iff_of_false (not_not_intro hnone) ?_⟩
      simp [Shared.toTask, ObjectStore.delete]
    · exact hI.quiet (by simp [ObjectStore.delete, hid]) rfl
        (by simp [hc, Task.indexes, Task.unstores, Ne.symm hid])
        (by simp [Task.indexes, Task.unstores])

theorem coherent_run (hrun : TaskRun P cache NoOverlap h s) (id : EntryId) :
    Coherent cache s id := by
  obtain ⟨stores, hagree, hrun⟩ := hrun
  refine hrun.invariant_state (I := fun s => Coherent cache s id)
    ⟨?_, ?_, ?_, fun _ _ => hagree id⟩ fun h s a s' hI hok hstep => ?_
  · rintro ⟨c, hc⟩
    cases hc
  · rintro ⟨c, hc⟩
    cases hc
  · rintro ⟨c, hc⟩
    cases hc
  · exact coherent_step hI hok hstep

/-- **When payload and index agree**: in every run in which no commit and delete of one id overlap,
once all tasks are done, an id has an index row if and only if it has a payload. -/
theorem stores_agree (hrun : TaskRun P cache NoOverlap h s) (hidle : ∀ c, s.task c = .idle)
    (id : EntryId) : s.stores.Agree cache.ns id := by
  refine (coherent_run hrun id).agree ?_ ?_
  all_goals
    rintro ⟨c, hc⟩
    rw [hidle c] at hc
    cases hc

namespace Sample

/-- The stores after `one` is set, and no task. -/
def settled : Shared ℚ := ⟨oneSet, fun _ => .idle⟩

theorem agree_one (id : EntryId) : oneSet.Agree small.ns id := by
  obtain ⟨entry, hprep, hups, hobject⟩ := small.set_eq_ok platform set_one
  have hid := (small.prepare_eq_ok platform hprep).1
  rw [Stores.Agree, hobject, (MemoryVectorStore.upsert_eq_ok platform hups).1, hid]
  by_cases heq : id = EntryId.derive platform.newV5 one
  · simp [heq, ObjectStore.put]
  · simp [heq, ObjectStore.put, empty, Stores.fresh, MemoryVectorStore.entries,
      MemoryVectorStore.new]

/-- Two tasks, and no others. -/
theorem forall_task {s : Shared ℚ} {Q : Task ℚ → Prop} (hidle : Q .idle) (h0 : Q (s.task 0))
    (h1 : Q (s.task 1)) (hrest : ∀ c, c ≠ 0 → c ≠ 1 → s.task c = .idle) (c : ℕ) :
    Q (s.task c) := by
  by_cases hc0 : c = 0
  · exact hc0 ▸ h0
  · by_cases hc1 : c = 1
    · exact hc1 ▸ h1
    · rw [hrest c hc0 hc1]
      exact hidle

/-- If neither of the two is between its calls, none is. -/
theorem not_exists_task {s : Shared ℚ} {f : Task ℚ → Option EntryId} {id : EntryId}
    (hidle : f .idle = none) (h0 : f (s.task 0) = none) (h1 : f (s.task 1) = none)
    (hrest : ∀ c, c ≠ 0 → c ≠ 1 → s.task c = .idle) : ¬ ∃ c, f (s.task c) = some id := by
  rintro ⟨c, hc⟩
  rw [forall_task (Q := fun x => f x = none) hidle h0 h1 hrest c] at hc
  cases hc

end Sample

/-- `one` is committed again and deleted, and the commit's two calls come before the delete's. -/
theorem stores_agree_one : ∃ (h : History (Shared ℚ) (TaskAction ℚ)) (s : Shared ℚ),
    TaskRun Sample.platform Sample.small NoOverlap h s ∧ h.length = 7 ∧
      ∀ id, s.stores.Agree Sample.small.ns id := by
  obtain ⟨hit, hfind, hid⟩ := Sample.small.exists_hit Sample.platform Sample.match_one
  have h₀ : Run (TaskStep Sample.platform Sample.small) Sample.settled NoOverlap [] _ := .start
  have h₁ := h₀.next (a := .commit 0 (Sample.entry Sample.one) [2]) (by simp [NoOverlap])
    (.commit rfl)
  have h₂ := h₁.next (a := .delete 1 Sample.one) (by simp [NoOverlap]) (.delete rfl)
  have h₃ := h₂.next (by simp [NoOverlap]) (.found (c := 1) rfl Sample.enumerates_one hfind)
  have h₄ := h₃.next ⟨fun _ _ _ => Sample.not_exists_task rfl rfl rfl fun c hc0 hc1 => by
    simp [Shared.toTask, Sample.settled, hc0, hc1], by simp⟩ (.put (c := 0) rfl)
  have h₅ := h₄.next (by simp [NoOverlap]) (.upsert (c := 0) rfl rfl)
  have h₆ := h₅.next ⟨by simp, fun _ _ _ => Sample.not_exists_task rfl rfl rfl fun c hc0 hc1 => by
    simp [Shared.toTask, Sample.settled, hc0, hc1]⟩ (.vectorDelete (c := 1) rfl)
  have h₇ := h₆.next (by simp [NoOverlap]) (.objectDelete (c := 1) rfl)
  refine ⟨_, _, ⟨_, Sample.agree_one, h₇⟩, rfl,
    stores_agree ⟨_, Sample.agree_one, h₇⟩
      (Sample.forall_task (Q := (· = .idle)) rfl rfl rfl fun c hc0 hc1 => ?_)⟩
  simp [Shared.toTask, Sample.settled, hc0, hc1]

/-- **A row may dangle**: a delete of `one` falls between the two calls of a commit of it. -/
theorem dangling_row :
    ¬ ∀ (h : History (Shared ℚ) (TaskAction ℚ)) (s : Shared ℚ),
      TaskRun Sample.platform Sample.small Always h s → (∀ c, s.task c = .idle) →
        ∀ id, s.stores.Agree Sample.small.ns id := by
  intro hall
  obtain ⟨hit, hfind, hid⟩ := Sample.small.exists_hit Sample.platform Sample.match_one
  obtain ⟨vector, hups⟩ : ∃ vector, (Sample.oneSet.vector.delete Sample.small.ns hit.id).upsert
      Sample.platform Sample.small.ns (Sample.entry Sample.one) = .ok vector := ⟨_, rfl⟩
  have h₀ : Run (TaskStep Sample.platform Sample.small) Sample.settled Always [] _ := .start
  have h₁ := h₀.next (a := .commit 0 (Sample.entry Sample.one) [2]) trivial (.commit rfl)
  have h₂ := h₁.next (a := .delete 1 Sample.one) trivial (.delete rfl)
  have h₃ := h₂.next trivial (.found (c := 1) rfl Sample.enumerates_one hfind)
  have h₄ := h₃.next trivial (.put (c := 0) rfl)
  have h₅ := h₄.next trivial (.vectorDelete (c := 1) rfl)
  have h₆ := h₅.next trivial (.objectDelete (c := 1) rfl)
  have h₇ := h₆.next trivial (.upsert (c := 0) rfl hups)
  have hagree := hall _ _ ⟨_, Sample.agree_one, h₇⟩
    (Sample.forall_task (Q := (· = .idle)) rfl rfl rfl fun c hc0 hc1 => ?_)
    (Sample.entry Sample.one).id
  · have hrow : vector.entries Sample.small.ns (Sample.entry Sample.one).id ≠ none := by
      simp [(MemoryVectorStore.upsert_eq_ok Sample.platform hups).1]
    refine hagree.mp hrow ?_
    simp [Shared.toTask, ObjectStore.delete, hid, Sample.entry]
  · simp [Shared.toTask, Sample.settled, hc0, hc1]

end Semisweet.Core
