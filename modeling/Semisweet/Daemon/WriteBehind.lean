import Semisweet.Core.Cache
import Semisweet.Foundations.Runs

/-!
# The write-behind queue

A `Set` is acknowledged before it is stored. Its handler records the value in a shadow
buffer and queues a job; worker threads drain the queue, and each drops its shadow once the
entry is durable. A `Get` reads the shadow first, and a `Del` removes it. This module is the
machine: `PendingWrites` (`src/daemon/state.rs`), `handle_get`, `handle_set` and
`handle_del` (`src/daemon/conn.rs`), and `WriteJob::run` and `WriteQueue`
(`src/daemon/writer.rs`), with `Cache::commit` and `Cache::delete` taken apart into their
calls on the stores.

## The model

* One daemon: any number of connections, each with the request its `message_loop` is
  handling, the workers, the bounded queue between them, and the shadow buffers and stores of
  all its namespaces. A slot is an id in a namespace.
* A shadow is an allocation. Two are the same if their addresses are, and a new one has an
  address no live allocation has. Each also carries the time it was made, which nothing in
  the code reads.
* Every call on a shadow buffer, on the queue and on a store is a step of its own, and steps
  of different connections and workers interleave in any order.
* `prepare` may fail or panic, and so may a call on a store, which may then have taken effect
  or not. A worker whose job panics is gone; a handler whose call fails answers an error.
* A similarity search finds any stored entry of the namespace, or none.
-/

namespace Semisweet.Daemon

open Semisweet.Core Semisweet.Foundations

/-- `WRITE_QUEUE_CAPACITY`. -/
def writeQueueCapacity : ℕ := 1024

/-- `WRITE_WORKERS`. -/
def writeWorkers : ℕ := 2

/-! ### The shadow buffer -/

/-- `Arc<[u8]>`. -/
structure Arc where
  /-- The address of the allocation. -/
  addr : ℕ
  /-- What it holds. -/
  bytes : List UInt8
  /-- When it was made. -/
  birth : ℕ
  deriving DecidableEq

/-- `Arc::ptr_eq`. -/
def Arc.ptrEq (self other : Arc) : Bool := self.addr == other.addr

/-- An id in a namespace. -/
abbrev Slot := Namespace × EntryId

/-- The `PendingWrites` of all namespaces. -/
abbrev PendingWrites := Slot → Option Arc

namespace PendingWrites

variable (self : PendingWrites) (slot : Slot) (value : Arc)

/-- `PendingWrites::insert`. -/
def insert : PendingWrites := Function.update self slot (some value)

/-- `PendingWrites::get`. -/
def get : Option Arc := self slot

/-- `PendingWrites::holds`. -/
def holds : Bool := (self slot).any fun current => current.ptrEq value

/-- `PendingWrites::remove`. -/
def remove : PendingWrites × Bool := (Function.update self slot none, (self slot).isSome)

/-- `PendingWrites::remove_if`. -/
def removeIf : PendingWrites × Bool :=
  if self.holds slot value then (Function.update self slot none, true) else (self, false)

variable {self slot value}

theorem holds_iff :
    self.holds slot value = true ↔ ∃ v, self slot = some v ∧ v.addr = value.addr := by
  unfold holds
  cases self slot with
  | none => simp
  | some v => simp [Arc.ptrEq]

/-- What was just inserted is held. -/
theorem holds_insert : (self.insert slot value).holds slot value = true :=
  holds_iff.mpr ⟨value, Function.update_self _ _ _, rfl⟩

theorem removeIf_of_holds (h : self.holds slot value = true) :
    (self.removeIf slot value).1 = Function.update self slot none := by
  simp [removeIf, h]

/-- What was just inserted is removed. -/
theorem removeIf_insert : ((self.insert slot value).removeIf slot value).1 slot = none := by
  rw [removeIf_of_holds holds_insert, Function.update_self]

theorem removeIf_of_not_holds (h : ¬ self.holds slot value = true) :
    (self.removeIf slot value).1 = self := by
  simp [removeIf, h]

/-- `remove_if` only removes, from the one slot. -/
theorem removeIf_eq_some {slot' : Slot} {v : Arc}
    (h : (self.removeIf slot value).1 slot' = some v) :
    self slot' = some v := by
  by_cases hh : self.holds slot value = true
  · rw [removeIf_of_holds hh, Function.update_apply] at h
    split at h
    · cases h
    · exact h
  · rwa [removeIf_of_not_holds hh] at h

/-- `remove` only removes. -/
theorem remove_eq_some {slot' : Slot} {v : Arc} (h : (self.remove slot).1 slot' = some v) :
    self slot' = some v := by
  simp only [remove, Function.update_apply] at h
  split at h
  · cases h
  · exact h

theorem removeIf_of_ne {slot' : Slot} (hne : slot' ≠ slot) :
    (self.removeIf slot value).1 slot' = self slot' := by
  by_cases hh : self.holds slot value = true
  · rw [removeIf_of_holds hh, Function.update_of_ne hne]
  · rw [removeIf_of_not_holds hh]

end PendingWrites

/-! ### Jobs, handlers and workers -/

variable {R : Type} [Field R]

/-- `WriteJob`. -/
structure WriteJob (newV5 : Uuid → List UInt8 → Uuid) where
  /-- The namespace of its cache and its shadow buffer. -/
  ns : Namespace
  /-- The id. -/
  id : EntryId
  /-- The query, the keys and the context. -/
  parts : Parts
  /-- The id is derived from them. -/
  id_eq : id = EntryId.derive newV5 parts
  /-- The value. -/
  value : Arc

variable {newV5 : Uuid → List UInt8 → Uuid}

/-- The slot of a job's shadow. -/
def WriteJob.slot (job : WriteJob newV5) : Slot := (job.ns, job.id)

/-- A job and what `prepare` made of it. -/
structure Prepared (R : Type) [Field R] (newV5 : Uuid → List UInt8 → Uuid) where
  /-- The job. -/
  job : WriteJob newV5
  /-- The entry to commit. -/
  entry : VectorEntry R
  /-- It has the job's id. -/
  id_eq : entry.id = job.id

/-- The slot `commit` writes. -/
def Prepared.slot (prepared : Prepared R newV5) : Slot := (prepared.job.ns, prepared.entry.id)

theorem Prepared.slot_eq (prepared : Prepared R newV5) : prepared.slot = prepared.job.slot := by
  simp [Prepared.slot, WriteJob.slot, prepared.id_eq]

/-- What `Cache::prepare` prepares for a job has the job's id. -/
def WriteJob.prepared (P : Platform R) (cache : Cache R) (job : WriteJob P.newV5)
    {entry : VectorEntry R} (h : cache.prepare P job.parts = .ok entry) : Prepared R P.newV5 :=
  ⟨job, entry, (cache.prepare_eq_ok P h).1.trans job.id_eq.symm⟩

/-- What a connection's `message_loop` is doing. -/
inductive Handler (newV5 : Uuid → List UInt8 → Uuid) where
  /-- Waiting for a request. -/
  | idle
  /-- `handle_set`, once the shadow is recorded. -/
  | shadowed (job : WriteJob newV5)
  /-- `handle_set`, once the queue was full. -/
  | rejected (job : WriteJob newV5)
  /-- `handle_get`, once there was no shadow. -/
  | searching (slot : Slot)
  /-- `handle_get`, once there is a match. -/
  | loading (slot : Slot)
  /-- `handle_del`, once the shadow is removed. -/
  | deleting (slot : Slot) (removed : Bool)
  /-- `handle_del`, once there is a match. -/
  | unindexing (slot : Slot) (removed : Bool)
  /-- `handle_del`, once the match is not indexed. -/
  | unstoring (slot : Slot) (removed : Bool)

/-- What a worker thread is doing. -/
inductive Worker (R : Type) [Field R] (newV5 : Uuid → List UInt8 → Uuid) where
  /-- Waiting for a job. -/
  | waiting
  /-- In `prepare`. -/
  | preparing (job : WriteJob newV5)
  /-- Before `holds`. -/
  | checking (prepared : Prepared R newV5)
  /-- In `commit`, before the payload is put. -/
  | putting (prepared : Prepared R newV5)
  /-- In `commit`, before the entry is upserted. -/
  | indexing (prepared : Prepared R newV5)
  /-- Before `remove_if`. -/
  | cleaning (job : WriteJob newV5)
  /-- Its job panicked. -/
  | dead

/-- The job of a handler that is executing a `Set`. -/
def Handler.job : Handler newV5 → Option (WriteJob newV5)
  | .shadowed job => some job
  | .rejected job => some job
  | _ => none

/-- The job a worker is running. -/
def Worker.job : Worker R newV5 → Option (WriteJob newV5)
  | .preparing job => some job
  | .checking prepared => some prepared.job
  | .putting prepared => some prepared.job
  | .indexing prepared => some prepared.job
  | .cleaning job => some job
  | _ => none

/-- The daemon, with workers `W`. -/
structure State (R : Type) [Field R] (newV5 : Uuid → List UInt8 → Uuid) (W : Type) where
  /-- The shadow buffers. -/
  pending : PendingWrites
  /-- The queue, oldest job first. -/
  queue : List (WriteJob newV5)
  /-- The connections. -/
  handler : ℕ → Handler newV5
  /-- The workers. -/
  worker : W → Worker R newV5
  /-- The object stores. -/
  object : Slot → Option (List UInt8)
  /-- The vector stores. -/
  vector : Slot → Option (VectorEntry R)
  /-- How many allocations were made. -/
  clock : ℕ

variable {W : Type}

/-- Nothing is in flight; the stores hold anything. -/
def State.init (object : Slot → Option (List UInt8)) (vector : Slot → Option (VectorEntry R)) :
    State R newV5 W :=
  ⟨fun _ => none, [], fun _ => .idle, fun _ => .waiting, object, vector, 0⟩

/-- Where a job is. -/
inductive Place (W : Type) where
  /-- With the handler of a connection. -/
  | conn (c : ℕ)
  /-- In the queue, this far back. -/
  | queued (i : ℕ)
  /-- With a worker. -/
  | worker (w : W)

/-- The job at a place. -/
def State.jobAt (s : State R newV5 W) : Place W → Option (WriteJob newV5)
  | .conn c => (s.handler c).job
  | .queued i => s.queue[i]?
  | .worker w => (s.worker w).job

/-- The address is of no live allocation. -/
def State.Fresh (s : State R newV5 W) (addr : ℕ) : Prop :=
  (∀ slot v, s.pending slot = some v → v.addr ≠ addr) ∧
    ∀ p job, s.jobAt p = some job → job.value.addr ≠ addr

/-- How a call ends. -/
inductive Outcome where
  /-- It succeeds. -/
  | ok
  /-- It returns an error. -/
  | error
  /-- It panics. -/
  | panic
  deriving DecidableEq

/-- A call on a store that succeeds has taken effect. -/
def Outcome.Allows (outcome : Outcome) (applied : Bool) : Prop := outcome = .ok → applied = true

/-- A worker whose job failed to prepare. -/
def Worker.unprepared : Outcome → Worker R newV5
  | .panic => .dead
  | _ => .waiting

/-- A worker after `put`. `commit` returns its error. -/
def Worker.afterPut (prepared : Prepared R newV5) : Outcome → Worker R newV5
  | .ok => .indexing prepared
  | .error => .cleaning prepared.job
  | .panic => .dead

/-- A worker after `upsert`. -/
def Worker.afterUpsert (prepared : Prepared R newV5) : Outcome → Worker R newV5
  | .panic => .dead
  | _ => .cleaning prepared.job

/-! ### The steps -/

/-- What is done. -/
inductive Action (newV5 : Uuid → List UInt8 → Uuid) (W : Type) where
  /-- `handle_set`: the shadow is recorded. -/
  | set (c : ℕ) (job : WriteJob newV5)
  /-- `try_push` succeeds: `Accepted(true)`. -/
  | push (c : ℕ) (job : WriteJob newV5)
  /-- `try_push` fails. -/
  | reject (c : ℕ) (job : WriteJob newV5)
  /-- The rejected shadow is dropped: `Accepted(false)`. -/
  | unshadow (c : ℕ) (job : WriteJob newV5)
  /-- `handle_get`: the shadow is served. -/
  | getHit (c : ℕ) (slot : Slot) (value : Arc)
  /-- `handle_get`: there is no shadow. -/
  | getMiss (c : ℕ) (slot : Slot)
  /-- `handle_get`: the search. -/
  | getFind (c : ℕ) (found : Option Slot)
  /-- `handle_get`: the payload. -/
  | getLoad (c : ℕ)
  /-- `handle_del`: the shadow is removed. -/
  | del (c : ℕ) (slot : Slot)
  /-- `handle_del`: the search. -/
  | delFind (c : ℕ) (found : Option Slot)
  /-- `handle_del`: the index. -/
  | delVector (c : ℕ) (slot : Slot) (outcome : Outcome)
  /-- `handle_del`: the payload. -/
  | delObject (c : ℕ) (slot : Slot) (outcome : Outcome)
  /-- A worker takes a job. -/
  | recv (w : W) (job : WriteJob newV5)
  /-- `prepare` ends. -/
  | prepare (w : W) (job : WriteJob newV5) (outcome : Outcome)
  /-- `holds`. -/
  | check (w : W) (job : WriteJob newV5)
  /-- The object store's `put` ends. -/
  | put (w : W) (job : WriteJob newV5) (outcome : Outcome)
  /-- The vector store's `upsert` ends. -/
  | upsert (w : W) (job : WriteJob newV5) (outcome : Outcome)
  /-- `remove_if`: the job is done. -/
  | cleanup (w : W) (job : WriteJob newV5)

section Handlers

variable (s : State R newV5 W) (c : ℕ) (x : Handler newV5)

/-- Connection `c` goes on to `x`. -/
def State.toHandler : State R newV5 W := { s with handler := Function.update s.handler c x }

@[simp] theorem State.toHandler_pending : (s.toHandler c x).pending = s.pending := rfl

@[simp] theorem State.toHandler_worker : (s.toHandler c x).worker = s.worker := rfl

@[simp] theorem State.toHandler_object : (s.toHandler c x).object = s.object := rfl

@[simp] theorem State.toHandler_vector : (s.toHandler c x).vector = s.vector := rfl

@[simp] theorem State.toHandler_clock : (s.toHandler c x).clock = s.clock := rfl

@[simp] theorem State.toHandler_toHandler (y : Handler newV5) :
    (s.toHandler c x).toHandler c y = s.toHandler c y := by
  simp [State.toHandler]

@[simp] theorem State.jobAt_toHandler_self : (s.toHandler c x).jobAt (.conn c) = x.job := by
  simp [State.jobAt, State.toHandler]

theorem State.jobAt_toHandler_of_ne {p : Place W} (hne : p ≠ .conn c) :
    (s.toHandler c x).jobAt p = s.jobAt p := by
  cases p with
  | conn c' =>
    have : c' ≠ c := fun h => hne (h ▸ rfl)
    simp [State.jobAt, State.toHandler, Function.update_of_ne this]
  | queued i => rfl
  | worker w => rfl

end Handlers

section Workers

variable [DecidableEq W] (s : State R newV5 W) (w : W) (y : Worker R newV5)

/-- Worker `w` goes on to `y`. -/
def State.toWorker : State R newV5 W := { s with worker := Function.update s.worker w y }

@[simp] theorem State.toWorker_pending : (s.toWorker w y).pending = s.pending := rfl

@[simp] theorem State.toWorker_handler : (s.toWorker w y).handler = s.handler := rfl

@[simp] theorem State.toWorker_object : (s.toWorker w y).object = s.object := rfl

@[simp] theorem State.toWorker_vector : (s.toWorker w y).vector = s.vector := rfl

@[simp] theorem State.toWorker_clock : (s.toWorker w y).clock = s.clock := rfl

@[simp] theorem State.toWorker_toWorker (z : Worker R newV5) :
    (s.toWorker w y).toWorker w z = s.toWorker w z := by
  simp [State.toWorker]

theorem State.toWorker_worker (w' : W) :
    (s.toWorker w y).worker w' = if w' = w then y else s.worker w' :=
  Function.update_apply _ _ _ _

@[simp] theorem State.jobAt_toWorker_self : (s.toWorker w y).jobAt (.worker w) = y.job := by
  simp [State.jobAt, State.toWorker]

theorem State.jobAt_toWorker_of_ne {p : Place W} (hne : p ≠ .worker w) :
    (s.toWorker w y).jobAt p = s.jobAt p := by
  cases p with
  | conn c => rfl
  | queued i => rfl
  | worker w' =>
    have : w' ≠ w := fun h => hne (h ▸ rfl)
    simp [State.jobAt, State.toWorker, Function.update_of_ne this]

end Workers

variable [DecidableEq W] (capacity : ℕ)

/-- One step of a connection or a worker. -/
inductive Step : State R newV5 W → Action newV5 W → State R newV5 W → Prop
  /-- `pending.insert`, of a new allocation. -/
  | set {s : State R newV5 W} {c : ℕ} {job : WriteJob newV5} :
      s.handler c = .idle → s.Fresh job.value.addr → job.value.birth = s.clock →
        Step s (.set c job)
          ({ s with pending := s.pending.insert job.slot job.value
                    clock := s.clock + 1 }.toHandler c (.shadowed job))
  /-- There is room in the queue. -/
  | push {s : State R newV5 W} {c : ℕ} {job : WriteJob newV5} :
      s.handler c = .shadowed job → s.queue.length < capacity →
        Step s (.push c job) ({ s with queue := s.queue ++ [job] }.toHandler c .idle)
  /-- The queue is full. -/
  | reject {s : State R newV5 W} {c : ℕ} {job : WriteJob newV5} :
      s.handler c = .shadowed job → capacity ≤ s.queue.length →
        Step s (.reject c job) (s.toHandler c (.rejected job))
  /-- `pending.remove_if`. -/
  | unshadow {s : State R newV5 W} {c : ℕ} {job : WriteJob newV5} :
      s.handler c = .rejected job → Step s (.unshadow c job)
        ({ s with pending := (s.pending.removeIf job.slot job.value).1 }.toHandler c .idle)
  /-- `pending.get` returns a value. -/
  | getHit {s : State R newV5 W} {c : ℕ} {slot : Slot} {value : Arc} :
      s.handler c = .idle → s.pending.get slot = some value → Step s (.getHit c slot value) s
  /-- `pending.get` returns nothing. -/
  | getMiss {s : State R newV5 W} {c : ℕ} {slot : Slot} :
      s.handler c = .idle → s.pending.get slot = none →
        Step s (.getMiss c slot) (s.toHandler c (.searching slot))
  /-- `find_match` returns a stored entry of the namespace, or none. -/
  | getFind {s : State R newV5 W} {c : ℕ} {slot : Slot} {found : Option Slot} :
      s.handler c = .searching slot → (∀ m, found = some m → m.1 = slot.1 ∧ s.vector m ≠ none) →
        Step s (.getFind c found) (s.toHandler c (found.elim .idle .loading))
  /-- `object.get`. -/
  | getLoad {s : State R newV5 W} {c : ℕ} {slot : Slot} :
      s.handler c = .loading slot → Step s (.getLoad c) (s.toHandler c .idle)
  /-- `pending.remove`. -/
  | del {s : State R newV5 W} {c : ℕ} {slot : Slot} :
      s.handler c = .idle → Step s (.del c slot)
        ({ s with pending := (s.pending.remove slot).1 }.toHandler c
          (.deleting slot (s.pending.remove slot).2))
  /-- `find_match` returns a stored entry of the namespace, or none. -/
  | delFind {s : State R newV5 W} {c : ℕ} {slot : Slot} {removed : Bool} {found : Option Slot} :
      s.handler c = .deleting slot removed →
        (∀ m, found = some m → m.1 = slot.1 ∧ s.vector m ≠ none) →
        Step s (.delFind c found) (s.toHandler c (found.elim .idle fun m => .unindexing m removed))
  /-- `vector.delete`. -/
  | delVector {s : State R newV5 W} {c : ℕ} {slot : Slot} {removed applied : Bool}
      {outcome : Outcome} :
      s.handler c = .unindexing slot removed → outcome.Allows applied →
        Step s (.delVector c slot outcome)
          ({ s with vector := if applied then Function.update s.vector slot none
                              else s.vector }.toHandler c
            (if outcome = Outcome.ok then .unstoring slot removed else .idle))
  /-- `object.delete`. -/
  | delObject {s : State R newV5 W} {c : ℕ} {slot : Slot} {removed applied : Bool}
      {outcome : Outcome} :
      s.handler c = .unstoring slot removed → outcome.Allows applied →
        Step s (.delObject c slot outcome)
          ({ s with object := if applied then Function.update s.object slot none
                              else s.object }.toHandler c .idle)
  /-- `receiver.recv`. -/
  | recv {s : State R newV5 W} {w : W} {job : WriteJob newV5} {rest : List (WriteJob newV5)} :
      s.worker w = .waiting → s.queue = job :: rest →
        Step s (.recv w job) ({ s with queue := rest }.toWorker w (.preparing job))
  /-- `prepare` succeeds. -/
  | prepared {s : State R newV5 W} {w : W} {prepared : Prepared R newV5} :
      s.worker w = .preparing prepared.job →
        Step s (.prepare w prepared.job .ok) (s.toWorker w (.checking prepared))
  /-- `prepare` does not succeed: the job ends here. -/
  | unprepared {s : State R newV5 W} {w : W} {job : WriteJob newV5} {outcome : Outcome} :
      s.worker w = .preparing job → outcome ≠ .ok →
        Step s (.prepare w job outcome) (s.toWorker w (.unprepared outcome))
  /-- `pending.holds`: if not, the job ends here. -/
  | check {s : State R newV5 W} {w : W} {prepared : Prepared R newV5} :
      s.worker w = .checking prepared → Step s (.check w prepared.job)
        (s.toWorker w (if s.pending.holds prepared.job.slot prepared.job.value
          then .putting prepared else .waiting))
  /-- `object.put`. -/
  | put {s : State R newV5 W} {w : W} {prepared : Prepared R newV5} {outcome : Outcome}
      {applied : Bool} :
      s.worker w = .putting prepared → outcome.Allows applied →
        Step s (.put w prepared.job outcome)
          ({ s with object := if applied then Function.update s.object prepared.slot
                                (some prepared.job.value.bytes)
                              else s.object }.toWorker w (.afterPut prepared outcome))
  /-- `vector.upsert`. -/
  | upsert {s : State R newV5 W} {w : W} {prepared : Prepared R newV5} {outcome : Outcome}
      {applied : Bool} :
      s.worker w = .indexing prepared → outcome.Allows applied →
        Step s (.upsert w prepared.job outcome)
          ({ s with vector := if applied then Function.update s.vector prepared.slot
                                (some prepared.entry)
                              else s.vector }.toWorker w (.afterUpsert prepared outcome))
  /-- `pending.remove_if`. -/
  | cleanup {s : State R newV5 W} {w : W} {job : WriteJob newV5} :
      s.worker w = .cleaning job → Step s (.cleanup w job)
        ({ s with pending := (s.pending.removeIf job.slot job.value).1 }.toWorker w .waiting)

/-- The runs of a daemon whose stores start with anything, under a condition on their steps. -/
def DaemonRun (ok : Guard (State R newV5 W) (Action newV5 W))
    (h : History (State R newV5 W) (Action newV5 W)) (s : State R newV5 W) : Prop :=
  ∃ object vector, Run (Step capacity) (State.init object vector) ok h s

variable {capacity}

theorem DaemonRun.mono {ok ok' : Guard (State R newV5 W) (Action newV5 W)}
    {h : History (State R newV5 W) (Action newV5 W)} {s : State R newV5 W}
    (hle : ∀ h s a, ok h s a → ok' h s a) (hrun : DaemonRun capacity ok h s) :
    DaemonRun capacity ok' h s := by
  obtain ⟨object, vector, hrun⟩ := hrun
  exact ⟨object, vector, hrun.mono fun h s a _ _ hok _ => hle h s a hok⟩

end Semisweet.Daemon
