import Semisweet.Core.Faults
import Semisweet.Daemon.WriteBehind
import Semisweet.Daemon.Registry

/-!
# One namespace and another

`handle_register` keys the registry by the name of the request, as it is; `build_cache` makes
a `Namespace` of the name, trimmed, and that is what the disk store files an object under
(`src/daemon/conn.rs`, `src/registry.rs`). Each name has a vector store and a shadow buffer of its
own; the disk is shared. So requests that name one namespace leave the responses to another alone,
unless the two names trim to the same text.

## The model

One daemon, with in-memory vector stores, and disk stores under one root: any number of connections
and workers, each with what it is doing, and the queue between them. Every call on the registry, on
a shadow buffer, on the queue and on a store is a step of its own, and steps of different
connections and workers interleave in any order.

A step is made for a name, by a connection or a worker: `react` is what it does, from the entry of
the name and the state of the task, with at most one call on the disk. What the environment decides
is in the action: the order in which a store's entries are visited, the address of an allocation,
and which calls fail. `register` is one step, since the build lock makes a namespace's registration
one (`Semisweet.Daemon.Registry`). A push needs room in the queue; whether one is refused is left
open, so that what a full queue does is left out.

## What is proved

* `Agrees` — the states of a run and of the run without the requests of one name: they differ in
  that name's entry, jobs and tasks, and in its namespace on the disk.
* `agrees_other`, `agrees_own` — a step of another name is made in both, and a step of the name
  itself is only made in one.
* `namespaces_isolated` — the responses to a name are the same with and without the requests of
  another, if the two are different when trimmed; `namespaces_alias`, two names that are not.
-/

namespace Semisweet.Daemon

open Semisweet.Core Semisweet.Foundations Semisweet.Protocol

variable {R : Type} [Field R]

/-! ### The machine -/

/-- `NamespaceEntry`: the cache with its vector store, and the shadow buffer. -/
structure NamespaceEntry (R : Type) [Field R] where
  /-- The cache. -/
  cache : Cache R
  /-- Its vector store. -/
  vector : MemoryVectorStore R
  /-- The shadow buffer, of which the slots of the cache's namespace are used. -/
  pending : PendingWrites

/-- What `build_cache` builds from a configuration, beside the namespace. -/
structure Backends (R : Type) [Field R] where
  /-- `EntityBackend::extract`. -/
  extract : String → Bool → Except Error (Finset Entity)
  /-- `EmbeddingBackend::embed_query`. -/
  embedQuery : String → Except Error (Embedding R)
  /-- The scoring configuration. -/
  scoring : ScoringConfig R

/-- `build_cache`. -/
def buildCache (name : String) (backends : Except Error (Backends R)) : Except Error (Cache R) := do
  let ns ← Namespace.new name
  let backends ← backends
  .ok ⟨ns, backends.extract, backends.embedQuery, backends.scoring⟩

/-- A `WriteJob`, by the name its entry is registered under. -/
structure NamedJob where
  /-- The name. -/
  name : String
  /-- The query, the keys and the context. -/
  parts : Parts
  /-- The value. -/
  value : Arc

/-- What a connection or a worker is doing, and for which name. -/
inductive Task (R : Type) [Field R] where
  /-- Waiting for a request, or for a job. -/
  | idle
  /-- `handle_set`, once the shadow is recorded. -/
  | shadowed (job : NamedJob)
  /-- `handle_set`, once the queue was full. -/
  | rejected (job : NamedJob)
  /-- `handle_get`, once there was no shadow. -/
  | searching (name : String) (parts : Parts)
  /-- `handle_get`, once there is a match. -/
  | loading (name : String) (id : EntryId)
  /-- `handle_del`, once the shadow is removed. -/
  | deleting (name : String) (parts : Parts) (removed : Bool)
  /-- `handle_del`, once there is a match. -/
  | unindexing (name : String) (id : EntryId)
  /-- `handle_del`, once the match is not indexed. -/
  | unstoring (name : String) (id : EntryId)
  /-- `WriteJob::run`, in `prepare`. -/
  | preparing (job : NamedJob)
  /-- `WriteJob::run`, before `holds`. -/
  | checking (job : NamedJob) (entry : VectorEntry R)
  /-- `WriteJob::run`, before the payload is put. -/
  | putting (job : NamedJob) (entry : VectorEntry R)
  /-- `WriteJob::run`, before the entry is upserted. -/
  | indexing (job : NamedJob) (entry : VectorEntry R)
  /-- `WriteJob::run`, before `remove_if`. -/
  | cleaning (job : NamedJob)
  /-- It panicked. -/
  | dead (name : String)

/-- The name it is about. -/
def Task.name : Task R → Option String
  | .idle => none
  | .shadowed job | .rejected job | .preparing job | .checking job _ | .putting job _
  | .indexing job _ | .cleaning job => some job.name
  | .searching name _ | .loading name _ | .deleting name _ _ | .unindexing name _
  | .unstoring name _ | .dead name => some name

/-- What a connection or a worker does next, with what the environment decides of it. -/
inductive Op (R : Type) [Field R] where
  /-- `handle_register`: what the configuration parses to, and what is built from it. -/
  | register (config : Except String (Except Error (Backends R)))
  /-- `handle_set`: the shadow is recorded. -/
  | set (query : String) (keys : List String) (context : Option String) (value : Arc)
  /-- `try_push` fails. -/
  | reject
  /-- The rejected shadow is dropped. -/
  | unshadow
  /-- `handle_get`: the shadow is looked for. -/
  | get (query : String) (keys : List String) (context : Option String)
  /-- `handle_get`: the search. -/
  | getFind (iter : List (EntryId × VectorEntry R)) (fault : Option Error)
  /-- `handle_get`: the payload. -/
  | getLoad (fault : Option Error)
  /-- `handle_del`: the shadow is removed. -/
  | del (query : String) (keys : List String) (context : Option String)
  /-- `handle_del`: the search. -/
  | delFind (iter : List (EntryId × VectorEntry R)) (fault : Option Error)
  /-- `handle_del`: the index. -/
  | delVector (fault : Fault)
  /-- `handle_del`: the payload. -/
  | delObject (fault : Fault)
  /-- `WriteJob::run`: `prepare`. -/
  | prepare (fault : Option Error)
  /-- `WriteJob::run`: `holds`. -/
  | check
  /-- `WriteJob::run`: the payload. -/
  | put (fault : Fault)
  /-- `WriteJob::run`: the index. -/
  | upsert (fault : Fault)
  /-- `WriteJob::run`: `remove_if`. -/
  | clean
  /-- A panic. -/
  | panic

/-- A call on the disk store. -/
inductive DiskCall where
  /-- None. -/
  | none
  /-- `get`. -/
  | get (ns : Namespace) (id : EntryId)
  /-- `put`. -/
  | put (ns : Namespace) (id : EntryId) (value : List UInt8) (fault : Fault)
  /-- `delete`. -/
  | delete (ns : Namespace) (id : EntryId) (fault : Fault)

namespace DiskCall

/-- The namespace it is on. -/
def ns : DiskCall → Option Namespace
  | .none => Option.none
  | .get ns _ | .put ns _ _ _ | .delete ns _ _ => some ns

/-- What it does to the disk. -/
def run (object : ObjectStore) : DiskCall → ObjectStore
  | .none | .get _ _ => object
  | .put ns id value fault => (fault.attempt (fun object => .ok (object.put ns id value)) object).1
  | .delete ns id fault => (fault.attempt (fun object => .ok (object.delete ns id)) object).1

/-- What it finds there. -/
def found (object : ObjectStore) : DiskCall → Option (List UInt8)
  | .get ns id => object ns id
  | _ => Option.none

end DiskCall

/-- What a step does. -/
structure Reaction (R : Type) [Field R] where
  /-- The entry of the name, after it. -/
  entry : Option (NamespaceEntry R)
  /-- The task, after it. -/
  task : Task R
  /-- The call on the disk. -/
  call : DiskCall
  /-- The response, from what the call found. -/
  respond : Option (List UInt8) → Option Response

/-- The request is answered. -/
def Reaction.answer (entry : Option (NamespaceEntry R)) (response : Response) : Reaction R :=
  ⟨entry, .idle, .none, fun _ => some response⟩

/-- The task goes on. -/
def Reaction.goOn (entry : Option (NamespaceEntry R)) (task : Task R) : Reaction R :=
  ⟨entry, task, .none, fun _ => none⟩

section GoOn

variable (entry : Option (NamespaceEntry R)) (task : Task R)

@[simp] theorem Reaction.entry_goOn : (Reaction.goOn entry task).entry = entry := rfl

@[simp] theorem Reaction.task_goOn : (Reaction.goOn entry task).task = task := rfl

@[simp] theorem Reaction.call_goOn : (Reaction.goOn entry task).call = .none := rfl

end GoOn

/-- What a call gives, unless it fails. -/
def orFault {α : Type} (fault : Option Error) (x : Except Error α) : Except Error α :=
  fault.elim x .error

/-- The task of a job, once its payload is put; `commit` returns the error. -/
def Task.afterPut (job : NamedJob) (entry : VectorEntry R) : Fault → Task R
  | .none => .indexing job entry
  | .refused _ | .lost _ => .cleaning job

/-- The response to a `Del`, once the payload is deleted. -/
def deletedOr : Fault → Response
  | .none => .deleted true
  | .refused e | .lost e => backendError e

section React

variable (P : Platform R)

/-- The slot of a lookup in the shadow buffer. -/
def NamespaceEntry.slot (self : NamespaceEntry R) (parts : Parts) : Slot :=
  (self.cache.ns, EntryId.derive P.newV5 parts)

/-- `resolve` and `reconstruct`, which a handler begins with. -/
def request (name query : String) (keys : List String) (context : Option String)
    (entry : Option (NamespaceEntry R)) (handle : NamespaceEntry R → Parts → Reaction R) :
    Reaction R :=
  match entry with
  | none => .answer none (.error (.unknownNamespace name))
  | some e =>
    match reconstruct query keys context with
    | .error response => .answer entry response
    | .ok parts => handle e parts

/-- `handle_register`. -/
def registerReaction (name : String) (config : Except String (Except Error (Backends R))) :
    Option (NamespaceEntry R) → Reaction R
  | some e => .answer (some e) .registered
  | none =>
    match config with
    | .error message => .answer none (invalidConfig message)
    | .ok backends =>
      match buildCache name backends with
      | .ok cache => .answer (some ⟨cache, .new, fun _ => none⟩) .registered
      | .error e => .answer none (backendError e)

variable [LinearOrder R]

/-- **What a step does** for a name, from its entry and the task. -/
def react (name : String) (entry : Option (NamespaceEntry R)) :
    Op R → Task R → Option (Reaction R)
  | .register config, .idle => some (registerReaction name config entry)
  | .set query keys context value, .idle =>
    some (request name query keys context entry fun e parts =>
      .goOn (some { e with pending := e.pending.insert (e.slot P parts) value })
        (.shadowed ⟨name, parts, value⟩))
  | .get query keys context, .idle =>
    some (request name query keys context entry fun e parts =>
      match e.pending.get (e.slot P parts) with
      | some value => .answer entry (.value (some value.bytes))
      | none => .goOn entry (.searching name parts))
  | .del query keys context, .idle =>
    some (request name query keys context entry fun e parts =>
      .goOn (some { e with pending := (e.pending.remove (e.slot P parts)).1 })
        (.deleting name parts (e.pending.remove (e.slot P parts)).2))
  | .panic, _ => some (.goOn entry (.dead name))
  | op, task =>
    entry.bind fun e =>
      match op, task with
      | .reject, .shadowed job => some (.goOn entry (.rejected job))
      | .unshadow, .rejected job =>
        some (.answer (some { e with
          pending := (e.pending.removeIf (e.slot P job.parts) job.value).1 }) (.accepted false))
      | .getFind iter fault, .searching _ parts =>
        match orFault fault (e.cache.findMatch P ⟨e.vector, fun _ _ => none⟩ iter parts) with
        | .error err => some (.answer entry (backendError err))
        | .ok none => some (.answer entry (.value none))
        | .ok (some hit) => some (.goOn entry (.loading name hit.id))
      | .getLoad fault, .loading _ id =>
        match fault with
        | some err => some (.answer entry (backendError err))
        | none => some ⟨entry, .idle, .get e.cache.ns id, fun found => some (.value found)⟩
      | .delFind iter fault, .deleting _ parts removed =>
        match orFault fault (e.cache.findMatch P ⟨e.vector, fun _ _ => none⟩ iter parts) with
        | .error err => some (.answer entry (backendError err))
        | .ok none => some (.answer entry (.deleted removed))
        | .ok (some hit) => some (.goOn entry (.unindexing name hit.id))
      | .delVector fault, .unindexing _ id =>
        match fault.attempt (fun vector => .ok (vector.delete e.cache.ns id)) e.vector with
        | (vector, .error err) => some (.answer (some { e with vector }) (backendError err))
        | (vector, .ok ()) => some (.goOn (some { e with vector }) (.unstoring name id))
      | .delObject fault, .unstoring _ id =>
        some ⟨entry, .idle, .delete e.cache.ns id fault, fun _ => some (deletedOr fault)⟩
      | .prepare fault, .preparing job =>
        match orFault fault (e.cache.prepare P job.parts) with
        | .error _ => some (.goOn entry .idle)
        | .ok prepared => some (.goOn entry (.checking job prepared))
      | .check, .checking job prepared =>
        if e.pending.holds (e.slot P job.parts) job.value then
          some (.goOn entry (.putting job prepared))
        else some (.goOn entry .idle)
      | .put fault, .putting job prepared =>
        some ⟨entry, .afterPut job prepared fault,
          .put e.cache.ns prepared.id job.value.bytes fault, fun _ => none⟩
      | .upsert fault, .indexing job prepared =>
        some (.goOn (some { e with
          vector :=
            (fault.attempt (fun vector => vector.upsert P e.cache.ns prepared) e.vector).1 })
          (.cleaning job))
      | .clean, .cleaning job =>
        some (.goOn (some { e with
          pending := (e.pending.removeIf (e.slot P job.parts) job.value).1 }) .idle)
      | _, _ => none

end React

/-- A connection, or a worker. -/
inductive Agent where
  /-- The `message_loop` of a connection. -/
  | conn (c : ℕ)
  /-- A thread of the `WriteQueue`. -/
  | worker (w : ℕ)
  deriving DecidableEq

/-- The daemon. -/
structure Tenancy (R : Type) [Field R] where
  /-- `registry`. -/
  registry : String → Option (NamespaceEntry R)
  /-- The queue. -/
  queue : List NamedJob
  /-- The connections and the workers. -/
  task : Agent → Task R
  /-- The disk, under the one root. -/
  object : ObjectStore

/-- `DaemonState::new`. -/
def Tenancy.new (object : ObjectStore) : Tenancy R := ⟨fun _ => none, [], fun _ => .idle, object⟩

/-- What is done, and for which name. -/
inductive TenancyAction (R : Type) [Field R] where
  /-- A step of a connection or a worker. -/
  | op (x : Agent) (name : String) (op : Op R)
  /-- `try_push` succeeds. -/
  | push (c : ℕ) (name : String)
  /-- A worker takes a job. -/
  | recv (w : ℕ) (name : String)

/-- The name it is for. -/
def TenancyAction.name : TenancyAction R → String
  | .op _ name _ | .push _ name | .recv _ name => name

/-- Requests come by a connection, and a search visits the entries of the store. -/
def Op.Allowed (x : Agent) (entry : Option (NamespaceEntry R)) : Op R → Prop
  | .register _ | .set _ _ _ _ | .get _ _ _ | .del _ _ _ => ∃ c, x = .conn c
  | .getFind iter _ | .delFind iter _ =>
    ∀ e, entry = some e → Enumerates iter (e.vector.entries e.cache.ns)
  | _ => True

namespace Tenancy

variable (s : Tenancy R)

/-- The reaction, on the whole. -/
def apply (x : Agent) (name : String) (r : Reaction R) : Tenancy R where
  registry := Function.update s.registry name r.entry
  queue := s.queue
  task := Function.update s.task x r.task
  object := r.call.run s.object

section Apply

variable (x : Agent) (name : String) (r : Reaction R)

@[simp] theorem registry_apply :
    (s.apply x name r).registry = Function.update s.registry name r.entry := rfl

@[simp] theorem queue_apply : (s.apply x name r).queue = s.queue := rfl

@[simp] theorem task_apply : (s.apply x name r).task = Function.update s.task x r.task := rfl

@[simp] theorem object_apply : (s.apply x name r).object = r.call.run s.object := rfl

end Apply

variable [LinearOrder R]

/-- The response to a step. -/
def respond (P : Platform R) : TenancyAction R → Option Response
  | .op x name op =>
    (react P name (s.registry name) op (s.task x)).bind fun r => r.respond (r.call.found s.object)
  | .push _ _ => some (.accepted true)
  | .recv _ _ => none

end Tenancy

section Steps

variable (P : Platform R) (capacity : ℕ) [LinearOrder R]

/-- One step. -/
inductive TenancyStep : Tenancy R → TenancyAction R → Tenancy R → Prop
  /-- What the task is doing is for the name. -/
  | op {s : Tenancy R} {x : Agent} {name : String} {op : Op R} {r : Reaction R} :
      (s.task x).name = none ∨ (s.task x).name = some name →
      op.Allowed x (s.registry name) →
      react P name (s.registry name) op (s.task x) = some r →
        TenancyStep s (.op x name op) (s.apply x name r)
  /-- There is room. -/
  | push {s : Tenancy R} {c : ℕ} {job : NamedJob} :
      s.task (.conn c) = .shadowed job → s.queue.length < capacity →
        TenancyStep s (.push c job.name)
          { s with
            queue := s.queue ++ [job]
            task := Function.update s.task (.conn c) .idle }
  /-- The first job. -/
  | recv {s : Tenancy R} {w : ℕ} {job : NamedJob} {queue : List NamedJob} :
      s.task (.worker w) = .idle → s.queue = job :: queue →
        TenancyStep s (.recv w job.name)
          { s with
            queue
            task := Function.update s.task (.worker w) (.preparing job) }

/-- The runs of a new daemon, on a disk that has anything. -/
def TenancyRun (object : ObjectStore) (h : History (Tenancy R) (TenancyAction R))
    (s : Tenancy R) : Prop :=
  Run (TenancyStep P capacity) (.new object) Always h s

/-- The responses to the requests of a name, in order. -/
def responses (name : String) (h : History (Tenancy R) (TenancyAction R)) : List Response :=
  h.filterMap fun t => if t.2.name = name then t.1.respond P t.2 else none

/-- **The requests of `a` do not change the responses to `b`**: for every run there is one of the
same actions without those of `a`, with the same responses. -/
def Isolated (a b : String) : Prop :=
  ∀ object h s, TenancyRun P capacity object h s → ∃ h' s', TenancyRun P capacity object h' s' ∧
    h'.map Prod.snd = (h.map Prod.snd).filter (·.name ≠ a) ∧
      responses P b h' = responses P b h

end Steps

/-! ### What a step keeps to -/

namespace DiskCall

variable {object object' : ObjectStore} {call : DiskCall} {ns : Namespace}

/-- A call does the same to a namespace that is the same. -/
theorem run_congr (h : object ns = object' ns) : call.run object ns = call.run object' ns := by
  cases call with
  | none | get _ _ => exact h
  | put ns' id value fault =>
    obtain rfl | hne := eq_or_ne ns ns' <;>
      cases fault <;> simp [run, Fault.attempt, ObjectStore.put, *]
  | delete ns' id fault =>
    obtain rfl | hne := eq_or_ne ns ns' <;>
      cases fault <;> simp [run, Fault.attempt, ObjectStore.delete, *]

/-- A call does nothing to another namespace. -/
theorem run_of_ne (h : call.ns ≠ some ns) : call.run object ns = object ns := by
  cases call with
  | none | get _ _ => rfl
  | put ns' id value fault =>
    have hne : ns ≠ ns' := fun heq => h (by rw [heq, DiskCall.ns])
    cases fault <;> simp [run, Fault.attempt, ObjectStore.put, hne]
  | delete ns' id fault =>
    have hne : ns ≠ ns' := fun heq => h (by rw [heq, DiskCall.ns])
    cases fault <;> simp [run, Fault.attempt, ObjectStore.delete, hne]

/-- A call finds the same in a namespace that is the same. -/
theorem found_congr (h : ∀ ns, call.ns = some ns → object ns = object' ns) :
    call.found object = call.found object' := by
  cases call with
  | get ns id => exact congrFun (h ns rfl) id
  | _ => rfl

end DiskCall

/-- A step for a name leaves the task with that name or none, calls the disk in the namespace of the
name's entry, and leaves the entry its cache, or makes one. -/
structure Keeps (name : String) (entry : Option (NamespaceEntry R)) (task : Task R)
    (r : Reaction R) : Prop where
  /-- The task is for the name, or as it was, or for none. -/
  names : r.task.name = none ∨ r.task.name = some name ∨ r.task.name = task.name
  /-- The disk is called in the entry's namespace. -/
  calls : ∀ ns, r.call.ns = some ns → ∃ e, entry = some e ∧ e.cache.ns = ns
  /-- The namespace of the entry is what the name trims to. -/
  entries : ∀ e, r.entry = some e →
    (∃ e₀, entry = some e₀ ∧ e₀.cache = e.cache) ∨ Namespace.new name = .ok e.cache.ns

/-- A task that was for the name or for none is so after the step. -/
theorem Keeps.names_of {name : String} {entry : Option (NamespaceEntry R)} {task : Task R}
    {r : Reaction R} (hk : Keeps name entry task r)
    (h : task.name = none ∨ task.name = some name) :
    r.task.name = none ∨ r.task.name = some name := by
  obtain hr | hr | hr := hk.names
  · exact .inl hr
  · exact .inr hr
  · rwa [hr]

section Keeps

variable {name : String} {entry entry' : Option (NamespaceEntry R)} {task task' : Task R}
  {response : Response}

/-- An answer, with an entry that has its cache. -/
theorem keeps_answer (hentry : ∀ e, entry' = some e →
      (∃ e₀, entry = some e₀ ∧ e₀.cache = e.cache) ∨ Namespace.new name = .ok e.cache.ns) :
    Keeps name entry task (.answer entry' response) :=
  ⟨.inl rfl, fun _ hns => (by cases hns), hentry⟩

theorem keeps_goOn
    (hname : task'.name = none ∨ task'.name = some name ∨ task'.name = task.name)
    (hentry : ∀ e, entry' = some e →
      (∃ e₀, entry = some e₀ ∧ e₀.cache = e.cache) ∨ Namespace.new name = .ok e.cache.ns) :
    Keeps name entry task (.goOn entry' task') :=
  ⟨hname, fun _ hns => (by cases hns), hentry⟩

theorem same_entry : ∀ e, entry = some e →
    (∃ e₀, entry = some e₀ ∧ e₀.cache = e.cache) ∨ Namespace.new name = .ok e.cache.ns :=
  fun e he => .inl ⟨e, he, rfl⟩

/-- The entry, with its shadow buffer or its vector store changed. -/
theorem same_cache {e : NamespaceEntry R} {vector : MemoryVectorStore R} {pending : PendingWrites}
    (he : entry = some e) : ∀ e', some (⟨e.cache, vector, pending⟩ : NamespaceEntry R) = some e' →
      (∃ e₀, entry = some e₀ ∧ e₀.cache = e'.cache) ∨ Namespace.new name = .ok e'.cache.ns := by
  intro e' he'
  obtain rfl := Option.some.inj he'
  exact .inl ⟨e, he, rfl⟩

/-- A call on the disk, in the entry's namespace. -/
theorem keeps_call {e : NamespaceEntry R} {call : DiskCall}
    {respond : Option (List UInt8) → Option Response} (he : entry = some e)
    (hname : task'.name = none ∨ task'.name = some name ∨ task'.name = task.name)
    (hcall : call.ns = some e.cache.ns) : Keeps name entry task ⟨entry, task', call, respond⟩ := by
  refine ⟨hname, fun ns hns => ⟨e, he, ?_⟩, same_entry⟩
  exact Option.some.inj (hcall.symm.trans hns)

@[simp] theorem Task.name_afterPut (job : NamedJob) (entry : VectorEntry R) (fault : Fault) :
    (Task.afterPut job entry fault).name = some job.name := by
  cases fault <;> rfl

/-- What `build_cache` builds is in the namespace that the name trims to. -/
theorem buildCache_eq_ok {backends : Except Error (Backends R)} {cache : Cache R}
    (h : buildCache name backends = .ok cache) : Namespace.new name = .ok cache.ns := by
  simp only [buildCache, bind_eq_ok, Except.ok.injEq] at h
  obtain ⟨ns, hns, backends, -, rfl⟩ := h
  exact hns

theorem keeps_register {config : Except String (Except Error (Backends R))} :
    Keeps name entry task (registerReaction name config entry) := by
  unfold registerReaction
  split
  · exact keeps_answer same_entry
  · split
    · exact keeps_answer same_entry
    · split
      · rename_i hbuild
        refine keeps_answer fun e he => .inr ?_
        obtain rfl := Option.some.inj he
        exact buildCache_eq_ok hbuild
      · exact keeps_answer same_entry

/-- A handler keeps to its name, if what it does with the parts does. -/
theorem keeps_request {query : String} {keys : List String} {context : Option String}
    {handle : NamespaceEntry R → Parts → Reaction R}
    (hhandle : ∀ e parts, entry = some e → Keeps name entry task (handle e parts)) :
    Keeps name entry task (request name query keys context entry handle) := by
  unfold request
  split
  · exact keeps_answer same_entry
  · split
    · exact keeps_answer same_entry
    · exact hhandle _ _ rfl

variable {P : Platform R} [LinearOrder R]

/-- **Every step keeps to its name.** -/
theorem react_keeps {op : Op R} {r : Reaction R} (h : react P name entry op task = some r) :
    Keeps name entry task r := by
  unfold react at h
  split at h
  · obtain rfl := Option.some.inj h
    exact keeps_register
  · obtain rfl := Option.some.inj h
    exact keeps_request fun e parts he => keeps_goOn (.inr (.inl rfl)) (same_cache he)
  · obtain rfl := Option.some.inj h
    refine keeps_request fun e parts he => ?_
    split
    · exact keeps_answer same_entry
    · exact keeps_goOn (.inr (.inl rfl)) same_entry
  · obtain rfl := Option.some.inj h
    exact keeps_request fun e parts he => keeps_goOn (.inr (.inl rfl)) (same_cache he)
  · obtain rfl := Option.some.inj h
    exact keeps_goOn (.inr (.inl rfl)) same_entry
  · obtain ⟨e, he, h⟩ := Option.bind_eq_some_iff.mp h
    split at h
    -- `reject` and `unshadow`
    · obtain rfl := Option.some.inj h
      exact keeps_goOn (.inr (.inr rfl)) same_entry
    · obtain rfl := Option.some.inj h
      exact keeps_answer (same_cache he)
    -- `getFind` and `getLoad`
    · split at h <;> obtain rfl := Option.some.inj h
      · exact keeps_answer same_entry
      · exact keeps_answer same_entry
      · exact keeps_goOn (.inr (.inl rfl)) same_entry
    · split at h <;> obtain rfl := Option.some.inj h
      · exact keeps_answer same_entry
      · exact keeps_call he (.inl rfl) rfl
    -- `delFind`, `delVector` and `delObject`
    · split at h <;> obtain rfl := Option.some.inj h
      · exact keeps_answer same_entry
      · exact keeps_answer same_entry
      · exact keeps_goOn (.inr (.inl rfl)) same_entry
    · split at h <;> obtain rfl := Option.some.inj h
      · exact keeps_answer (same_cache he)
      · exact keeps_goOn (.inr (.inl rfl)) (same_cache he)
    · obtain rfl := Option.some.inj h
      exact keeps_call he (.inl rfl) rfl
    -- the steps of a job
    · split at h <;> obtain rfl := Option.some.inj h
      · exact keeps_goOn (.inl rfl) same_entry
      · exact keeps_goOn (.inr (.inr rfl)) same_entry
    · split at h <;> obtain rfl := Option.some.inj h
      · exact keeps_goOn (.inr (.inr rfl)) same_entry
      · exact keeps_goOn (.inl rfl) same_entry
    · obtain rfl := Option.some.inj h
      exact keeps_call he (.inr (.inr (Task.name_afterPut ..))) rfl
    · obtain rfl := Option.some.inj h
      exact keeps_goOn (.inr (.inr rfl)) (same_cache he)
    · obtain rfl := Option.some.inj h
      exact keeps_goOn (.inl rfl) (same_cache he)
    · cases h

end Keeps

/-! ### With and without a name -/

section Agrees

variable {P : Platform R} {capacity : ℕ} {a b : String} {s s' s₁ : Tenancy R}
  {act : TenancyAction R}

/-- The task, if it is not for the name. -/
def Task.without (a : String) (task : Task R) : Task R := if task.name = some a then .idle else task

theorem Task.eq_idle {task : Task R} (h : task.name = none) : task = .idle := by
  cases task with
  | idle => rfl
  | _ => cases h

/-- A task for another name, or none, is left. -/
theorem Task.without_of_ne {task : Task R} {name : String} (hne : name ≠ a)
    (h : task.name = none ∨ task.name = some name) : task.without a = task := by
  rw [without, if_neg]
  rintro ha
  obtain h | h := h
  · rw [h] at ha
    cases ha
  · rw [h] at ha
    exact hne (Option.some.inj ha)

/-- A task for the name, or none, is not. -/
theorem Task.without_own {task : Task R} (h : task.name = none ∨ task.name = some a) :
    task.without a = .idle := by
  obtain h | h := h
  · rw [Task.eq_idle h]
    rfl
  · rw [without, if_pos h]

/-- **What the requests of `a` change**: its entry, its jobs and tasks, and its namespace on the
disk. -/
structure Agrees (a : String) (s s' : Tenancy R) : Prop where
  /-- The other entries are the same. -/
  registry : ∀ name, name ≠ a → s'.registry name = s.registry name
  /-- The other jobs are the same. -/
  queue : s'.queue = s.queue.filter (·.name ≠ a)
  /-- The other tasks are the same. -/
  task : ∀ x, s'.task x = (s.task x).without a
  /-- The other namespaces on the disk are the same. -/
  object : ∀ ns, Namespace.new a ≠ .ok ns → s'.object ns = s.object ns

theorem agrees_new (a : String) (object : ObjectStore) :
    Agrees a (Tenancy.new object : Tenancy R) (Tenancy.new object) where
  registry _ _ := rfl
  queue := rfl
  task _ := rfl
  object _ _ := rfl

/-- A task that is changed is without the name what it was, if both are for the name or for none. -/
theorem task_own {x : Agent} {task : Task R} (hA : ∀ y, s'.task y = (s.task y).without a)
    (hold : (s.task x).name = none ∨ (s.task x).name = some a)
    (hnew : task.name = none ∨ task.name = some a) (y : Agent) :
    s'.task y = (Function.update s.task x task y).without a := by
  obtain rfl | hne := eq_or_ne y x
  · rw [Function.update_self, hA, Task.without_own hold, Task.without_own hnew]
  · rw [Function.update_of_ne hne, hA]

/-- A task that is changed in both is without the name what it is, if it is not for the name. -/
theorem task_other {x : Agent} {task : Task R} {name : String} (hne : name ≠ a)
    (hA : ∀ y, s'.task y = (s.task y).without a)
    (hnew : task.name = none ∨ task.name = some name) (y : Agent) :
    Function.update s'.task x task y = (Function.update s.task x task y).without a := by
  obtain rfl | hy := eq_or_ne y x
  · rw [Function.update_self, Function.update_self, Task.without_of_ne hne hnew]
  · rw [Function.update_of_ne hy, Function.update_of_ne hy, hA]

/-- Every entry is filed under what its name trims to. -/
def Filed (s : Tenancy R) : Prop :=
  ∀ name e, s.registry name = some e → Namespace.new name = .ok e.cache.ns

variable [LinearOrder R]

theorem filed_step (hF : Filed s) (hstep : TenancyStep P capacity s act s₁) : Filed s₁ := by
  cases hstep with
  | push _ _ | recv _ _ => exact hF
  | @op x name op r _ _ hr =>
    intro n e he
    rw [Tenancy.registry_apply] at he
    obtain rfl | hne := eq_or_ne n name
    · rw [Function.update_self] at he
      obtain ⟨e₀, he₀, hcache⟩ | hnew := (react_keeps hr).entries e he
      · rw [← hcache]
        exact hF n e₀ he₀
      · exact hnew
    · rw [Function.update_of_ne hne] at he
      exact hF n e he

theorem filed_run {object : ObjectStore} {h : History (Tenancy R) (TenancyAction R)}
    (hrun : TenancyRun P capacity object h s) : Filed s :=
  Run.invariant_state (fun name e he => by cases he) (fun _ _ _ _ hF _ hstep => filed_step hF hstep)
    hrun

/-- **A step of the name itself is only made in one run.** -/
theorem agrees_own (hA : Agrees a s s') (hF : Filed s) (hname : act.name = a)
    (hstep : TenancyStep P capacity s act s₁) : Agrees a s₁ s' := by
  cases hstep with
  | @op x name op r htask _ hr =>
    change name = a at hname
    subst hname
    have hkeeps := react_keeps hr
    refine ⟨?_, hA.queue, task_own hA.task htask (hkeeps.names_of htask), ?_⟩
    · intro n hn
      rw [Tenancy.registry_apply, Function.update_of_ne hn, hA.registry n hn]
    · intro ns hns
      -- The disk is called in the namespace of the name's entry.
      have hcall : r.call.ns ≠ some ns := by
        intro hcall
        obtain ⟨e, he, rfl⟩ := hkeeps.calls ns hcall
        exact hns (hF name e he)
      rw [Tenancy.object_apply, DiskCall.run_of_ne hcall, hA.object ns hns]
  | @push c job htask _ =>
    change job.name = a at hname
    refine ⟨hA.registry, ?_, task_own hA.task (.inr (by rw [htask, Task.name, hname])) (.inl rfl),
      hA.object⟩
    simp [hA.queue, hname]
  | @recv w job queue htask hqueue =>
    change job.name = a at hname
    refine ⟨hA.registry, ?_, task_own hA.task (.inl (by rw [htask, Task.name]))
      (.inr (by rw [Task.name, hname])), hA.object⟩
    simp [hA.queue, hqueue, hname]

/-- **A step of another name is made in both.** -/
theorem agrees_other (hA : Agrees a s s') (hname : act.name ≠ a)
    (hstep : TenancyStep P capacity s act s₁) :
    ∃ s₁', TenancyStep P capacity s' act s₁' ∧ Agrees a s₁ s₁' := by
  cases hstep with
  | @op x name op r htask hallowed hr =>
    have hentry := hA.registry name hname
    have hx : s'.task x = s.task x := by rw [hA.task, Task.without_of_ne hname htask]
    rw [← hx] at htask hr
    rw [← hentry] at hallowed hr
    refine ⟨s'.apply x name r, .op htask hallowed hr, ?_, hA.queue,
      task_other hname hA.task ((react_keeps hr).names_of htask), ?_⟩
    · intro n hn
      simp only [Tenancy.registry_apply, Function.update_apply, hA.registry n hn]
    · exact fun ns hns => DiskCall.run_congr (hA.object ns hns)
  | @push c job htask hroom =>
    change job.name ≠ a at hname
    have hx : s'.task (.conn c) = .shadowed job := by
      rw [hA.task, htask, Task.without_of_ne hname (.inr rfl)]
    have hroom' : s'.queue.length < capacity := by
      rw [hA.queue]
      exact (List.length_filter_le _ _).trans_lt hroom
    refine ⟨_, .push hx hroom', hA.registry, ?_, task_other hname hA.task (.inl rfl), hA.object⟩
    simp [hA.queue, hname]
  | @recv w job queue htask hqueue =>
    change job.name ≠ a at hname
    have hx : s'.task (.worker w) = .idle := by
      rw [hA.task, htask, Task.without_of_ne hname (.inl rfl)]
    have hqueue' : s'.queue = job :: queue.filter (·.name ≠ a) := by
      simp [hA.queue, hqueue, hname]
    exact ⟨_, .recv hx hqueue', hA.registry, rfl, task_other hname hA.task (.inr rfl), hA.object⟩

/-- The names that are different when trimmed are in different namespaces. -/
theorem namespace_new_ne (hab : trim a ≠ trim b) {ns : Namespace} (hb : Namespace.new b = .ok ns) :
    Namespace.new a ≠ .ok ns := by
  have hval : ∀ {name}, Namespace.new name = .ok ns → ns.val = trim name := by
    intro name hname
    unfold Namespace.new at hname
    dsimp only at hname
    split at hname
    · cases hname
    · split at hname
      · cases hname
      · split at hname
        · cases hname
        · rw [← Except.ok.inj hname]
  intro ha
  exact hab ((hval ha).symm.trans (hval hb))

/-- **The response to another name is the same in both.** -/
theorem respond_other (hA : Agrees a s s') (hF : Filed s) (hab : trim a ≠ trim act.name)
    (hstep : TenancyStep P capacity s act s₁) : s'.respond P act = s.respond P act := by
  have hname : act.name ≠ a := fun heq => hab (by rw [heq])
  cases hstep with
  | push _ _ | recv _ _ => rfl
  | @op x name op r htask _ hr =>
    have hx : s'.task x = s.task x := by rw [hA.task, Task.without_of_ne hname htask]
    simp only [Tenancy.respond, hx, hA.registry name hname, hr, Option.bind_some]
    congr 1
    refine DiskCall.found_congr fun ns hns => hA.object ns ?_
    obtain ⟨e, he, rfl⟩ := (react_keeps hr).calls ns hns
    exact namespace_new_ne hab (hF name e he)

theorem responses_snoc (h : History (Tenancy R) (TenancyAction R)) :
    responses P b (h ++ [(s, act)]) =
      responses P b h ++ (if act.name = b then s.respond P act else none).toList := by
  rw [responses, List.filterMap_append]
  cases hr : (if act.name = b then s.respond P act else none) with
  | none => simp [responses, hr]
  | some response => simp [responses, hr]

/-- The run without the requests of a name, beside the run. -/
theorem exists_without (hab : trim a ≠ trim b) {object : ObjectStore}
    {h : History (Tenancy R) (TenancyAction R)} (hrun : TenancyRun P capacity object h s) :
    ∃ h' s', TenancyRun P capacity object h' s' ∧
      h'.map Prod.snd = (h.map Prod.snd).filter (·.name ≠ a) ∧
        responses P b h' = responses P b h ∧ Agrees a s s' := by
  refine Run.invariant (I := fun h s => ∃ h' s', TenancyRun P capacity object h' s' ∧
    h'.map Prod.snd = (h.map Prod.snd).filter (·.name ≠ a) ∧
      responses P b h' = responses P b h ∧ Agrees a s s') ?_ ?_ hrun
  · exact ⟨[], _, .start, rfl, rfl, agrees_new a object⟩
  · rintro h s act s₁ hrun ⟨h', s', hrun', hacts, hresp, hA⟩ - hstep
    have hF := filed_run hrun
    obtain hname | hname := eq_or_ne act.name a
    · have hb : act.name ≠ b := fun heq => hab (by rw [← hname, heq])
      refine ⟨h', s', hrun', ?_, ?_, agrees_own hA hF hname hstep⟩
      · simp [hacts, hname]
      · rw [responses_snoc, if_neg hb, hresp]
        simp
    · obtain ⟨s₁', hstep', hA'⟩ := agrees_other hA hname hstep
      refine ⟨_, s₁', hrun'.next trivial hstep', ?_, ?_, hA'⟩
      · simp [hacts, hname]
      · rw [responses_snoc, responses_snoc, hresp]
        obtain hb | hb := eq_or_ne act.name b
        · rw [respond_other hA hF (by rwa [hb]) hstep]
        · rw [if_neg hb, if_neg hb]

/-- **Namespaces are isolated** if their names are different when trimmed. -/
theorem namespaces_isolated (P : Platform R) (capacity : ℕ) (a b : String)
    (hab : trim a ≠ trim b) : Isolated P capacity a b := by
  intro object h s hrun
  obtain ⟨h', s', hrun', hacts, hresp, -⟩ := exists_without hab hrun
  exact ⟨h', s', hrun', hacts, hresp⟩

/-- The names `t` and `u`. -/
theorem namespaces_isolated_t_u : trim "u" ≠ trim "t" ∧
    Isolated Core.Sample.platform writeQueueCapacity "u" "t" :=
  ⟨by decide, namespaces_isolated Core.Sample.platform writeQueueCapacity "u" "t" (by decide)⟩

end Agrees

/-! ### Two names of one namespace -/

section Alias

variable {P : Platform R} {capacity : ℕ} {b : String} [LinearOrder R]

/-- A step is decided by its action. -/
theorem TenancyStep.eq {s s₁ s₂ : Tenancy R} {act : TenancyAction R}
    (h₁ : TenancyStep P capacity s act s₁) (h₂ : TenancyStep P capacity s act s₂) : s₁ = s₂ := by
  cases h₁ with
  | op _ _ hr₁ =>
    cases h₂ with
    | op _ _ hr₂ => rw [Option.some.inj (hr₁.symm.trans hr₂)]
  | @push c job₁ htask₁ _ =>
    generalize hname : job₁.name = name at h₂
    cases h₂ with
    | push htask₂ _ =>
      rw [htask₁, Task.shadowed.injEq] at htask₂
      rw [htask₂]
  | @recv w job₁ queue₁ _ hqueue₁ =>
    generalize hname : job₁.name = name at h₂
    cases h₂ with
    | recv _ hqueue₂ =>
      rw [hqueue₁, List.cons.injEq] at hqueue₂
      obtain ⟨rfl, rfl⟩ := hqueue₂
      rfl

/-- The actions lead from one state to the other, with these responses to `b`. -/
def Leads (P : Platform R) (capacity : ℕ) (b : String) (s : Tenancy R)
    (acts : List (TenancyAction R)) (rs : List Response) (s' : Tenancy R) : Prop :=
  ∃ h, Run (TenancyStep P capacity) s Always h s' ∧ h.map Prod.snd = acts ∧ responses P b h = rs

variable {s s₁ s₂ : Tenancy R} {acts : List (TenancyAction R)} {rs : List Response}

theorem Leads.congr (h : Leads P capacity b s acts rs s₁) {acts' : List (TenancyAction R)}
    {rs' : List Response} (hacts : acts' = acts) (hrs : rs' = rs) :
    Leads P capacity b s acts' rs' s₁ := by
  rwa [hacts, hrs]

theorem Leads.next (h : Leads P capacity b s acts rs s₁) {act : TenancyAction R}
    (hstep : TenancyStep P capacity s₁ act s₂) :
    Leads P capacity b s (acts ++ [act])
      (rs ++ (if act.name = b then s₁.respond P act else none).toList) s₂ := by
  obtain ⟨h, hrun, rfl, rfl⟩ := h
  exact ⟨_, hrun.next trivial hstep, by simp, responses_snoc h⟩

theorem Leads.op (h : Leads P capacity b s acts rs s₁) (x : Agent) (name : String) (op : Op R)
    (r : Reaction R) (htask : (s₁.task x).name = none ∨ (s₁.task x).name = some name)
    (hallowed : op.Allowed x (s₁.registry name))
    (hr : react P name (s₁.registry name) op (s₁.task x) = some r) :
    Leads P capacity b s (acts ++ [.op x name op])
      (rs ++ (if name = b then r.respond (r.call.found s₁.object) else none).toList)
      (s₁.apply x name r) := by
  have hnext := h.next (.op htask hallowed hr)
  rwa [Tenancy.respond, hr, Option.bind_some] at hnext

/-- A step that goes on responds nothing. -/
theorem Leads.goOn (h : Leads P capacity b s acts rs s₁) (x : Agent) (name : String) (op : Op R)
    (entry : Option (NamespaceEntry R)) (task : Task R)
    (htask : (s₁.task x).name = none ∨ (s₁.task x).name = some name)
    (hallowed : op.Allowed x (s₁.registry name))
    (hr : react P name (s₁.registry name) op (s₁.task x) = some (.goOn entry task)) :
    Leads P capacity b s (acts ++ [.op x name op]) rs (s₁.apply x name (.goOn entry task)) := by
  simpa [Reaction.goOn] using h.op x name op _ htask hallowed hr

/-- Neither does a worker that takes a job. -/
theorem Leads.recv (h : Leads P capacity b s acts rs s₁) (w : ℕ) (job : NamedJob)
    (queue : List NamedJob) (htask : s₁.task (.worker w) = .idle)
    (hqueue : s₁.queue = job :: queue) :
    Leads P capacity b s (acts ++ [.recv w job.name]) rs
      { s₁ with
        queue
        task := Function.update s₁.task (.worker w) (.preparing job) } := by
  have hnext := h.next (.recv htask hqueue)
  rwa [Tenancy.respond, ite_self, Option.toList_none, List.append_nil] at hnext

/-- The responses do not depend on the run. -/
theorem Leads.responses_eq {object : ObjectStore} {h' : History (Tenancy R) (TenancyAction R)}
    {s' : Tenancy R} (h : Leads P capacity b (.new object) acts rs s)
    (hrun' : TenancyRun P capacity object h' s') (hacts : h'.map Prod.snd = acts) :
    responses P b h' = rs := by
  obtain ⟨h, hrun, rfl, rfl⟩ := h
  rw [(Run.eq_of_actions (fun _ _ _ _ => TenancyStep.eq) hrun' hrun hacts).1]

end Alias

open Core.Sample (platform small one entry idOne oneSet)

namespace Sample

/-- What the small cache is built from. -/
def backends : Backends ℚ := ⟨small.extract, small.embedQuery, small.scoring⟩

/-- The small cache, with nothing in it. -/
def unused : NamespaceEntry ℚ := ⟨small, .new, fun _ => none⟩

/-- The slot of `one`. -/
def slotOne : Slot := (small.ns, idOne)

/-- The small cache, with a shadow of `one`. -/
def shadowing (value : Arc) : NamespaceEntry ℚ :=
  ⟨small, .new, PendingWrites.insert (fun _ => none) slotOne value⟩

/-- The small cache, with `one` in it. -/
def used : NamespaceEntry ℚ := ⟨small, oneSet.vector, fun _ => none⟩

/-- The job that stores `one`. -/
def jobOne (name : String) (value : Arc) : NamedJob := ⟨name, one, value⟩

/-- `one` is set, and its job is run. -/
def setActions (name : String) (value : Arc) : List (TenancyAction ℚ) :=
  [.op (.conn 0) name (.set "q" ["a"] none value), .push 0 name, .recv 0 name,
    .op (.worker 0) name (.prepare none), .op (.worker 0) name .check,
    .op (.worker 0) name (.put .none), .op (.worker 0) name (.upsert .none),
    .op (.worker 0) name .clean]

/-- Nothing is going on. -/
def Quiet (s : Tenancy ℚ) : Prop := (∀ x, s.task x = .idle) ∧ s.queue = []

theorem slot_one {e : NamespaceEntry ℚ} (he : e.cache = small) : e.slot platform one = slotOne := by
  rw [NamespaceEntry.slot, he, Core.Sample.derive_one, slotOne]

theorem removeIf_shadow (value : Arc) :
    ((PendingWrites.insert (fun _ => none) slotOne value).removeIf slotOne value).1 =
      fun _ => none := by
  rw [PendingWrites.removeIf_of_holds PendingWrites.holds_insert]
  simp [PendingWrites.insert]

variable {b : String} {s s₁ : Tenancy ℚ} {acts : List (TenancyAction ℚ)} {rs : List Response}

/-- `one` is set and stored under a name of the small cache. -/
theorem leads_set (name : String) (value : Arc)
    (h : Leads platform writeQueueCapacity b s acts rs s₁) (hquiet : Quiet s₁)
    (hreg : s₁.registry name = some unused) :
    ∃ s₂, Leads platform writeQueueCapacity b s (acts ++ setActions name value)
        (rs ++ (if name = b then some (Response.accepted true) else none).toList) s₂ ∧
      Quiet s₂ ∧ s₂.registry = Function.update s₁.registry name (some used) ∧
        s₂.object = s₁.object.put small.ns idOne value.bytes := by
  obtain ⟨hidle, hqueue⟩ := hquiet
  have hrec : reconstruct "q" ["a"] none = .ok one := rfl
  have hprep : small.prepare platform one = .ok (entry one) := rfl
  have hups : MemoryVectorStore.new.upsert platform small.ns (entry one) = .ok oneSet.vector := rfl
  have hid : (entry one).id = idOne := Core.Sample.derive_one
  have h := h.goOn (.conn 0) name (.set "q" ["a"] none value)
    (some (shadowing value)) (.shadowed (jobOne name value)) (by simp [hidle, Task.name]) ⟨0, rfl⟩
    (by simp [react, request, hreg, hidle, hrec, slot_one, unused, shadowing, jobOne])
  have h := h.next (@TenancyStep.push _ _ _ _ _ _ 0 (jobOne name value) (by simp)
    (by simp [hqueue, writeQueueCapacity]))
  have h := h.recv 0 (jobOne name value) [] (by simp [hidle])
    (by simp [hqueue])
  have h := h.goOn (.worker 0) name (.prepare none)
    (some (shadowing value)) (.checking (jobOne name value) (entry one))
    (by simp [Task.name, jobOne]) trivial (by simp [react, orFault, hprep, shadowing, jobOne])
  have h := h.goOn (.worker 0) name .check
    (some (shadowing value)) (.putting (jobOne name value) (entry one))
    (by simp [Task.name, jobOne]) trivial
    (by simp [react, slot_one, PendingWrites.holds_insert, shadowing, jobOne])
  have h := h.op (.worker 0) name (.put .none)
    ⟨some (shadowing value), .indexing (jobOne name value) (entry one),
      .put small.ns (entry one).id value.bytes .none, fun _ => none⟩
    (by simp [Task.name, jobOne]) trivial (by simp [react, Task.afterPut, shadowing, jobOne])
  have h := h.goOn (.worker 0) name (.upsert .none)
    (some { shadowing value with vector := oneSet.vector }) (.cleaning (jobOne name value))
    (by simp [Task.name, jobOne]) trivial (by simp [react, Fault.attempt, hups, shadowing, jobOne])
  have h := h.goOn (.worker 0) name .clean (some used) .idle
    (by simp [Task.name, jobOne]) trivial
    (by simp [react, slot_one, removeIf_shadow, shadowing, jobOne, used])
  refine ⟨_, h.congr (by simp [setActions, jobOne]) ?_, ⟨?_, ?_⟩, ?_, ?_⟩
  · by_cases hb : name = b <;> simp [Tenancy.respond, TenancyAction.name, jobOne, hb]
  · intro x
    simp only [Tenancy.task_apply, Function.update_apply, hidle]
    split_ifs <;> rfl
  · simp
  · simp
  · simp [DiskCall.run, Fault.attempt, hid]

/-- A name of the small cache is registered. -/
theorem leads_register (name : String) (h : Leads platform writeQueueCapacity b s acts rs s₁)
    (hquiet : Quiet s₁) (hreg : s₁.registry name = none)
    (hbuild : buildCache name (.ok backends) = .ok small) :
    ∃ s₂, Leads platform writeQueueCapacity b s
        (acts ++ [.op (.conn 0) name (.register (.ok (.ok backends)))])
        (rs ++ (if name = b then some Response.registered else none).toList) s₂ ∧
      Quiet s₂ ∧ s₂.registry = Function.update s₁.registry name (some unused) ∧
        s₂.object = s₁.object := by
  obtain ⟨hidle, hqueue⟩ := hquiet
  have h := h.op (.conn 0) name (.register (.ok (.ok backends)))
    (.answer (some unused) .registered) (by simp [hidle, Task.name]) ⟨0, rfl⟩
    (by simp [react, registerReaction, hreg, hidle, hbuild, unused])
  refine ⟨_, h, ⟨?_, hqueue⟩, rfl, rfl⟩
  intro x
  simp only [Tenancy.task_apply, Function.update_apply, hidle]
  split_ifs <;> rfl

/-- `one` is looked up. -/
def getActions (name : String) : List (TenancyAction ℚ) :=
  [.op (.conn 0) name (.get "q" ["a"] none),
    .op (.conn 0) name (.getFind [(EntryId.derive platform.newV5 one, entry one)] none),
    .op (.conn 0) name (.getLoad none)]

/-- `one` is looked up under a name it is stored under, and what is on the disk is returned. -/
theorem leads_get (h : Leads platform writeQueueCapacity b s acts rs s₁) (hquiet : Quiet s₁)
    (hreg : s₁.registry b = some used) :
    ∃ s₂, Leads platform writeQueueCapacity b s (acts ++ getActions b)
      (rs ++ [.value (s₁.object small.ns idOne)]) s₂ := by
  obtain ⟨hidle, hqueue⟩ := hquiet
  have hrec : reconstruct "q" ["a"] none = .ok one := rfl
  obtain ⟨hit, hfind, hid⟩ := small.exists_hit platform Core.Sample.match_one
  have hfind : small.findMatch platform ⟨oneSet.vector, fun _ _ => none⟩
      [(EntryId.derive platform.newV5 one, entry one)] one = .ok (some hit) := hfind
  rw [Core.Sample.derive_one] at hid
  have h := h.goOn (.conn 0) b (.get "q" ["a"] none)
    (some used) (.searching b one) (by simp [hidle, Task.name]) ⟨0, rfl⟩
    (by simp [react, request, hreg, hidle, hrec, PendingWrites.get, used])
  have h := h.goOn (.conn 0) b (.getFind _ none)
    (some used) (.loading b hit.id) (by simp [Task.name])
    (by
      intro e he
      obtain rfl : used = e := by simpa using he
      exact Core.Sample.enumerates_one)
    (by simp [react, orFault, used, hfind])
  have h := h.op (.conn 0) b (.getLoad none)
    ⟨some used, .idle, .get small.ns hit.id, fun found => some (.value found)⟩
    (by simp [Task.name]) trivial (by simp [react, used])
  exact ⟨_, h.congr (by simp [getActions]) (by simp [DiskCall.found, DiskCall.run, hid])⟩

/-- An empty disk. -/
def disk : ObjectStore := fun _ _ => none

/-- The name `t` is registered. -/
def registerActions (name : String) : List (TenancyAction ℚ) :=
  [.op (.conn 0) name (.register (.ok (.ok backends)))]

/-- `one` is set to `1` under the name `t`, and read back. -/
theorem leads_alone : ∃ s, Leads platform writeQueueCapacity "t" (.new disk)
    (registerActions "t" ++ setActions "t" ⟨0, [1], 0⟩ ++ getActions "t")
    [.registered, .accepted true, .value (some [1])] s := by
  have h : Leads platform writeQueueCapacity "t" (.new disk) [] [] (.new disk) :=
    ⟨[], .start, rfl, rfl⟩
  obtain ⟨s₁, h, hquiet, hreg₁, -⟩ := leads_register "t" h ⟨fun _ => rfl, rfl⟩ rfl rfl
  obtain ⟨s₂, h, hquiet, hreg₂, hobject⟩ := leads_set "t" ⟨0, [1], 0⟩ h hquiet (by simp [hreg₁])
  obtain ⟨s₃, h⟩ := leads_get h hquiet (by simp [hreg₂])
  refine ⟨s₃, h.congr (by simp [registerActions]) ?_⟩
  simp [hobject, ObjectStore.put]

/-- Between the two it is set to `2` under the name `t `. -/
theorem leads_aliased (disk : ObjectStore) : ∃ s, Leads platform writeQueueCapacity "t" (.new disk)
    (registerActions "t" ++ registerActions "t " ++ setActions "t" ⟨0, [1], 0⟩ ++
      setActions "t " ⟨1, [2], 0⟩ ++ getActions "t")
    [.registered, .accepted true, .value (some [2])] s := by
  have h : Leads platform writeQueueCapacity "t" (.new disk) [] [] (.new disk) :=
    ⟨[], .start, rfl, rfl⟩
  obtain ⟨s₁, h, hquiet, hreg₁, -⟩ := leads_register "t" h ⟨fun _ => rfl, rfl⟩ rfl rfl
  obtain ⟨s₂, h, hquiet, hreg₂, -⟩ :=
    leads_register "t " h hquiet (by simp [hreg₁, Tenancy.new]) rfl
  obtain ⟨s₃, h, hquiet, hreg₃, -⟩ := leads_set "t" ⟨0, [1], 0⟩ h hquiet (by simp [hreg₂, hreg₁])
  obtain ⟨s₄, h, hquiet, hreg₄, hobject⟩ :=
    leads_set "t " ⟨1, [2], 0⟩ h hquiet (by simp [hreg₃, hreg₂])
  obtain ⟨s₅, h⟩ := leads_get h hquiet (by simp [hreg₄, hreg₃])
  refine ⟨s₅, h.congr (by simp [registerActions]) ?_⟩
  simp [hobject, ObjectStore.put]

end Sample

/-- **Two names of one namespace are not isolated**: with `t ` set to `2`, a `Get` of `t` returns
`2`. -/
theorem namespaces_alias :
    ¬ ∀ a b : String, a ≠ b → Isolated platform writeQueueCapacity a b := by
  intro hall
  obtain ⟨s, h, hrun, hacts, hresp⟩ := Sample.leads_aliased Sample.disk
  obtain ⟨h', s', hrun', hacts', hresp'⟩ := hall "t " "t" (by decide) Sample.disk h s hrun
  obtain ⟨s₂, halone⟩ := Sample.leads_alone
  have hpurged : h'.map Prod.snd = Sample.registerActions "t" ++
      Sample.setActions "t" ⟨0, [1], 0⟩ ++ Sample.getActions "t" := by
    rw [hacts', hacts]
    simp [Sample.registerActions, Sample.setActions, Sample.getActions, TenancyAction.name]
  have hone := halone.responses_eq hrun' hpurged
  rw [hresp', hresp] at hone
  simp at hone

end Semisweet.Daemon
