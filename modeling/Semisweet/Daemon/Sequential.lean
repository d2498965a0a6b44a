import Semisweet.Core.ExactIdentity
import Semisweet.Daemon.WriteBehind
import Semisweet.Protocol.Messages

/-!
# Requests one after the other

`handle_get`, `handle_set` and `handle_del` (`src/daemon/conn.rs`) and `WriteJob::run`
(`src/daemon/writer.rs`) as functions, on a daemon that completes one request or job before it
begins the next. A `Get` is served from the shadow of the exact id, and only without one from
the stores, by similarity. A `Del` removes that shadow, and then, with or without one, what the
stores match.

## The model

The shadow buffers and stores of all namespaces, and the queue they share. The cache of a namespace
is fixed. Workers take jobs in the order they were queued. An allocation is new: no live one has
its address. All calls on a backend succeed.

## What is proved

* `backed_run` — every stored entry has its payload.
* `handleGet_eq` — so a `Get` is served whenever there is a shadow or a match.
* `del_matches_get_iff` — a `Del` removes exactly what a `Get` would be served from, if and only if
  there is no shadow, or no entry of another id is the best match; `del_removes_two`, a `Del` that
  removes the shadow of one entry and all of another.
-/

namespace Semisweet.Daemon

open Semisweet.Core Semisweet.Foundations Semisweet.Protocol

variable {R : Type} [Field R]

/-- The caches of the registered namespaces. -/
structure Caches (R : Type) [Field R] where
  /-- The cache of a namespace. -/
  cache : Namespace → Cache R
  /-- It works on that namespace. -/
  ns_eq : ∀ ns, (cache ns).ns = ns

/-- The daemon between two requests. -/
structure Sequential (R : Type) [Field R] (newV5 : Uuid → List UInt8 → Uuid) where
  /-- The shadow buffers. -/
  pending : PendingWrites
  /-- The queue. -/
  queue : List (WriteJob newV5)
  /-- The stores. -/
  stores : Stores R
  /-- How many allocations were made. -/
  clock : ℕ

namespace Sequential

/-- The slot of a lookup. -/
def slotOf (newV5 : Uuid → List UInt8 → Uuid) (ns : Namespace) (parts : Parts) : Slot :=
  (ns, EntryId.derive newV5 parts)

/-- No live allocation has the address of this one. -/
def Fresh {newV5 : Uuid → List UInt8 → Uuid} (self : Sequential R newV5) (value : Arc) : Prop :=
  (∀ slot v, self.pending slot = some v → v.addr ≠ value.addr) ∧
    ∀ job ∈ self.queue, job.value.addr ≠ value.addr

variable (P : Platform R) (caches : Caches R) (capacity : ℕ) (self : Sequential R P.newV5)
  (ns : Namespace) (parts : Parts)

/-- `handle_set`. -/
def handleSet (value : Arc) : Sequential R P.newV5 × Response :=
  let slot := slotOf P.newV5 ns parts
  let pending := self.pending.insert slot value
  if self.queue.length < capacity then
    ({ self with
        pending
        queue := self.queue ++ [⟨ns, slot.2, parts, rfl, value⟩]
        clock := self.clock + 1 },
      .accepted true)
  else
    -- the write will never run, and takes its shadow back
    ({ self with pending := (pending.removeIf slot value).1, clock := self.clock + 1 },
      .accepted false)

theorem handleSet_stores (value : Arc) :
    (self.handleSet P capacity ns parts value).1.stores = self.stores := by
  dsimp only [handleSet]
  split <;> rfl

/-- `WriteJob::run`, and what it prints an error of. -/
def runJob (job : WriteJob P.newV5) : Sequential R P.newV5 × Except Error Unit :=
  match (caches.cache job.ns).prepare P job.parts with
  | .error e => (self, .error e)
  | .ok entry =>
    if self.pending.holds job.slot job.value then
      let (stores, result) := (caches.cache job.ns).commit P self.stores entry job.value.bytes
      ({ self with stores, pending := (self.pending.removeIf job.slot job.value).1 }, result)
    else (self, .ok ())

variable [LinearOrder R] (iter : List (EntryId × VectorEntry R))

/-- `handle_get`. -/
def handleGet : Response :=
  match self.pending.get (slotOf P.newV5 ns parts) with
  | some value => .value (some value.bytes)
  | none =>
    match (caches.cache ns).get P self.stores iter parts with
    | .ok value => .value value
    | .error e => backendError e

/-- `handle_del`. -/
def handleDel : Sequential R P.newV5 × Response :=
  let (pending, removed) := self.pending.remove (slotOf P.newV5 ns parts)
  let (stores, result) := (caches.cache ns).delete P self.stores iter parts
  ({ self with pending, stores },
    match result with
    | .ok deleted => .deleted (removed || deleted)
    | .error e => backendError e)

end Sequential

/-- What the daemon completes. -/
inductive SequentialAction (newV5 : Uuid → List UInt8 → Uuid) where
  /-- A `Set`. -/
  | set (ns : Namespace) (parts : Parts) (value : Arc)
  /-- A `Get`. -/
  | get (ns : Namespace) (parts : Parts)
  /-- A `Del`. -/
  | del (ns : Namespace) (parts : Parts)
  /-- A job. -/
  | job (job : WriteJob newV5)

section Steps

variable (P : Platform R) (caches : Caches R) (capacity : ℕ) [LinearOrder R]

/-- One request or job. -/
inductive SequentialStep :
    Sequential R P.newV5 → SequentialAction P.newV5 → Sequential R P.newV5 → Prop
  /-- A `Set`, accepted or not. -/
  | set {s : Sequential R P.newV5} {ns : Namespace} {parts : Parts} {value : Arc} :
      s.Fresh value → value.birth = s.clock →
        SequentialStep s (.set ns parts value) (s.handleSet P capacity ns parts value).1
  /-- A `Get`, which changes nothing. -/
  | get {s : Sequential R P.newV5} {ns : Namespace} {parts : Parts}
      {iter : List (EntryId × VectorEntry R)} {value : Option (List UInt8)} :
      Enumerates iter (s.stores.vector.entries ns) →
        s.handleGet P caches ns parts iter = .value value → SequentialStep s (.get ns parts) s
  /-- A `Del`. -/
  | del {s : Sequential R P.newV5} {ns : Namespace} {parts : Parts}
      {iter : List (EntryId × VectorEntry R)} {b : Bool} :
      Enumerates iter (s.stores.vector.entries ns) →
        (s.handleDel P caches ns parts iter).2 = .deleted b →
          SequentialStep s (.del ns parts) (s.handleDel P caches ns parts iter).1
  /-- A worker takes the first job and runs it. -/
  | job {s s' : Sequential R P.newV5} {job : WriteJob P.newV5} {queue : List (WriteJob P.newV5)} :
      s.queue = job :: queue → { s with queue }.runJob P caches job = (s', .ok ()) →
        SequentialStep s (.job job) s'

/-- The runs of a new daemon: nothing in the vector store, anything in the object store. -/
def SequentialRun (h : History (Sequential R P.newV5) (SequentialAction P.newV5))
    (s : Sequential R P.newV5) : Prop :=
  ∃ object : ObjectStore,
    Run (SequentialStep P caches capacity) ⟨fun _ => none, [], Stores.fresh object, 0⟩ Always h s

end Steps

attribute [simp] Caches.ns_eq

variable {P : Platform R} {caches : Caches R} {capacity : ℕ} [LinearOrder R]
  {s s' : Sequential R P.newV5} {a : SequentialAction P.newV5}
  {h : History (Sequential R P.newV5) (SequentialAction P.newV5)}
  {ns : Namespace} {parts : Parts} {iter : List (EntryId × VectorEntry R)}

/-! ### What a request does -/

/-- **What `handle_del` does** when the backends do not fail: the shadow is removed, and the
match. -/
theorem handleDel_eq {found : Option (ScoredHit R)}
    (hfind : (caches.cache ns).findMatch P s.stores iter parts = .ok found) :
    s.handleDel P caches ns parts iter =
      ({ s with
          pending := Function.update s.pending (Sequential.slotOf P.newV5 ns parts) none
          stores := found.elim s.stores fun hit => s.stores.erase ns hit.id },
        .deleted ((s.pending (Sequential.slotOf P.newV5 ns parts)).isSome || found.isSome)) := by
  unfold Sequential.handleDel Cache.delete
  rw [hfind]
  cases found <;> simp [PendingWrites.remove, Stores.erase]

omit [LinearOrder R] in
/-- **What a job does** when it succeeds: it skips, or writes its entry and drops its shadow. -/
theorem runJob_eq_ok {job : WriteJob P.newV5} (hrun : s.runJob P caches job = (s', .ok ())) :
    ∃ entry, (caches.cache job.ns).prepare P job.parts = .ok entry ∧
      ((s.pending.holds job.slot job.value = false ∧ s' = s) ∨
        s.pending.holds job.slot job.value = true ∧ ∃ stores,
          (caches.cache job.ns).commit P s.stores entry job.value.bytes = (stores, .ok ()) ∧
            s' = { s with stores, pending := (s.pending.removeIf job.slot job.value).1 }) := by
  unfold Sequential.runJob at hrun
  cases hprep : (caches.cache job.ns).prepare P job.parts with
  | error e => simp [hprep] at hrun
  | ok entry =>
    refine ⟨entry, rfl, ?_⟩
    simp only [hprep] at hrun
    split at hrun
    · rename_i hholds
      obtain ⟨rfl, hresult⟩ := Prod.mk.inj hrun
      exact .inr ⟨hholds, _, Prod.ext rfl hresult, rfl⟩
    · rename_i hholds
      obtain ⟨rfl, -⟩ := Prod.mk.inj hrun
      exact .inl ⟨by simpa using hholds, rfl⟩

omit [LinearOrder R] in
/-- A job whose shadow is there writes its entry, and drops the shadow. -/
theorem runJob_of_holds {job : WriteJob P.newV5} {entry : VectorEntry R} {stores : Stores R}
    (hprepare : (caches.cache job.ns).prepare P job.parts = .ok entry)
    (hholds : s.pending.holds job.slot job.value = true)
    (hcommit : (caches.cache job.ns).commit P s.stores entry job.value.bytes = (stores, .ok ())) :
    s.runJob P caches job =
      ({ s with stores, pending := Function.update s.pending job.slot none }, .ok ()) := by
  simp [Sequential.runJob, hprepare, hholds, hcommit, PendingWrites.removeIf_of_holds hholds]

/-- **Every request and job leaves the entries with their payloads.** -/
theorem backed_step (hI : s.stores.Backed ns) (hstep : SequentialStep P caches capacity s a s') :
    s'.stores.Backed ns := by
  cases hstep with
  | set _ _ =>
    rw [Sequential.handleSet_stores]
    exact hI
  | get _ _ => exact hI
  | @del ns' parts iter b _ hdel =>
    cases hfind : (caches.cache ns').findMatch P s.stores iter parts with
    | error e =>
      unfold Sequential.handleDel Cache.delete
      rw [hfind]
      exact hI
    | ok found =>
      rw [handleDel_eq hfind]
      cases found with
      | none => exact hI
      | some hit => exact hI.erase ns' hit.id
  | job _ hjob =>
    obtain ⟨entry, -, ⟨-, rfl⟩ | ⟨-, stores, hcommit, rfl⟩⟩ := runJob_eq_ok hjob
    · exact hI
    · exact hI.commit hcommit

theorem backed_run (hrun : SequentialRun P caches capacity h s) (ns : Namespace) :
    s.stores.Backed ns := by
  obtain ⟨object, hrun⟩ := hrun
  refine hrun.invariant_state (I := fun s => s.stores.Backed ns) (fun id entry he => ?_)
    fun h s a s' hI _ hstep => backed_step hI hstep
  simp [Stores.row, Stores.fresh, MemoryVectorStore.entries, MemoryVectorStore.new] at he

/-- What a lookup matches is stored, with its payload. -/
theorem match_stored {hit : ScoredHit R} (hI : s.stores.Backed ns)
    (hiter : Enumerates iter (s.stores.vector.entries ns))
    (hfind : (caches.cache ns).findMatch P s.stores iter parts = .ok (some hit)) :
    s.stores.vector.entries ns hit.id ≠ none ∧ s.stores.object ns hit.id ≠ none := by
  rw [← caches.ns_eq ns] at hI hiter
  have hstored := hI.findMatch hiter hfind
  rwa [caches.ns_eq] at hstored

/-! ### What a `Get` is served from -/

/-- What a `Get` may be served from: the shadow of an id, or what is stored under one. -/
inductive Source where
  /-- The shadow. -/
  | shadow (id : EntryId)
  /-- The stored entry. -/
  | stored (id : EntryId)

/-- Its id. -/
def Source.id : Source → EntryId
  | .shadow id | .stored id => id

namespace Sequential

/-- What `handle_get` is served from. -/
def servedFrom (P : Platform R) (caches : Caches R) (self : Sequential R P.newV5) (ns : Namespace)
    (parts : Parts) (iter : List (EntryId × VectorEntry R)) : Option Source :=
  match self.pending.get (slotOf P.newV5 ns parts) with
  | some _ => some (.shadow (EntryId.derive P.newV5 parts))
  | none =>
    match (caches.cache ns).findMatch P self.stores iter parts with
    | .ok (some hit) => some (.stored hit.id)
    | _ => none

omit [LinearOrder R]

variable {newV5 : Uuid → List UInt8 → Uuid} (self : Sequential R newV5)

/-- What it serves. -/
def payload (ns : Namespace) : Source → Option (List UInt8)
  | .shadow id => (self.pending (ns, id)).map Arc.bytes
  | .stored id => self.stores.object ns id

/-- It is not there any more. -/
def Gone (ns : Namespace) : Source → Prop
  | .shadow id => self.pending (ns, id) = none
  | .stored id => self.stores.row ns id = (none, none)

/-- Neither the shadow of the slot nor what is stored under it has changed. -/
def SameAt (self other : Sequential R newV5) (slot : Slot) : Prop :=
  other.pending slot = self.pending slot ∧
    other.stores.row slot.1 slot.2 = self.stores.row slot.1 slot.2

end Sequential

/-- A `Get` is served from the shadow of the exact id, if it has one. -/
theorem servedFrom_of_shadow {value : Arc}
    (hpend : s.pending (ns, EntryId.derive P.newV5 parts) = some value) :
    s.servedFrom P caches ns parts iter = some (.shadow (EntryId.derive P.newV5 parts)) := by
  simp [Sequential.servedFrom, PendingWrites.get, Sequential.slotOf, hpend]

/-- **A `Get` is served** whenever there is a shadow or a match. -/
theorem handleGet_eq (hI : s.stores.Backed ns)
    (hiter : Enumerates iter (s.stores.vector.entries ns)) {found : Option (ScoredHit R)}
    (hfind : (caches.cache ns).findMatch P s.stores iter parts = .ok found) :
    s.handleGet P caches ns parts iter =
        .value ((s.servedFrom P caches ns parts iter).bind (s.payload ns)) ∧
      ∀ e, s.servedFrom P caches ns parts iter = some e → s.payload ns e ≠ none := by
  unfold Sequential.handleGet Sequential.servedFrom
  cases hp : s.pending.get (Sequential.slotOf P.newV5 ns parts) with
  | some value =>
    have hp : s.pending (ns, EntryId.derive P.newV5 parts) = some value := hp
    simp [Sequential.payload, hp]
  | none =>
    cases found with
    | none => simp [hfind, Cache.get, bind, Except.bind]
    | some hit =>
      have hstored := (match_stored hI hiter hfind).2
      refine ⟨by simp [hfind, Cache.get, bind, Except.bind, Sequential.payload], fun e he => ?_⟩
      simp only [hfind, Option.some.injEq] at he
      exact he ▸ hstored

/-! ### What a `Del` removes -/

/-- **A `Del` removes exactly what a `Get` would be served from**: it answers whether there is
anything, removes it, and leaves the slots of all other ids as they were. -/
structure DelMatchesGet (P : Platform R) (caches : Caches R) (s : Sequential R P.newV5)
    (ns : Namespace) (parts : Parts) (iter : List (EntryId × VectorEntry R)) : Prop where
  /-- If a `Get` would be served. -/
  hit : ∀ e, s.servedFrom P caches ns parts iter = some e →
    (s.handleDel P caches ns parts iter).2 = .deleted true ∧
      (s.handleDel P caches ns parts iter).1.Gone ns e ∧
        ∀ slot, slot ≠ (ns, e.id) → s.SameAt (s.handleDel P caches ns parts iter).1 slot
  /-- If it would miss. -/
  miss : s.servedFrom P caches ns parts iter = none →
    s.handleDel P caches ns parts iter = (s, .deleted false)

/-- A `Del` leaves a slot as it was, if it is not the match's, and the exact one only if it has a
shadow. -/
theorem sameAt_handleDel {found : Option (ScoredHit R)} {slot : Slot}
    (hfind : (caches.cache ns).findMatch P s.stores iter parts = .ok found)
    (hpend : slot = Sequential.slotOf P.newV5 ns parts → s.pending slot = none)
    (hhit : ∀ hit, found = some hit → slot ≠ (ns, hit.id)) :
    s.SameAt (s.handleDel P caches ns parts iter).1 slot := by
  rw [handleDel_eq hfind]
  refine ⟨?_, ?_⟩
  · by_cases hslot : slot = Sequential.slotOf P.newV5 ns parts
    · simp [hpend hslot, ← hslot]
    · simp [Function.update_of_ne hslot]
  · cases found with
    | none => rfl
    | some hit => exact (Stores.row_erase s.stores ns hit.id).2 slot.1 slot.2 (hhit hit rfl)

/-- With a shadow and a match of another id, a `Del` removes both. -/
theorem not_delMatchesGet {hit : ScoredHit R} (hI : s.stores.Backed ns)
    (hiter : Enumerates iter (s.stores.vector.entries ns))
    (hfind : (caches.cache ns).findMatch P s.stores iter parts = .ok (some hit))
    (hpend : s.pending (ns, EntryId.derive P.newV5 parts) ≠ none)
    (hne : hit.id ≠ EntryId.derive P.newV5 parts) : ¬ DelMatchesGet P caches s ns parts iter := by
  intro hdel
  obtain ⟨value, hvalue⟩ := Option.ne_none_iff_exists'.mp hpend
  obtain ⟨-, -, hsame⟩ := hdel.hit _ (servedFrom_of_shadow hvalue)
  have hrow := (hsame (ns, hit.id) fun heq => hne (Prod.mk.inj heq).2).2
  rw [handleDel_eq hfind] at hrow
  have hgone : (none, none) = s.stores.row ns hit.id :=
    (Stores.row_erase s.stores ns hit.id).1.symm.trans hrow
  exact (match_stored hI hiter hfind).2 (congrArg Prod.snd hgone).symm

/-- Without a shadow, a `Del` removes the match. -/
theorem delMatchesGet_of_none {found : Option (ScoredHit R)}
    (hfind : (caches.cache ns).findMatch P s.stores iter parts = .ok found)
    (hpend : s.pending (ns, EntryId.derive P.newV5 parts) = none) :
    DelMatchesGet P caches s ns parts iter := by
  have hpend' : s.pending.get (Sequential.slotOf P.newV5 ns parts) = none := hpend
  have hserved : s.servedFrom P caches ns parts iter = found.map fun hit => .stored hit.id := by
    unfold Sequential.servedFrom
    rw [hpend', hfind]
    cases found <;> rfl
  refine ⟨fun e he => ?_, fun hnone => ?_⟩
  · rw [hserved] at he
    obtain ⟨hit, rfl, rfl⟩ := Option.map_eq_some_iff.mp he
    refine ⟨by simp [handleDel_eq hfind], ?_, fun slot hslot => ?_⟩
    · rw [handleDel_eq hfind]
      exact (Stores.row_erase s.stores ns hit.id).1
    · refine sameAt_handleDel hfind (fun heq => heq ▸ hpend) fun hit' hhit => ?_
      obtain rfl := Option.some.inj hhit
      exact hslot
  · rw [hserved] at hnone
    obtain rfl := Option.map_eq_none_iff.mp hnone
    have hsame : Function.update s.pending (Sequential.slotOf P.newV5 ns parts) none =
        s.pending := by
      rw [Function.update_eq_self_iff]
      exact hpend.symm
    rw [handleDel_eq hfind, hsame]
    simp [Sequential.slotOf, hpend]

/-- With a shadow, and no match of another id, a `Del` removes the shadow, and the match is of its
id. -/
theorem delMatchesGet_of_shadow {found : Option (ScoredHit R)} {value : Arc}
    (hfind : (caches.cache ns).findMatch P s.stores iter parts = .ok found)
    (hpend : s.pending (ns, EntryId.derive P.newV5 parts) = some value)
    (hexact : ∀ hit, found = some hit → hit.id = EntryId.derive P.newV5 parts) :
    DelMatchesGet P caches s ns parts iter := by
  have hserved : s.servedFrom P caches ns parts iter = _ := servedFrom_of_shadow hpend
  refine ⟨fun e he => ?_, fun hnone => ?_⟩
  · obtain rfl := Option.some.inj (hserved.symm.trans he)
    refine ⟨by simp [handleDel_eq hfind, Sequential.slotOf, hpend], ?_, fun slot hslot => ?_⟩
    · rw [handleDel_eq hfind]
      exact Function.update_self _ _ _
    · refine sameAt_handleDel hfind (fun heq => absurd heq hslot) fun hit hhit => ?_
      rw [hexact hit hhit]
      exact hslot
  · rw [hserved] at hnone
    cases hnone

/-- **When a `Del` removes exactly what a `Get` would be served from**: in every state of every
run, if and only if there is no shadow of the exact id, or no entry of another id is the best
match. -/
theorem del_matches_get_iff (hrun : SequentialRun P caches capacity h s)
    (hiter : Enumerates iter (s.stores.vector.entries ns)) {found : Option (ScoredHit R)}
    (hfind : (caches.cache ns).findMatch P s.stores iter parts = .ok found) :
    (s.handleGet P caches ns parts iter =
        .value ((s.servedFrom P caches ns parts iter).bind (s.payload ns)) ∧
      ∀ e, s.servedFrom P caches ns parts iter = some e → s.payload ns e ≠ none) ∧
    (DelMatchesGet P caches s ns parts iter ↔
      s.pending (ns, EntryId.derive P.newV5 parts) = none ∨
        ∀ id, (caches.cache ns).BestMatch P s.stores iter parts id →
          id = EntryId.derive P.newV5 parts) := by
  have hI := backed_run hrun ns
  refine ⟨handleGet_eq hI hiter hfind, fun hdel => ?_, fun hor => ?_⟩
  · by_contra hno
    rw [not_or] at hno
    obtain ⟨hpend, hbest⟩ := hno
    refine hbest fun id hid => ?_
    obtain ⟨hit, rfl, rfl⟩ := Option.map_eq_some_iff.mp
      (((caches.cache ns).bestMatch_iff P hfind id).mp hid)
    by_contra hne
    exact not_delMatchesGet hI hiter hfind hpend hne hdel
  · cases hpend : s.pending (ns, EntryId.derive P.newV5 parts) with
    | none => exact delMatchesGet_of_none hfind hpend
    | some value =>
      refine delMatchesGet_of_shadow hfind hpend fun hit hhit => ?_
      refine hor.resolve_left (by simp [hpend]) hit.id ?_
      exact ((caches.cache ns).bestMatch_iff P hfind hit.id).mpr (by simp [hhit])

omit [LinearOrder R] in
/-- A `Set` that finds the queue empty is accepted. -/
theorem handleSet_of_empty {value : Arc} (hqueue : s.queue = []) (hcapacity : 0 < capacity) :
    s.handleSet P capacity ns parts value =
      (⟨s.pending.insert (Sequential.slotOf P.newV5 ns parts) value,
        [⟨ns, EntryId.derive P.newV5 parts, parts, rfl, value⟩], s.stores, s.clock + 1⟩,
        .accepted true) := by
  simp [Sequential.handleSet, hqueue, hcapacity, Sequential.slotOf]

/-- A `Set` that finds the queue empty is stored by the next job. -/
theorem set_stored {value : Arc} {entry : VectorEntry R} {stores : Stores R}
    (hrun : SequentialRun P caches capacity h s) (hqueue : s.queue = []) (hcapacity : 0 < capacity)
    (hfresh : s.Fresh value) (hbirth : value.birth = s.clock)
    (hprepare : (caches.cache ns).prepare P parts = .ok entry)
    (hcommit : (caches.cache ns).commit P s.stores entry value.bytes = (stores, .ok ())) :
    ∃ h', SequentialRun P caches capacity h'
        ⟨Function.update s.pending (Sequential.slotOf P.newV5 ns parts) none, [], stores,
          s.clock + 1⟩ ∧
      h'.length = h.length + 2 := by
  obtain ⟨object, hrun⟩ := hrun
  have hholds : (s.pending.insert (Sequential.slotOf P.newV5 ns parts) value).holds
      (Sequential.slotOf P.newV5 ns parts) value = true := PendingWrites.holds_insert
  have h₁ := hrun.next (a := .set ns parts value) trivial (.set hfresh hbirth)
  rw [handleSet_of_empty hqueue hcapacity] at h₁
  have h₂ := h₁.next trivial (.job rfl (runJob_of_holds hprepare hholds hcommit))
  simp only [PendingWrites.insert, WriteJob.slot, Sequential.slotOf, Function.update_idem] at h₂
  exact ⟨_, ⟨object, h₂⟩, by simp⟩

open Core.Sample (platform small one both empty entry)

namespace Sample

/-- Every namespace has the small cache. -/
def everywhere : Caches ℚ := ⟨fun ns => { small with ns }, fun _ => rfl⟩

/-- The daemon, one request after the other. -/
abbrev Serial := Sequential ℚ platform.newV5

/-- What it did. -/
abbrev SerialLog := History Serial (SequentialAction platform.newV5)

/-- The stores after these parts are set. -/
def storesOf (parts : Parts) : Stores ℚ := (small.set platform empty parts [1]).1

/-- These parts are set and stored. -/
def stored (parts : Parts) : Serial := ⟨fun _ => none, [], storesOf parts, 1⟩

/-- Then `one` is set. -/
def setAfter (parts : Parts) : Serial :=
  ((stored parts).handleSet platform writeQueueCapacity small.ns one ⟨0, [2], 1⟩).1

theorem run_setAfter (parts : Parts)
    (hprepare : small.prepare platform parts = .ok (entry parts))
    (hcommit : small.commit platform empty (entry parts) [1] = (storesOf parts, .ok ())) :
    ∃ h : SerialLog, SequentialRun platform everywhere writeQueueCapacity h (setAfter parts) ∧
      h.length = 3 := by
  have h₀ : SequentialRun platform everywhere writeQueueCapacity [] _ := ⟨fun _ _ => none, .start⟩
  have hprepare : (everywhere.cache small.ns).prepare platform parts = .ok (entry parts) := hprepare
  have hcommit : (everywhere.cache small.ns).commit platform empty (entry parts)
      (Arc.bytes ⟨0, [1], 0⟩) = (storesOf parts, .ok ()) := hcommit
  obtain ⟨h, ⟨object, hrun⟩, hlen⟩ :=
    set_stored h₀ rfl (by decide) (by simp [Sequential.Fresh]) rfl hprepare hcommit
  rw [Function.update_eq_self_iff.mpr rfl] at hrun
  have hnext := hrun.next (a := .set small.ns one ⟨0, [2], 1⟩) trivial
    (.set (by simp [Sequential.Fresh]) rfl)
  exact ⟨_, ⟨object, hnext⟩, by simp [hlen]⟩

end Sample

/-- `one` is set and stored, and set again: the shadow and the match are of one id. -/
theorem del_matches_get_again : ∃ h : Sample.SerialLog,
    SequentialRun platform Sample.everywhere writeQueueCapacity h (Sample.setAfter one) ∧
      h.length = 3 ∧
        DelMatchesGet platform Sample.everywhere (Sample.setAfter one) small.ns one
          [(EntryId.derive platform.newV5 one, entry one)] := by
  obtain ⟨h, hrun, hlen⟩ := Sample.run_setAfter one rfl rfl
  obtain ⟨hit, hfind, hid⟩ := small.exists_hit platform Core.Sample.match_one
  have hfind : (Sample.everywhere.cache small.ns).findMatch platform (Sample.setAfter one).stores _
      one = .ok (some hit) := hfind
  refine ⟨h, hrun, hlen, (del_matches_get_iff hrun Core.Sample.enumerates_one hfind).2.mpr
    (.inr fun id hbest => ?_)⟩
  have hbest := (Cache.bestMatch_iff _ _ hfind id).mp hbest
  simpa [hid] using hbest.symm

/-- **A `Del` may remove two entries.** `both` is set and stored, and then `one` is set: a `Get` of
`one` is served from its shadow, and a `Del` removes the shadow and `both`. -/
theorem del_removes_two :
    ¬ ∀ (h : Sample.SerialLog) (s : Sample.Serial) (ns : Namespace) (parts : Parts)
      (iter : List (EntryId × VectorEntry ℚ)) (found : Option (ScoredHit ℚ)),
      SequentialRun platform Sample.everywhere writeQueueCapacity h s →
        Enumerates iter (s.stores.vector.entries ns) →
          (Sample.everywhere.cache ns).findMatch platform s.stores iter parts = .ok found →
            DelMatchesGet platform Sample.everywhere s ns parts iter := by
  intro hall
  obtain ⟨h, hrun, -⟩ := Sample.run_setAfter both rfl rfl
  have hmatch : (small.findMatch platform (Sample.storesOf both)
      [(EntryId.derive platform.newV5 both, entry both)] one).map (Option.map ScoredHit.id) =
        .ok (some (EntryId.derive platform.newV5 both)) := by
    simp only [entry, Core.Sample.derive_both]
    decide +kernel
  obtain ⟨hit, hfind, hid⟩ := small.exists_hit platform hmatch
  have hfind : (Sample.everywhere.cache small.ns).findMatch platform (Sample.setAfter both).stores _
      one = .ok (some hit) := hfind
  have hiter : Enumerates [(EntryId.derive platform.newV5 both, entry both)]
      ((Sample.setAfter both).stores.vector.entries small.ns) :=
    Core.Sample.enumerates_set rfl (s := empty) rfl .empty rfl
  refine not_delMatchesGet (backed_run hrun small.ns) hiter hfind ?_ ?_
    (hall _ _ _ _ _ _ hrun hiter hfind)
  · rw [Sample.setAfter, handleSet_of_empty rfl (by decide)]
    simp [PendingWrites.insert, Sequential.slotOf]
  · rw [hid]
    exact Core.Sample.derive_ne

end Semisweet.Daemon
