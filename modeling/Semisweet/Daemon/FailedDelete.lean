import Semisweet.Core.Faults
import Semisweet.Daemon.Sequential
import Semisweet.Daemon.Stages

/-!
# A delete that fails

`handle_del` (`src/daemon/conn.rs`) removes the shadow of the exact id first, "so the delete both
wins over a pending hit and counts as a real deletion", and then runs `Cache::delete` on the
inference pool. When that fails the handler answers an error, and the shadow stays removed: a
write that was acknowledged is not served any more, and its job, which goes by the shadow, skips.
`handle_set` takes its shadow back when the queue is full.

## The model

A `Del` on a daemon in any state, with the calls along the way: the registry, the lock of the
shadow buffer, the inference pool, the extractor, the embedder and the stores may each fail. A
panic of the closure that the pool runs is answered like an error `DaemonShutdown` of the call
that panics.

## What is proved

* `handleDelFaulty_answers` — where nothing fails this is the `handle_del` of `Sequential`.
* `handleDelFaulty_error` — what a failed `Del` changes, when it deletes nothing: the shadow.
* `failed_del_iff` — it changes nothing, if and only if it does not come to the shadow buffer or
  finds no shadow there; `failed_del_drops_write`, an acknowledged write that it loses.
-/

namespace Semisweet.Daemon

open Semisweet.Core Semisweet.Foundations Semisweet.Protocol

variable {R : Type} [Field R]

/-- How the calls along `handle_del` go. -/
structure DelCalls (R : Type) [Field R] where
  /-- The registry's lock is poisoned. -/
  registryPoisoned : Bool
  /-- The namespace of the entry that is registered under the name. -/
  entry : Option Namespace
  /-- The lock of the shadow buffer is poisoned. -/
  pendingPoisoned : Bool
  /-- The pool drops the closure, and does not run it. -/
  dropped : Bool
  /-- What the extractor answers. -/
  extract : String → Bool → Except Error (Finset Entity)
  /-- What the embedder answers. -/
  embedQuery : String → Except Error (Embedding R)
  /-- What goes wrong with the stores. -/
  faults : Faults

namespace DelCalls

variable (calls : DelCalls R)

/-- `DaemonState::resolve`. -/
def resolve : Except Error (Option Namespace) :=
  if calls.registryPoisoned then .error (.daemon "registry lock poisoned") else .ok calls.entry

/-- `PendingWrites::lock`. -/
def lock : Except Error Unit :=
  if calls.pendingPoisoned then .error (.daemon "pending-writes lock poisoned") else .ok ()

/-- The cache of the namespace, as it answers this request. -/
def cache (cache : Cache R) : Cache R :=
  { cache with extract := calls.extract, embedQuery := calls.embedQuery }

/-- The request comes to the shadow buffer, and finds it unlocked. -/
structure Reaches (query : String) (keys : List String) (context : Option String)
    (name : Namespace) (parts : Parts) : Prop where
  /-- The namespace is registered. -/
  resolve : calls.resolve = .ok (some name)
  /-- The text is valid. -/
  reconstruct : Protocol.reconstruct query keys context = .ok parts
  /-- The lock is not poisoned. -/
  lock : calls.lock = .ok ()

end DelCalls

namespace Sequential

variable [LinearOrder R] (P : Platform R) (caches : Caches R) (self : Sequential R P.newV5)

/-- `handle_del`. -/
def handleDelFaulty (calls : DelCalls R) (ns query : String) (keys : List String)
    (context : Option String) (iter : List (EntryId × VectorEntry R)) :
    Sequential R P.newV5 × Response :=
  match calls.resolve with
  | .error e => (self, backendError e)
  | .ok none => (self, .error (.unknownNamespace ns))
  | .ok (some name) =>
    match reconstruct query keys context with
    | .error response => (self, response)
    | .ok parts =>
      match calls.lock with
      | .error e => (self, backendError e)
      | .ok () =>
        let (pending, removed) := self.pending.remove (slotOf P.newV5 name parts)
        if calls.dropped then ({ self with pending }, backendError .daemonShutdown)
        else
          let cache := calls.cache (caches.cache name)
          let (stores, result) := cache.deleteFaulty P calls.faults self.stores iter parts
          ({ self with pending, stores },
            match result with
            | .ok deleted => .deleted (removed || deleted)
            | .error e => backendError e)

/-- **Nothing is changed**: the shadows and the stores are as before, and a write that was
acknowledged and has its shadow is still served and still committed. -/
structure ChangesNothing (before after : Sequential R P.newV5) : Prop where
  /-- The shadows are as before. -/
  pending : after.pending = before.pending
  /-- The stores are as before. -/
  stores : after.stores = before.stores
  /-- A `Get` is served from the shadow. -/
  served : ∀ job ∈ before.queue, before.pending job.slot = some job.value → ∀ iter,
    after.handleGet P caches job.ns job.parts iter = .value (some job.value.bytes)
  /-- The job commits, if its calls succeed. -/
  commits : ∀ job ∈ before.queue, before.pending job.slot = some job.value → ∀ entry stores,
    (caches.cache job.ns).prepare P job.parts = .ok entry →
      (caches.cache job.ns).commit P before.stores entry job.value.bytes = (stores, .ok ()) →
        after.runJob P caches job =
          ({ after with stores, pending := Function.update after.pending job.slot none }, .ok ())

end Sequential

variable [LinearOrder R] {P : Platform R} {caches : Caches R} {s : Sequential R P.newV5}
  {calls : DelCalls R} {ns query : String} {keys : List String} {context : Option String}
  {iter : List (EntryId × VectorEntry R)} {name : Namespace} {parts : Parts}

/-- What is pending is served and is committed. -/
theorem changesNothing_of_eq {s' : Sequential R P.newV5} (hpending : s'.pending = s.pending)
    (hstores : s'.stores = s.stores) : Sequential.ChangesNothing P caches s s' where
  pending := hpending
  stores := hstores
  served job _ hshadow iter := by
    have hslot : Sequential.slotOf P.newV5 job.ns job.parts = job.slot := by
      rw [Sequential.slotOf, WriteJob.slot, job.id_eq]
    unfold Sequential.handleGet
    rw [hslot, PendingWrites.get, hpending, hshadow]
  commits job _ hshadow entry stores hprepare hcommit := by
    have hholds : s'.pending.holds job.slot job.value = true :=
      PendingWrites.holds_iff.mpr ⟨job.value, hpending ▸ hshadow, rfl⟩
    exact runJob_of_holds hprepare hholds (hstores ▸ hcommit)

/-- **Where nothing fails**, this is the `handle_del` of a daemon without failures. -/
theorem handleDelFaulty_answers (hreach : calls.Reaches query keys context name parts)
    (hrun : calls.dropped = false) (hextract : calls.extract = (caches.cache name).extract)
    (hembed : calls.embedQuery = (caches.cache name).embedQuery) (hfaults : calls.faults = .none) :
    s.handleDelFaulty P caches calls ns query keys context iter =
      s.handleDel P caches name parts iter := by
  unfold Sequential.handleDelFaulty Sequential.handleDel
  simp only [hreach.resolve, hreach.reconstruct, hreach.lock, hrun, DelCalls.cache, hextract,
    hembed, hfaults, Cache.deleteFaulty_none]
  rfl

omit [LinearOrder R] in
/-- What it comes to is one namespace and one lookup. -/
theorem DelCalls.Reaches.unique {name' : Namespace} {parts' : Parts}
    (h : calls.Reaches query keys context name parts)
    (h' : calls.Reaches query keys context name' parts') : name' = name ∧ parts' = parts := by
  have hname := h'.resolve.symm.trans h.resolve
  have hparts := h'.reconstruct.symm.trans h.reconstruct
  simp only [Except.ok.injEq, Option.some.injEq] at hname hparts
  exact ⟨hname, hparts⟩

/-! ### A `Del` that fails before it deletes -/

section Fails

variable {e : ProtocolError} (hvector : calls.faults.vectorDelete = .none)
  (hobject : calls.faults.objectDelete = .none)
  (herr : (s.handleDelFaulty P caches calls ns query keys context iter).2 = .error e)

include hvector hobject herr

/-- **What a failed `Del` changes** when neither of its deletes fails: nothing, if it does not come
to the shadow buffer, and else the shadow of its id, which it has removed. -/
theorem handleDelFaulty_error :
    ((∀ name parts, ¬ calls.Reaches query keys context name parts) ∧
      (s.handleDelFaulty P caches calls ns query keys context iter).1 = s) ∨
    ∃ name parts, calls.Reaches query keys context name parts ∧
      (s.handleDelFaulty P caches calls ns query keys context iter).1 =
        { s with
          pending := Function.update s.pending (Sequential.slotOf P.newV5 name parts) none } := by
  unfold Sequential.handleDelFaulty at herr ⊢
  split
  · rename_i hresolve
    exact .inl ⟨fun name parts hreach => by simp [hreach.resolve] at hresolve, rfl⟩
  · rename_i hresolve
    exact .inl ⟨fun name parts hreach => by simp [hreach.resolve] at hresolve, rfl⟩
  · rename_i name hresolve
    simp only [hresolve] at herr
    split
    · rename_i hparts
      exact .inl ⟨fun name parts hreach => by simp [hreach.reconstruct] at hparts, rfl⟩
    · rename_i parts hparts
      simp only [hparts] at herr
      split
      · rename_i hlock
        exact .inl ⟨fun name parts hreach => by simp [hreach.lock] at hlock, rfl⟩
      · rename_i hlock
        simp only [hlock] at herr
        refine .inr ⟨name, parts, ⟨hresolve, hparts, hlock⟩, ?_⟩
        simp only [PendingWrites.remove] at herr ⊢
        cases hdropped : calls.dropped with
        | true => rfl
        | false =>
          simp only [hdropped] at herr ⊢
          generalize hdel : (calls.cache (caches.cache name)).deleteFaulty P calls.faults s.stores
            iter parts = result at herr ⊢
          obtain ⟨stores, result⟩ := result
          cases result with
          | ok deleted => cases herr
          | error e =>
            obtain rfl := Cache.deleteFaulty_eq_error hvector hobject hdel
            rfl

/-- A failed `Del` that comes to the shadow buffer removes the shadow. -/
theorem failed_del_eq (hreach : calls.Reaches query keys context name parts) :
    (s.handleDelFaulty P caches calls ns query keys context iter).1 =
      { s with
        pending := Function.update s.pending (Sequential.slotOf P.newV5 name parts) none } := by
  rcases handleDelFaulty_error hvector hobject herr with ⟨hno, -⟩ | ⟨name', parts', hreach', heq⟩
  · exact absurd hreach (hno name parts)
  · obtain ⟨rfl, rfl⟩ := hreach.unique hreach'
    exact heq

theorem failed_del_removes (hreach : calls.Reaches query keys context name parts) :
    (s.handleDelFaulty P caches calls ns query keys context iter).1.pending
      (Sequential.slotOf P.newV5 name parts) = none := by
  rw [failed_del_eq hvector hobject herr hreach]
  exact Function.update_self _ _ _

/-- **What is lost**: a job of the id is still in the queue, and skips. -/
theorem skips_of_failed_del (hreach : calls.Reaches query keys context name parts) {job : WriteJob P.newV5}
    (hslot : job.slot = Sequential.slotOf P.newV5 name parts) {entry : VectorEntry R}
    (hprepare : (caches.cache job.ns).prepare P job.parts = .ok entry) :
    ((s.handleDelFaulty P caches calls ns query keys context iter).1.runJob P caches job) =
      ((s.handleDelFaulty P caches calls ns query keys context iter).1, .ok ()) := by
  rw [failed_del_eq hvector hobject herr hreach, ← hslot]
  simp [Sequential.runJob, hprepare, PendingWrites.holds]

/-- **When a failed `Del` changes nothing.** It is answered with an error, and not because one of
its deletes failed; the shadows and the stores are then as before, and acknowledged writes are
served and committed, if and only if it has not come to the shadow buffer, or has found no shadow
of its id there. -/
theorem failed_del_iff :
    Sequential.ChangesNothing P caches s
        (s.handleDelFaulty P caches calls ns query keys context iter).1 ↔
      ∀ name parts, calls.Reaches query keys context name parts →
        s.pending (Sequential.slotOf P.newV5 name parts) = none := by
  constructor
  · intro hsame name parts hreach
    rw [← hsame.pending]
    exact failed_del_removes hvector hobject herr hreach
  · intro hnone
    rcases handleDelFaulty_error hvector hobject herr with ⟨-, heq⟩ | ⟨name, parts, hreach, heq⟩
    · exact changesNothing_of_eq (by rw [heq]) (by rw [heq])
    · refine changesNothing_of_eq ?_ (by rw [heq])
      rw [heq]
      exact Function.update_eq_self_iff.mpr (hnone name parts hreach).symm

end Fails

open Core.Sample (platform small one both)

namespace Sample

/-- A `Del` whose vector query fails. -/
def timedOut : DelCalls ℚ where
  registryPoisoned := false
  entry := some small.ns
  pendingPoisoned := false
  dropped := false
  extract := small.extract
  embedQuery := small.embedQuery
  faults := { Faults.none with query := some (.vectorStorage "timed out") }

/-- It comes to the shadow of `one`. -/
theorem timedOut_reaches : timedOut.Reaches "q" ["a"] none small.ns one :=
  ⟨rfl, by decide, rfl⟩

/-- It is answered with an error. -/
theorem timedOut_error (s : Serial) :
    (s.handleDelFaulty platform everywhere timedOut "t" "q" ["a"] none []).2 =
      backendError (.vectorStorage "timed out") := by
  unfold Sequential.handleDelFaulty
  rw [timedOut_reaches.resolve]
  simp only [timedOut_reaches.reconstruct, timedOut_reaches.lock]
  rfl

/-- A new daemon. -/
def fresh : Serial := ⟨fun _ => none, [], Stores.fresh fun _ _ => none, 0⟩

/-- These parts are set, and the write is in the queue. -/
def acknowledged (parts : Parts) : Serial :=
  (fresh.handleSet platform writeQueueCapacity small.ns parts ⟨0, [1], 0⟩).1

theorem acknowledged_pending (parts : Parts) :
    (acknowledged parts).pending =
      Function.update fresh.pending (Sequential.slotOf platform.newV5 small.ns parts)
        (some ⟨0, [1], 0⟩) := by
  rw [acknowledged, handleSet_of_empty rfl (by decide)]
  rfl

theorem run_acknowledged (parts : Parts) : ∃ h : SerialLog,
    SequentialRun platform everywhere writeQueueCapacity h (acknowledged parts) := by
  have h₀ : Run (SequentialStep platform everywhere writeQueueCapacity) fresh Always [] fresh :=
    .start
  have h₁ := h₀.next (a := .set small.ns parts ⟨0, [1], 0⟩) trivial
    (.set (by simp [Sequential.Fresh, fresh]) rfl)
  exact ⟨_, _, h₁⟩

end Sample

/-- `both` is set, and a `Del` of `one` whose vector query fails changes nothing. -/
theorem failed_del_iff_both :
    Sequential.ChangesNothing platform Sample.everywhere (Sample.acknowledged both)
      ((Sample.acknowledged both).handleDelFaulty platform Sample.everywhere Sample.timedOut "t" "q"
        ["a"] none []).1 := by
  refine (failed_del_iff rfl rfl (Sample.timedOut_error _)).mpr fun name parts hreach => ?_
  obtain ⟨rfl, rfl⟩ := Sample.timedOut_reaches.unique hreach
  rw [Sample.acknowledged_pending]
  exact Function.update_of_ne (Sample.slot_ne 0 0 [] []).symm _ _

/-- **An acknowledged write may be lost to a failed `Del`.** `one` is set, and its write is in the
queue; the vector query of a `Del` of `one` fails. -/
theorem failed_del_drops_write :
    ¬ ∀ (h : Sample.SerialLog) (s : Sample.Serial) (calls : DelCalls ℚ) (ns query : String)
      (keys : List String) (context : Option String) (iter : List (EntryId × VectorEntry ℚ))
      (e : ProtocolError),
      SequentialRun platform Sample.everywhere writeQueueCapacity h s →
        calls.faults.vectorDelete = .none → calls.faults.objectDelete = .none →
          (s.handleDelFaulty platform Sample.everywhere calls ns query keys context iter).2 =
            .error e →
            Sequential.ChangesNothing platform Sample.everywhere s
              (s.handleDelFaulty platform Sample.everywhere calls ns query keys context iter).1 := by
  intro hall
  obtain ⟨h, hrun⟩ := Sample.run_acknowledged one
  have herr := Sample.timedOut_error (Sample.acknowledged one)
  have hsame := hall h _ Sample.timedOut "t" "q" ["a"] none [] _ hrun rfl rfl herr
  have hremoved := failed_del_removes rfl rfl herr Sample.timedOut_reaches
  rw [hsame.pending, Sample.acknowledged_pending, Function.update_self] at hremoved
  cases hremoved

end Semisweet.Daemon
