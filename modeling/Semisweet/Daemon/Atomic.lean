import Semisweet.Daemon.Sequential

/-!
# Requests as steps in a row

A daemon that completes one request or job before it begins the next does, step by step, what the
interleaved machine of `WriteBehind` does when nobody comes in between: the first connection takes
all the steps of a request, and a worker all the steps of a job. So what holds of every run of the
interleaved machine holds here.

## What is proved

* `set_interleaved`, `get_interleaved`, `del_interleaved`, `job_interleaved` — a request or a job is
  its steps in a row.
* `interleaved_run` — a run of requests and jobs leads to a state that a run of the interleaved
  machine leads to.
-/

namespace Semisweet.Daemon

open Semisweet.Core Semisweet.Foundations Semisweet.Protocol

variable {R : Type} [Field R] {P : Platform R} {caches : Caches R} {capacity : ℕ}
  {s s' : Sequential R P.newV5} {ns : Namespace} {id : EntryId} {parts : Parts}
  {W : Type}

/-! ### The state when nothing is under way -/

/-- The state of the interleaved machine when no request and no job is under way. -/
def Sequential.toState {newV5 : Uuid → List UInt8 → Uuid} (s : Sequential R newV5) (W : Type) :
    State R newV5 W :=
  ⟨s.pending, s.queue, fun _ => .idle, fun _ => .waiting, fun slot => s.stores.object slot.1 slot.2,
    fun slot => s.stores.vector.entries slot.1 slot.2, s.clock⟩

/-- A handler that is done leaves nothing under way. -/
@[simp] theorem Sequential.toState_idle (c : ℕ) :
    (s.toState W).toHandler c .idle = s.toState W := by
  simp [State.toHandler, Sequential.toState]

/-- And neither does a worker. -/
@[simp] theorem Sequential.toState_waiting [DecidableEq W] (w : W) :
    (s.toState W).toWorker w .waiting = s.toState W := by
  simp [State.toWorker, Sequential.toState]

/-- A map of slots, one entry of which is written. -/
theorem update_slot {V : Type} {f g : Namespace → EntryId → V} {v : V}
    (hns : g ns = Function.update (f ns) id v) (hother : ∀ ns', ns' ≠ ns → g ns' = f ns') :
    (fun slot : Slot => g slot.1 slot.2) =
      Function.update (fun slot : Slot => f slot.1 slot.2) (ns, id) v := by
  funext slot
  obtain ⟨ns', id'⟩ := slot
  by_cases hn : ns' = ns
  · subst hn
    by_cases hi : id' = id
    · subst hi
      simp [hns]
    · simp [hns, hi]
  · simp [hother ns' hn, hn]

/-- An index row is removed. -/
theorem Sequential.toState_unindexed (s : Sequential R P.newV5) (ns : Namespace) (id : EntryId) :
    Sequential.toState
        { s with stores := { s.stores with vector := s.stores.vector.delete ns id } } W =
      { s.toState W with vector := Function.update (s.toState W).vector (ns, id) none } := by
  obtain ⟨hentries, -, hother⟩ := MemoryVectorStore.delete_spec s.stores.vector ns id
  have hvector := update_slot hentries fun ns' hne => by
    simp [MemoryVectorStore.entries, hother ns' hne]
  simp [Sequential.toState, hvector]

/-- An index row is written. -/
theorem Sequential.toState_indexed {entry : VectorEntry R} {vector : MemoryVectorStore R}
    (hups : s.stores.vector.upsert P ns entry = .ok vector) :
    Sequential.toState { s with stores := { s.stores with vector } } W =
      { s.toState W with
        vector := Function.update (s.toState W).vector (ns, entry.id) (some entry) } := by
  obtain ⟨hentries, -, hother⟩ := MemoryVectorStore.upsert_eq_ok P hups
  have hvector := update_slot hentries fun ns' hne => by
    simp [MemoryVectorStore.entries, hother ns' hne]
  simp [Sequential.toState, hvector]

/-- A payload is removed. -/
theorem Sequential.toState_unstored (s : Sequential R P.newV5) (ns : Namespace) (id : EntryId) :
    Sequential.toState
        { s with stores := { s.stores with object := s.stores.object.delete ns id } } W =
      { s.toState W with object := Function.update (s.toState W).object (ns, id) none } := by
  have hns : s.stores.object.delete ns id ns = Function.update (s.stores.object ns) id none := by
    simp [ObjectStore.delete]
  have hobject := update_slot hns fun ns' hne => by simp [ObjectStore.delete, hne]
  simp [Sequential.toState, hobject]

/-- A payload is written. -/
theorem Sequential.toState_stored (s : Sequential R P.newV5) (ns : Namespace) (id : EntryId)
    (value : List UInt8) :
    Sequential.toState
        { s with stores := { s.stores with object := s.stores.object.put ns id value } } W =
      { s.toState W with
        object := Function.update (s.toState W).object (ns, id) (some value) } := by
  have hns : s.stores.object.put ns id value ns =
      Function.update (s.stores.object ns) id (some value) := by
    simp [ObjectStore.put]
  have hobject := update_slot hns fun ns' hne => by simp [ObjectStore.put, hne]
  simp [Sequential.toState, hobject]

/-! ### One request or job -/

variable [DecidableEq W]

/-- Steps of the interleaved machine, one after the other. -/
abbrev Steps (capacity : ℕ) : State R P.newV5 W → State R P.newV5 W → Prop :=
  Relation.ReflTransGen fun s s' => ∃ a, Step capacity s a s'

/-- **A `Set` is its steps in a row.** -/
theorem set_interleaved {value : Arc} (hfresh : s.Fresh value) (hbirth : value.birth = s.clock) :
    Steps capacity (s.toState W) ((s.handleSet P capacity ns parts value).1.toState W) := by
  have hfresh : (s.toState W).Fresh value.addr := by
    refine ⟨hfresh.1, fun p job hjob => ?_⟩
    cases p with
    | conn c => cases hjob
    | queued i => exact hfresh.2 job (List.mem_of_getElem? hjob)
    | worker w => cases hjob
  let job : WriteJob P.newV5 := ⟨ns, EntryId.derive P.newV5 parts, parts, rfl, value⟩
  let s₁ : Sequential R P.newV5 :=
    { s with pending := s.pending.insert job.slot value, clock := s.clock + 1 }
  have hset : Step capacity (s.toState W) (.set 0 job)
      ((s₁.toState W).toHandler 0 (.shadowed job)) := .set rfl hfresh hbirth
  refine .head ⟨_, hset⟩ ?_
  unfold Sequential.handleSet
  by_cases hroom : s.queue.length < capacity
  · rw [if_pos hroom]
    let s₂ : Sequential R P.newV5 := { s₁ with queue := s.queue ++ [job] }
    have hpush : Step capacity ((s₁.toState W).toHandler 0 (.shadowed job)) (.push 0 job)
        (((s₂.toState W).toHandler 0 (.shadowed job)).toHandler 0 .idle) := .push rfl hroom
    rw [State.toHandler_toHandler, Sequential.toState_idle] at hpush
    exact .single ⟨_, hpush⟩
  · rw [if_neg hroom]
    let s₂ : Sequential R P.newV5 := { s₁ with pending := (s₁.pending.removeIf job.slot value).1 }
    have hreject : Step capacity ((s₁.toState W).toHandler 0 (.shadowed job)) (.reject 0 job)
        (((s₁.toState W).toHandler 0 (.shadowed job)).toHandler 0 (.rejected job)) :=
      .reject rfl (not_lt.mp hroom)
    have hunshadow : Step capacity ((s₁.toState W).toHandler 0 (.rejected job)) (.unshadow 0 job)
        (((s₂.toState W).toHandler 0 (.rejected job)).toHandler 0 .idle) := .unshadow rfl
    rw [State.toHandler_toHandler] at hreject
    rw [State.toHandler_toHandler, Sequential.toState_idle] at hunshadow
    exact .head ⟨_, hreject⟩ (.single ⟨_, hunshadow⟩)

/-- **A job is its steps in a row.** -/
theorem job_interleaved (w : W) {job : WriteJob P.newV5} {queue : List (WriteJob P.newV5)}
    (hqueue : s.queue = job :: queue)
    (hrun : { s with queue }.runJob P caches job = (s', .ok ())) :
    Steps capacity (s.toState W) (s'.toState W) := by
  obtain ⟨entry, hprepare, hend⟩ := runJob_eq_ok hrun
  have hworker : ∀ (t : State R P.newV5 W) y, (t.toWorker w y).worker w = y := fun t y => by
    simp [State.toWorker]
  let prepared := job.prepared P (caches.cache job.ns) hprepare
  let s₁ : Sequential R P.newV5 := { s with queue }
  have hrecv : Step capacity (s.toState W) (.recv w job)
      ((s₁.toState W).toWorker w (.preparing job)) := .recv rfl hqueue
  have hprepared : Step capacity ((s₁.toState W).toWorker w (.preparing prepared.job))
      (.prepare w prepared.job .ok)
      (((s₁.toState W).toWorker w (.preparing prepared.job)).toWorker w (.checking prepared)) :=
    .prepared (hworker _ _)
  have hcheck : Step capacity ((s₁.toState W).toWorker w (.checking prepared))
      (.check w prepared.job)
      (((s₁.toState W).toWorker w (.checking prepared)).toWorker w
        (if s₁.pending.holds job.slot job.value then .putting prepared else .waiting)) :=
    .check (hworker _ _)
  rw [State.toWorker_toWorker] at hprepared hcheck
  refine .head ⟨_, hrecv⟩ (.head ⟨_, hprepared⟩ (.head ⟨_, hcheck⟩ ?_))
  rcases hend with ⟨hholds, rfl⟩ | ⟨hholds, stores, hcommit, rfl⟩
  · rw [if_neg (by simp [s₁, hholds]), Sequential.toState_waiting]
  · rw [if_pos hholds]
    obtain ⟨hups, hobject⟩ := (caches.cache job.ns).commit_eq_ok P hcommit
    rw [caches.ns_eq] at hups hobject
    let s₂ : Sequential R P.newV5 :=
      { s₁ with stores := { s.stores with
          object := s.stores.object.put job.ns entry.id job.value.bytes } }
    let s₃ : Sequential R P.newV5 :=
      { s₂ with stores := { s₂.stores with vector := stores.vector } }
    have hups : s₂.stores.vector.upsert P job.ns entry = .ok stores.vector := hups
    have hput : Step capacity ((s₁.toState W).toWorker w (.putting prepared))
        (.put w prepared.job .ok)
        ((State.toWorker { s₁.toState W with
            object := Function.update (s₁.toState W).object (job.ns, entry.id)
              (some job.value.bytes) } w
          (.putting prepared)).toWorker w (.indexing prepared)) :=
      .put (hworker _ _) (fun _ => rfl : Outcome.Allows .ok true)
    have hupsert : Step capacity ((s₂.toState W).toWorker w (.indexing prepared))
        (.upsert w prepared.job .ok)
        ((State.toWorker { s₂.toState W with
            vector := Function.update (s₂.toState W).vector (job.ns, entry.id) (some entry) } w
          (.indexing prepared)).toWorker w (.cleaning job)) :=
      .upsert (hworker _ _) (fun _ => rfl : Outcome.Allows .ok true)
    have hcleanup : Step capacity ((s₃.toState W).toWorker w (.cleaning job)) (.cleanup w job)
        (((Sequential.toState { s₃ with
            pending := (s₃.pending.removeIf job.slot job.value).1 } W).toWorker w
          (.cleaning job)).toWorker w .waiting) := .cleanup (hworker _ _)
    rw [State.toWorker_toWorker, ← Sequential.toState_stored] at hput
    rw [State.toWorker_toWorker, ← Sequential.toState_indexed hups] at hupsert
    rw [State.toWorker_toWorker, Sequential.toState_waiting] at hcleanup
    have hstores : stores = s₃.stores := by
      obtain ⟨vector, object⟩ := stores
      exact congrArg (Stores.mk vector) hobject
    rw [hstores]
    exact .head ⟨_, hput⟩ (.head ⟨_, hupsert⟩ (.single ⟨_, hcleanup⟩))

variable [LinearOrder R] {iter : List (EntryId × VectorEntry R)}

/-- **A `Get` is its steps in a row**, which change nothing. -/
theorem get_interleaved {value : Option (List UInt8)} (hI : s.stores.Backed ns)
    (hiter : Enumerates iter (s.stores.vector.entries ns))
    (hget : s.handleGet P caches ns parts iter = .value value) :
    Steps capacity (s.toState W) (s.toState W) := by
  let slot := Sequential.slotOf P.newV5 ns parts
  unfold Sequential.handleGet at hget
  cases hpend : s.pending.get slot with
  | some shadow =>
    have hhit : Step capacity (s.toState W) (.getHit 0 slot shadow) (s.toState W) :=
      .getHit rfl hpend
    exact .single ⟨_, hhit⟩
  | none =>
    have hmiss : Step capacity (s.toState W) (.getMiss 0 slot)
        ((s.toState W).toHandler 0 (.searching slot)) := .getMiss rfl hpend
    refine .head ⟨_, hmiss⟩ ?_
    simp only [slot] at hpend
    cases hfind : (caches.cache ns).findMatch P s.stores iter parts with
    | error e =>
      obtain ⟨error, herror⟩ := exists_backendError e
      simp [hpend, Cache.get, hfind, bind, Except.bind, herror] at hget
    | ok found =>
      cases found with
      | none =>
        have hnone : Step capacity ((s.toState W).toHandler 0 (.searching slot)) (.getFind 0 none)
            (((s.toState W).toHandler 0 (.searching slot)).toHandler 0 .idle) :=
          .getFind rfl fun _ hm => by cases hm
        rw [State.toHandler_toHandler, Sequential.toState_idle] at hnone
        exact .single ⟨_, hnone⟩
      | some hit =>
        let m : Slot := (ns, hit.id)
        have hfound : Step capacity ((s.toState W).toHandler 0 (.searching slot))
            (.getFind 0 (some m))
            (((s.toState W).toHandler 0 (.searching slot)).toHandler 0 (.loading m)) := by
          refine .getFind rfl fun m' hm => ?_
          obtain rfl := Option.some.inj hm
          exact ⟨rfl, (match_stored hI hiter hfind).1⟩
        have hload : Step capacity ((s.toState W).toHandler 0 (.loading m)) (.getLoad 0)
            (((s.toState W).toHandler 0 (.loading m)).toHandler 0 .idle) := .getLoad rfl
        rw [State.toHandler_toHandler] at hfound
        rw [State.toHandler_toHandler, Sequential.toState_idle] at hload
        exact .head ⟨_, hfound⟩ (.single ⟨_, hload⟩)

/-- **A `Del` is its steps in a row.** -/
theorem del_interleaved {found : Option (ScoredHit R)} (hI : s.stores.Backed ns)
    (hiter : Enumerates iter (s.stores.vector.entries ns))
    (hfind : (caches.cache ns).findMatch P s.stores iter parts = .ok found) :
    Steps capacity (s.toState W) ((s.handleDel P caches ns parts iter).1.toState W) := by
  let slot := Sequential.slotOf P.newV5 ns parts
  let removed := (s.pending.remove slot).2
  let s₁ : Sequential R P.newV5 := { s with pending := Function.update s.pending slot none }
  have hdel : Step capacity (s.toState W) (.del 0 slot)
      ((s₁.toState W).toHandler 0 (.deleting slot removed)) := .del rfl
  refine .head ⟨_, hdel⟩ ?_
  rw [handleDel_eq hfind]
  cases found with
  | none =>
    have hnone : Step capacity ((s₁.toState W).toHandler 0 (.deleting slot removed))
        (.delFind 0 none)
        (((s₁.toState W).toHandler 0 (.deleting slot removed)).toHandler 0 .idle) :=
      .delFind rfl fun _ hm => by cases hm
    rw [State.toHandler_toHandler, Sequential.toState_idle] at hnone
    exact .single ⟨_, hnone⟩
  | some hit =>
    let m : Slot := (ns, hit.id)
    let s₂ : Sequential R P.newV5 :=
      { s₁ with stores := { s.stores with vector := s.stores.vector.delete ns hit.id } }
    have hfound : Step capacity ((s₁.toState W).toHandler 0 (.deleting slot removed))
        (.delFind 0 (some m))
        (((s₁.toState W).toHandler 0 (.deleting slot removed)).toHandler 0
          (.unindexing m removed)) := by
      refine .delFind rfl fun m' hm => ?_
      obtain rfl := Option.some.inj hm
      exact ⟨rfl, (match_stored hI hiter hfind).1⟩
    have hunindex : Step capacity ((s₁.toState W).toHandler 0 (.unindexing m removed))
        (.delVector 0 m .ok)
        ((State.toHandler { s₁.toState W with
            vector := Function.update (s₁.toState W).vector m none } 0
          (.unindexing m removed)).toHandler 0 (.unstoring m removed)) :=
      .delVector rfl (fun _ => rfl : Outcome.Allows .ok true)
    have hunstore : Step capacity ((s₂.toState W).toHandler 0 (.unstoring m removed))
        (.delObject 0 m .ok)
        ((State.toHandler { s₂.toState W with
            object := Function.update (s₂.toState W).object m none } 0
          (.unstoring m removed)).toHandler 0 .idle) :=
      .delObject rfl (fun _ => rfl : Outcome.Allows .ok true)
    rw [State.toHandler_toHandler] at hfound
    rw [State.toHandler_toHandler, ← Sequential.toState_unindexed] at hunindex
    rw [State.toHandler_toHandler, ← Sequential.toState_unstored,
      Sequential.toState_idle] at hunstore
    exact .head ⟨_, hfound⟩ (.head ⟨_, hunindex⟩ (.single ⟨_, hunstore⟩))

/-! ### Runs -/

/-- A request or a job is a sequence of steps of the interleaved machine. -/
theorem interleaved_step (w : W) {a : SequentialAction P.newV5} (hI : ∀ ns, s.stores.Backed ns)
    (hstep : SequentialStep P caches capacity s a s') :
    Steps capacity (s.toState W) (s'.toState W) := by
  cases hstep with
  | set hfresh hbirth => exact set_interleaved hfresh hbirth
  | get hiter hget => exact get_interleaved (hI _) hiter hget
  | @del ns parts iter b hiter hdel =>
    cases hfind : (caches.cache ns).findMatch P s.stores iter parts with
    | error e =>
      obtain ⟨error, herror⟩ := exists_backendError e
      simp [Sequential.handleDel, Cache.delete, hfind, herror] at hdel
    | ok found => exact del_interleaved (hI ns) hiter hfind
  | job hqueue hjob => exact job_interleaved w hqueue hjob

/-- **A daemon that takes requests and jobs one after the other is the daemon**: each of its states
is reached by a run of the interleaved machine. -/
theorem interleaved_run [Nonempty W] {h : History (Sequential R P.newV5) (SequentialAction P.newV5)}
    (hrun : SequentialRun P caches capacity h s) :
    ∃ h', DaemonRun capacity Always h' (s.toState W) := by
  obtain ⟨w⟩ := ‹Nonempty W›
  obtain ⟨object, hrun⟩ := hrun
  refine hrun.invariant (I := fun _ s => ∃ h', DaemonRun capacity Always h' (s.toState W)) ?_
    fun h s a s' hr hI _ hstep => ?_
  · exact ⟨[], _, _, .start⟩
  · obtain ⟨h', object', vector', hrun'⟩ := hI
    obtain ⟨h'', hrun''⟩ :=
      hrun'.exists_of_reflTransGen (interleaved_step w (fun ns => backed_run ⟨object, hr⟩ ns) hstep)
    exact ⟨h'', object', vector', hrun''⟩

end Semisweet.Daemon
