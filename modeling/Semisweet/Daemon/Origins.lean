import Semisweet.Daemon.Isolation

/-!
# Where a served value comes from

The disk outlives the daemon. A new daemon finds payloads of earlier ones there, and of jobs of
earlier ones that put their payload and never indexed it. A `Get` is served from the shadow buffer
of its name, or through its index (`handle_get`, `src/daemon/conn.rs`), and a job indexes an entry
after its payload is put (`Cache::commit`, `src/cache.rs`). Names that trim alike have an index and
a buffer each, and one directory.

## The model

The machine of `Isolation`, on a disk that has anything: any names and requests, any calls on the
backends that fail, with or without effect, and any panics, in any order.

## What is proved

* `reaction_sourced` — what a step leaves in the entry and in the task, and what it puts on the
  disk, was set for its slot, if what it found was.
* `origins_run` — what an index leads to was set for that very slot in the run.
* `served_origin` — and so what a `Get` is served was set, in the run, for the slot it is served
  from, under a name of the same namespace. A payload that was left behind is never served.
-/

namespace Semisweet.Daemon

open Semisweet.Core Semisweet.Foundations Semisweet.Protocol

variable {R : Type} [Field R]

/-! ### What was set, and what is served -/

/-- The step is a `Set` of the payload for the slot: under a registered name of its namespace, of
parts that have its id. -/
inductive Sets (P : Platform R) (slot : Slot) (payload : List UInt8) :
    Tenancy R → TenancyAction R → Prop
  /-- `handle_set`. -/
  | intro {s : Tenancy R} {x : Agent} {name query : String} {keys : List String}
      {context : Option String} {value : Arc} {parts : Parts} :
      s.registry name ≠ none → Namespace.new name = .ok slot.1 →
      reconstruct query keys context = .ok parts → EntryId.derive P.newV5 parts = slot.2 →
      value.bytes = payload → Sets P slot payload s (.op x name (.set query keys context value))

/-- The payload was set for the slot. -/
def SetIn (P : Platform R) (h : History (Tenancy R) (TenancyAction R)) (slot : Slot)
    (payload : List UInt8) : Prop :=
  ∃ s act, (s, act) ∈ h ∧ Sets P slot payload s act

/-- The id a step of a `Get` serves from: of the request, from the shadow buffer, and of the match,
from the disk. -/
def Tenancy.servedId (P : Platform R) (s : Tenancy R) : TenancyAction R → Option EntryId
  | .op _ _ (.get query keys context) =>
    (reconstruct query keys context).toOption.map (EntryId.derive P.newV5)
  | .op x _ (.getLoad _) =>
    match s.task x with
    | .loading _ id => some id
    | _ => none
  | _ => none

/-! ### What leads to a payload -/

section Sourced

variable (P : Platform R) (was : Slot → List UInt8 → Prop) (object : ObjectStore)

/-- The payload of the slot is no other. -/
def Clean (slot : Slot) : Prop := ∀ payload, object slot.1 slot.2 = some payload → was slot payload

/-- The job's value was set for its slot. -/
def NamedJob.Sourced (job : NamedJob) : Prop :=
  ∀ ns, Namespace.new job.name = .ok ns → was (ns, EntryId.derive P.newV5 job.parts) job.value.bytes

/-- A shadow is of a value that was set for its slot, and an entry leads to a clean slot. -/
structure NamespaceEntry.Sourced (e : NamespaceEntry R) : Prop where
  /-- Shadows. -/
  shadows : ∀ slot value, e.pending slot = some value → was slot value.bytes
  /-- Entries. -/
  indexed : ∀ id entry, e.vector.entries e.cache.ns id = some entry →
    entry.id = id ∧ Clean was object (e.cache.ns, id)

/-- A job that is about to put has a value that was set, and who is about to index or to load is at
a clean slot. -/
def Task.Sourced : Task R → Prop
  | .shadowed job | .preparing job => job.Sourced P was
  | .checking job entry | .putting job entry =>
    job.Sourced P was ∧ entry.id = EntryId.derive P.newV5 job.parts
  | .indexing job entry => ∀ ns, Namespace.new job.name = .ok ns → Clean was object (ns, entry.id)
  | .loading name id => ∀ ns, Namespace.new name = .ok ns → Clean was object (ns, id)
  | _ => True

/-- What is put was set for its slot. -/
def DiskCall.Sourced : DiskCall → Prop
  | .put ns id value _ => was (ns, id) value
  | _ => True

end Sourced

section Step

variable {P : Platform R} {was was' : Slot → List UInt8 → Prop} {object object' : ObjectStore}
  {slot : Slot} {payload : List UInt8}

/-- What is there after a put was there, or is what was put. -/
theorem put_eq_some {ns : Namespace} {id : EntryId} {value : List UInt8}
    (h : object.put ns id value slot.1 slot.2 = some payload) :
    object slot.1 slot.2 = some payload ∨ slot = (ns, id) ∧ payload = value := by
  obtain ⟨ns', id'⟩ := slot
  simp only [ObjectStore.put, Function.update_apply] at h
  split at h
  · rename_i hns
    rw [Function.update_apply] at h
    split at h
    · rename_i hid
      exact .inr ⟨by rw [hns, hid], (Option.some.inj h).symm⟩
    · exact .inl (by rwa [hns])
  · exact .inl h

/-- What is there after a delete was there. -/
theorem delete_eq_some {ns : Namespace} {id : EntryId}
    (h : object.delete ns id slot.1 slot.2 = some payload) : object slot.1 slot.2 = some payload := by
  obtain ⟨ns', id'⟩ := slot
  simp only [ObjectStore.delete, Function.update_apply] at h
  split at h
  · rename_i hns
    rw [Function.update_apply] at h
    split at h
    · cases h
    · rwa [hns]
  · exact h

/-- **A clean slot stays clean**: what is put in it was set for it. -/
theorem Clean.run {call : DiskCall} (hcall : call.Sourced was) (hI : Clean was object slot) :
    Clean was (call.run object) slot := by
  intro payload hpayload
  cases call with
  | none | get ns id => exact hI payload hpayload
  | put ns id value fault =>
    cases fault with
    | refused e => exact hI payload hpayload
    | none | lost e =>
      obtain hold | ⟨rfl, rfl⟩ := put_eq_some hpayload
      · exact hI payload hold
      · exact hcall
  | delete ns id fault =>
    cases fault with
    | refused e => exact hI payload hpayload
    | none | lost e => exact hI payload (delete_eq_some hpayload)

/-- A slot that is put is clean. -/
theorem clean_put {ns : Namespace} {id : EntryId} {value : List UInt8} (hput : was (ns, id) value) :
    Clean was ((DiskCall.put ns id value .none).run object) (ns, id) := by
  intro payload hpayload
  obtain rfl : value = payload := by simpa [DiskCall.run, Fault.attempt, ObjectStore.put] using hpayload
  exact hput

section Mono

variable (hwas : ∀ slot payload, was slot payload → was' slot payload)
  (hclean : ∀ slot, Clean was object slot → Clean was' object' slot)

include hwas

omit [Field R] in
theorem NamedJob.Sourced.mono {job : NamedJob} (h : job.Sourced P was) : job.Sourced P was' :=
  fun ns hns => hwas _ _ (h ns hns)

include hclean

theorem NamespaceEntry.Sourced.mono {e : NamespaceEntry R} (h : e.Sourced was object) :
    e.Sourced was' object' where
  shadows slot value hv := hwas _ _ (h.shadows slot value hv)
  indexed id entry he := ⟨(h.indexed id entry he).1, hclean _ (h.indexed id entry he).2⟩

theorem Task.Sourced.mono {task : Task R} (h : task.Sourced P was object) :
    task.Sourced P was' object' := by
  cases task with
  | shadowed job | preparing job => exact NamedJob.Sourced.mono hwas h
  | checking job entry | putting job entry => exact ⟨NamedJob.Sourced.mono hwas h.1, h.2⟩
  | indexing job entry | loading name id => exact fun ns hns => hclean _ (h ns hns)
  | _ => trivial

end Mono

/-! ### What a step leaves -/

/-- What a step leaves in the entry of the name and in the task, and what it puts. -/
structure Reaction.Sourced (P : Platform R) (was : Slot → List UInt8 → Prop) (object : ObjectStore)
    (r : Reaction R) : Prop where
  /-- The entry. -/
  entry : ∀ e, r.entry = some e → e.Sourced was object
  /-- The call. -/
  call : r.call.Sourced was
  /-- The task, once the call is made. -/
  task : r.task.Sourced P was (r.call.run object)

section React

variable {name : String} {entry entry' : Option (NamespaceEntry R)} {task task' : Task R}
  {response : Response} {e : NamespaceEntry R}

theorem sourced_answer (hentry : ∀ e, entry = some e → e.Sourced was object) :
    (Reaction.answer entry response).Sourced P was object :=
  ⟨hentry, trivial, trivial⟩

theorem sourced_goOn (hentry : ∀ e, entry = some e → e.Sourced was object)
    (htask : task.Sourced P was object) : (Reaction.goOn entry task).Sourced P was object :=
  ⟨hentry, trivial, htask⟩

/-- A new entry leads to nothing. -/
theorem sourced_new (cache : Cache R) :
    NamespaceEntry.Sourced was object ⟨cache, .new, fun _ => none⟩ where
  shadows _ _ hv := by cases hv
  indexed _ _ he := by cases he

/-- An entry without a shadow it had. -/
theorem NamespaceEntry.Sourced.shadowsOf {pending : PendingWrites} (h : e.Sourced was object)
    (hpending : ∀ slot value, pending slot = some value → e.pending slot = some value) :
    NamespaceEntry.Sourced was object { e with pending } where
  shadows slot value hv := h.shadows slot value (hpending slot value hv)
  indexed := h.indexed

/-- An entry with one more shadow. -/
theorem NamespaceEntry.Sourced.insert {value : Arc} (h : e.Sourced was object)
    (hset : was slot value.bytes) :
    NamespaceEntry.Sourced was object { e with pending := e.pending.insert slot value } where
  shadows slot' value' hv := by
    simp only [PendingWrites.insert, Function.update_apply] at hv
    split at hv
    · obtain rfl := Option.some.inj hv
      subst_vars
      exact hset
    · exact h.shadows slot' value' hv
  indexed := h.indexed

/-- An entry whose index has lost something, or nothing. -/
theorem NamespaceEntry.Sourced.delete {fault : Fault} {id : EntryId} {vector : MemoryVectorStore R}
    {answer : Except Error Unit} (h : e.Sourced was object)
    (hdelete : fault.attempt (fun vector => .ok (vector.delete e.cache.ns id)) e.vector =
      (vector, answer)) : NamespaceEntry.Sourced was object { e with vector } where
  shadows := h.shadows
  indexed id' entry he := by
    rcases (Fault.attempt_cases hdelete).1 with rfl | heff
    · exact h.indexed id' entry he
    · refine h.indexed id' entry ?_
      rw [← Except.ok.inj heff] at he
      simp only [(MemoryVectorStore.delete_spec e.vector e.cache.ns id).1,
        Function.update_apply] at he
      split at he
      · cases he
      · exact he

/-- An entry whose index has what was just put, or has not. -/
theorem NamespaceEntry.Sourced.upsert {fault : Fault} {prepared : VectorEntry R}
    (h : e.Sourced was object) (hclean : Clean was object (e.cache.ns, prepared.id)) :
    NamespaceEntry.Sourced was object
      { e with
        vector :=
          (fault.attempt (fun vector => vector.upsert P e.cache.ns prepared) e.vector).1 } where
  shadows := h.shadows
  indexed id entry he := by
    rcases (Fault.attempt_cases (Prod.mk.eta
      (p := fault.attempt (fun vector => vector.upsert P e.cache.ns prepared) e.vector)).symm).1
      with heq | heff
    · exact h.indexed id entry (by simpa only [heq] using he)
    · simp only [(MemoryVectorStore.upsert_eq_ok P heff).1, Function.update_apply] at he
      split at he
      · obtain rfl := Option.some.inj he
        subst_vars
        exact ⟨rfl, hclean⟩
      · exact h.indexed id entry he

/-- A handler leaves what is sourced, if what it does with the parts does. -/
theorem sourced_request {query : String} {keys : List String} {context : Option String}
    {handle : NamespaceEntry R → Parts → Reaction R}
    (hentry : ∀ e, entry = some e → e.Sourced was object)
    (hhandle : ∀ e parts, entry = some e → reconstruct query keys context = .ok parts →
      (handle e parts).Sourced P was object) :
    (request name query keys context entry handle).Sourced P was object := by
  unfold request
  split
  · exact sourced_answer fun e he => by cases he
  · split
    · exact sourced_answer hentry
    · rename_i parts hparts
      exact hhandle _ parts rfl hparts

theorem sourced_register {config : Except String (Except Error (Backends R))}
    (hentry : ∀ e, entry = some e → e.Sourced was object) :
    (registerReaction name config entry).Sourced P was object := by
  unfold registerReaction
  split
  · exact sourced_answer hentry
  · split
    · exact sourced_answer fun e he => by cases he
    · split
      · refine sourced_answer fun e he => ?_
        obtain rfl := Option.some.inj he
        exact sourced_new _
      · exact sourced_answer fun e he => by cases he

variable [LinearOrder R] {op : Op R} {r : Reaction R}

omit [LinearOrder R] in
/-- The namespace of a job that is for the name is the entry's. -/
theorem namespace_of_filed {job : NamedJob}
    (hname : some job.name = none ∨ some job.name = some name)
    (hfiled : Namespace.new name = .ok e.cache.ns) : Namespace.new job.name = .ok e.cache.ns := by
  obtain hname | hname := hname
  · cases hname
  · rwa [Option.some.inj hname]

omit [LinearOrder R] in
/-- **Who puts is at a clean slot then**, to index. -/
theorem sourced_put {job : NamedJob} {prepared : VectorEntry R} {fault : Fault}
    (hentry : ∀ e, entry = some e → e.Sourced was object)
    (hname : some job.name = none ∨ some job.name = some name)
    (hfiled : Namespace.new name = .ok e.cache.ns)
    (htask : (Task.putting job prepared).Sourced P was object) :
    Reaction.Sourced P was object ⟨entry, .afterPut job prepared fault,
      .put e.cache.ns prepared.id job.value.bytes fault, fun _ => none⟩ := by
  obtain ⟨hjob, hid⟩ := htask
  have hns := namespace_of_filed hname hfiled
  have hput : was (e.cache.ns, prepared.id) job.value.bytes := hid ▸ hjob _ hns
  refine ⟨hentry, hput, ?_⟩
  cases fault with
  | none =>
    intro ns hns'
    obtain rfl := Except.ok.inj (hns'.symm.trans hns)
    exact clean_put hput
  | refused e | lost e => trivial

omit [Field R] [LinearOrder R] in
theorem orFault_eq_ok {α : Type} {fault : Option Error} {x : Except Error α} {a : α}
    (h : orFault fault x = .ok a) : x = .ok a := by
  cases fault with
  | none => exact h
  | some err => cases h

/-- **A match is at a clean slot**: it is an entry. -/
theorem NamespaceEntry.Sourced.findMatch {iter : List (EntryId × VectorEntry R)} {parts : Parts}
    {fault : Option Error} {hit : ScoredHit R} (h : e.Sourced was object)
    (hiter : Enumerates iter (e.vector.entries e.cache.ns))
    (hfind : orFault fault (e.cache.findMatch P ⟨e.vector, fun _ _ => none⟩ iter parts) =
      .ok (some hit)) : Clean was object (e.cache.ns, hit.id) := by
  obtain ⟨fast, embedding, shard, -, -, -, p, hp, -, -, rfl⟩ :=
    e.cache.findMatch_eq_some P (orFault_eq_ok hfind)
  obtain ⟨hid, hclean⟩ := h.indexed p.1 p.2 ((hiter.mem_iff p.1 p.2).mp hp)
  rwa [← hid] at hclean

omit [LinearOrder R] in
/-- A `Set` leaves its value as a shadow and in a job. -/
theorem sourced_set {value : Arc} {parts : Parts} (hfiled : Namespace.new name = .ok e.cache.ns)
    (h : e.Sourced was object) (hset : was (e.slot P parts) value.bytes) :
    (Reaction.goOn (some { e with pending := e.pending.insert (e.slot P parts) value })
      (.shadowed ⟨name, parts, value⟩)).Sourced P was object := by
  refine sourced_goOn ?_ fun ns hns => ?_
  · rintro _ ⟨⟩
    exact h.insert hset
  · obtain rfl := Except.ok.inj (hns.symm.trans hfiled)
    exact hset

/-- **What a step leaves was set**, if what it found was. -/
theorem reaction_sourced {x : Agent} (h : react P name entry op task = some r)
    (hfiled : ∀ e, entry = some e → Namespace.new name = .ok e.cache.ns)
    (hname : task.name = none ∨ task.name = some name) (hallowed : op.Allowed x entry)
    (hset : ∀ query keys context value e parts, op = .set query keys context value →
      entry = some e → reconstruct query keys context = .ok parts →
        was (e.slot P parts) value.bytes)
    (hentry : ∀ e, entry = some e → e.Sourced was object) (htask : task.Sourced P was object) :
    r.Sourced P was object := by
  unfold react at h
  split at h
  · obtain rfl := Option.some.inj h
    exact sourced_register hentry
  · rename_i query keys context value
    obtain rfl := Option.some.inj h
    exact sourced_request hentry fun e parts he hparts =>
      sourced_set (hfiled e he) (hentry e he) (hset _ _ _ _ e parts rfl he hparts)
  · obtain rfl := Option.some.inj h
    refine sourced_request hentry fun e parts he hparts => ?_
    split
    · exact sourced_answer hentry
    · exact sourced_goOn hentry trivial
  · obtain rfl := Option.some.inj h
    refine sourced_request hentry fun e parts he hparts => sourced_goOn ?_ trivial
    rintro _ ⟨⟩
    exact (hentry e he).shadowsOf fun slot value => PendingWrites.remove_eq_some
  · obtain rfl := Option.some.inj h
    exact sourced_goOn hentry trivial
  · rw [Option.bind_eq_some_iff] at h
    obtain ⟨e, rfl, h⟩ := h
    have he := hentry e rfl
    have hns := hfiled e rfl
    -- an entry that has lost a shadow
    have hunshadowed : ∀ (slot : Slot) (value : Arc) (e' : NamespaceEntry R),
        some { e with pending := (e.pending.removeIf slot value).1 } = some e' →
          e'.Sourced was object := by
      rintro slot value _ ⟨⟩
      exact he.shadowsOf fun slot' value' => PendingWrites.removeIf_eq_some
    split at h
    -- `reject` and `unshadow`
    · obtain rfl := Option.some.inj h
      exact sourced_goOn hentry trivial
    · obtain rfl := Option.some.inj h
      exact sourced_answer (hunshadowed _ _)
    -- `getFind` and `getLoad`
    · split at h <;> obtain rfl := Option.some.inj h
      · exact sourced_answer hentry
      · exact sourced_answer hentry
      · rename_i hfind
        refine sourced_goOn hentry fun ns hns' => ?_
        obtain rfl := Except.ok.inj (hns'.symm.trans hns)
        exact he.findMatch (hallowed e rfl) hfind
    · split at h <;> obtain rfl := Option.some.inj h
      · exact sourced_answer hentry
      · exact ⟨hentry, trivial, trivial⟩
    -- `delFind`, `delVector` and `delObject`
    · split at h <;> obtain rfl := Option.some.inj h
      · exact sourced_answer hentry
      · exact sourced_answer hentry
      · exact sourced_goOn hentry trivial
    · split at h <;> obtain rfl := Option.some.inj h
      · rename_i hdelete
        refine sourced_answer ?_
        rintro _ ⟨⟩
        exact he.delete hdelete
      · rename_i hdelete
        refine sourced_goOn ?_ trivial
        rintro _ ⟨⟩
        exact he.delete hdelete
    · obtain rfl := Option.some.inj h
      exact ⟨hentry, trivial, trivial⟩
    -- the steps of a job
    · split at h <;> obtain rfl := Option.some.inj h
      · exact sourced_goOn hentry trivial
      · rename_i hprep
        exact sourced_goOn hentry ⟨htask, (e.cache.prepare_eq_ok P (orFault_eq_ok hprep)).1⟩
    · split at h <;> obtain rfl := Option.some.inj h
      · exact sourced_goOn hentry htask
      · exact sourced_goOn hentry trivial
    · obtain rfl := Option.some.inj h
      exact sourced_put hentry hname hns htask
    · obtain rfl := Option.some.inj h
      refine sourced_goOn ?_ trivial
      rintro _ ⟨⟩
      exact he.upsert (htask _ (namespace_of_filed hname hns))
    · obtain rfl := Option.some.inj h
      exact sourced_goOn (hunshadowed _ _) trivial
    · cases h

end React

end Step

/-! ### Every run -/

variable [LinearOrder R] {P : Platform R} {capacity : ℕ} {object : ObjectStore} {slot : Slot}
  {payload : List UInt8} {s s' : Tenancy R} {act : TenancyAction R}
  {h : History (Tenancy R) (TenancyAction R)}

/-- What leads to a payload in any state of a run: every entry, every task, and every job. -/
structure Origins (P : Platform R) (h : History (Tenancy R) (TenancyAction R)) (s : Tenancy R) :
    Prop where
  /-- Entries. -/
  entries : ∀ name e, s.registry name = some e → e.Sourced (SetIn P h) s.object
  /-- Tasks. -/
  tasks : ∀ x, (s.task x).Sourced P (SetIn P h) s.object
  /-- Jobs in the queue. -/
  jobs : ∀ job ∈ s.queue, job.Sourced P (SetIn P h)

omit [LinearOrder R] in
theorem SetIn.mono (hset : SetIn P h slot payload) : SetIn P (h ++ [(s, act)]) slot payload := by
  obtain ⟨t, act', hm, hsets⟩ := hset
  exact ⟨t, act', List.mem_append_left _ hm, hsets⟩

omit [LinearOrder R] in
/-- What was set is set after a step, too. -/
theorem Origins.snoc (hI : Origins P h s) : Origins P (h ++ [(s, act)]) s := by
  have hwas : ∀ slot payload, SetIn P h slot payload → SetIn P (h ++ [(s, act)]) slot payload :=
    fun _ _ => SetIn.mono
  have hclean : ∀ slot, Clean (SetIn P h) s.object slot →
      Clean (SetIn P (h ++ [(s, act)])) s.object slot :=
    fun _ hc payload hpayload => (hc payload hpayload).mono
  exact ⟨fun name e he => (hI.entries name e he).mono hwas hclean,
    fun x => (hI.tasks x).mono hwas hclean, fun job hjob => (hI.jobs job hjob).mono hwas⟩

theorem origins_step (hF : Filed s) (hI : Origins P h s) (hstep : TenancyStep P capacity s act s') :
    Origins P (h ++ [(s, act)]) s' := by
  have hI : Origins P (h ++ [(s, act)]) s := hI.snoc
  cases hstep with
  | @op x name op r hname hallowed hr =>
    have hr : r.Sourced P (SetIn P (h ++ [(s, .op x name op)])) s.object := by
      refine reaction_sourced hr (hF name) hname hallowed ?_ (hI.entries name) (hI.tasks x)
      rintro query keys context value e parts rfl he hparts
      exact ⟨s, _, List.mem_concat_self, .intro (by simp [he]) (hF name e he) hparts rfl rfl⟩
    -- what is put on the disk was set for its slot
    have hclean : ∀ slot, Clean (SetIn P (h ++ [(s, .op x name op)])) s.object slot →
        Clean (SetIn P (h ++ [(s, .op x name op)])) (r.call.run s.object) slot :=
      fun _ => Clean.run hr.call
    refine ⟨fun n e he => ?_, fun y => ?_, hI.jobs⟩
    · rw [Tenancy.registry_apply, Function.update_apply] at he
      split at he
      · exact (hr.entry e he).mono (fun _ _ => id) hclean
      · exact (hI.entries n e he).mono (fun _ _ => id) hclean
    · rw [Tenancy.task_apply, Function.update_apply]
      split
      · exact hr.task
      · exact (hI.tasks y).mono (fun _ _ => id) hclean
  | @push c job htask _ =>
    have hjob : job.Sourced P (SetIn P (h ++ [(s, .push c job.name)])) := by
      have hx := hI.tasks (.conn c)
      rwa [htask] at hx
    refine ⟨hI.entries, fun y => ?_, fun j hj => ?_⟩
    · dsimp only
      rw [Function.update_apply]
      split
      · trivial
      · exact hI.tasks y
    · rcases List.mem_append.mp hj with hj | hj
      · exact hI.jobs j hj
      · rw [List.mem_singleton.mp hj]
        exact hjob
  | @recv w job queue _ hqueue =>
    have hjobs : ∀ j ∈ job :: queue, j.Sourced P (SetIn P (h ++ [(s, .recv w job.name)])) :=
      hqueue ▸ hI.jobs
    refine ⟨hI.entries, fun y => ?_, fun j hj => hjobs j (List.mem_cons_of_mem _ hj)⟩
    dsimp only
    rw [Function.update_apply]
    split
    · exact hjobs job List.mem_cons_self
    · exact hI.tasks y

theorem origins_run (hrun : TenancyRun P capacity object h s) : Origins P h s := by
  refine Run.invariant (I := Origins P) ?_ ?_ hrun
  · exact ⟨fun name e he => (by cases he), fun x => trivial, fun job hjob => (by cases hjob)⟩
  · exact fun h s act s' hrun hI _ hstep => origins_step (filed_run hrun) hI hstep

/-! ### What is served -/

omit [LinearOrder R] in
/-- A handler that answers with a payload has an entry and the parts. -/
theorem request_served {name query : String} {keys : List String} {context : Option String}
    {entry : Option (NamespaceEntry R)} {handle : NamespaceEntry R → Parts → Reaction R}
    (hserved : (request name query keys context entry handle).respond
      ((request name query keys context entry handle).call.found object) =
        some (.value (some payload))) :
    ∃ e parts, entry = some e ∧ reconstruct query keys context = .ok parts ∧
      (handle e parts).respond ((handle e parts).call.found object) =
        some (.value (some payload)) := by
  unfold request at hserved
  split at hserved
  · cases hserved
  · split at hserved
    · rename_i response herror
      obtain ⟨err, rfl⟩ := reconstruct_eq_error herror
      cases hserved
    · rename_i e _ parts hparts
      exact ⟨e, parts, rfl, hparts, hserved⟩

theorem deletedOr_ne_value (fault : Fault) (value : Option (List UInt8)) :
    deletedOr fault ≠ .value value := by
  cases fault <;> rintro ⟨⟩

/-- **Where a `Get` is served from**: the shadow buffer of its name, or the disk, where its match
is. -/
theorem served_cases {name : String} {entry : Option (NamespaceEntry R)} {op : Op R} {task : Task R}
    {r : Reaction R} (hr : react P name entry op task = some r)
    (hserved : r.respond (r.call.found object) = some (.value (some payload))) :
    ∃ e, entry = some e ∧
      ((∃ query keys context parts value, op = .get query keys context ∧
        reconstruct query keys context = .ok parts ∧ e.pending (e.slot P parts) = some value ∧
          value.bytes = payload) ∨
      ∃ name' id, op = .getLoad none ∧ task = .loading name' id ∧
        object e.cache.ns id = some payload) := by
  unfold react at hr
  split at hr
  · obtain rfl := Option.some.inj hr
    unfold registerReaction at hserved
    split at hserved
    · cases hserved
    · split at hserved
      · cases hserved
      · split at hserved <;> cases hserved
  · obtain rfl := Option.some.inj hr
    obtain ⟨e, parts, -, -, hserved⟩ := request_served hserved
    cases hserved
  · obtain rfl := Option.some.inj hr
    obtain ⟨e, parts, rfl, hparts, hserved⟩ := request_served hserved
    split at hserved
    · rename_i value hvalue
      cases hserved
      exact ⟨e, rfl, .inl ⟨_, _, _, parts, value, rfl, hparts, hvalue, rfl⟩⟩
    · cases hserved
  · obtain rfl := Option.some.inj hr
    obtain ⟨e, parts, -, -, hserved⟩ := request_served hserved
    cases hserved
  · obtain rfl := Option.some.inj hr
    cases hserved
  · rw [Option.bind_eq_some_iff] at hr
    obtain ⟨e, rfl, hr⟩ := hr
    split at hr
    -- `reject` and `unshadow`
    · cases hr
      cases hserved
    · cases hr
      cases hserved
    -- `getFind` and `getLoad`
    · split at hr <;> cases hr <;> cases hserved
    · split at hr <;> cases hr
      · cases hserved
      · rename_i name' id _ _ _ _ _ _
        exact ⟨e, rfl, .inr ⟨name', id, rfl, rfl, by simpa [DiskCall.found] using hserved⟩⟩
    -- `delFind`, `delVector` and `delObject`
    · split at hr <;> cases hr <;> cases hserved
    · split at hr <;> cases hr <;> cases hserved
    · cases hr
      exact absurd (Option.some.inj hserved) (deletedOr_ne_value _ _)
    -- the steps of a job
    · split at hr <;> cases hr <;> cases hserved
    · split at hr <;> cases hr <;> cases hserved
    · cases hr
      cases hserved
    · cases hr
      cases hserved
    · cases hr
      cases hserved
    · cases hr

/-- **What a `Get` is served was set**, in the run, for the slot it is served from, which is in the
namespace of the name that was asked. -/
theorem served_origin (P : Platform R) (capacity : ℕ) (object : ObjectStore)
    (h₁ h₂ : History (Tenancy R) (TenancyAction R)) (s t : Tenancy R) (act : TenancyAction R)
    (hrun : TenancyRun P capacity object (h₁ ++ (t, act) :: h₂) s) (payload : List UInt8)
    (hserved : t.respond P act = some (.value (some payload))) :
    ∃ slot : Slot, Namespace.new act.name = .ok slot.1 ∧ t.servedId P act = some slot.2 ∧
      SetIn P h₁ slot payload := by
  obtain ⟨s', hbefore, -, hstep, -⟩ := hrun.split
  have hI := origins_run hbefore
  cases hstep with
  | push => cases hserved
  | recv => cases hserved
  | @op x name op r hname hallowed hr =>
    simp only [Tenancy.respond, hr, Option.bind_some] at hserved
    obtain ⟨e, he, hcases⟩ := served_cases hr hserved
    have hns := filed_run hbefore name e he
    rcases hcases with ⟨query, keys, context, parts, value, rfl, hparts, hvalue, rfl⟩ |
      ⟨name', id, rfl, htask, hobject⟩
    · refine ⟨e.slot P parts, hns, ?_, (hI.entries name e he).shadows _ _ hvalue⟩
      simp [Tenancy.servedId, hparts, Except.toOption, NamespaceEntry.slot]
    · refine ⟨(e.cache.ns, id), hns, by rw [Tenancy.servedId, htask], ?_⟩
      have hload := hI.tasks x
      rw [htask] at hload hname
      obtain hname | hname := hname
      · cases hname
      · exact hload _ (by rwa [Option.some.inj hname]) _ hobject

/-- A response was made by a step. -/
theorem mem_responses {name : String} {response : Response}
    (hm : response ∈ responses P name h) :
    ∃ t ∈ h, t.2.name = name ∧ t.1.respond P t.2 = some response := by
  obtain ⟨t, ht, hresponse⟩ := List.mem_filterMap.mp hm
  split at hresponse
  · exact ⟨t, ht, ‹_›, hresponse⟩
  · cases hresponse

open Core.Sample (platform) in
/-- Payloads are left behind on the disk; `t` is set to `1` and `t ` to `2`, and a `Get` of `t` is
served `2`. -/
theorem served_origin_aliased : ∃ h₁ h₂ s t act slot,
    TenancyRun platform writeQueueCapacity (fun _ _ => some [0]) (h₁ ++ (t, act) :: h₂) s ∧
      act.name = "t" ∧ t.respond platform act = some (.value (some [2])) ∧
        Namespace.new "t" = .ok slot.1 ∧ SetIn platform h₁ slot [2] := by
  obtain ⟨s, h, hrun, -, hresponses⟩ := Sample.leads_aliased fun _ _ => some [0]
  obtain ⟨⟨t, act⟩, ht, hname, hserved⟩ : ∃ t ∈ h, t.2.name = "t" ∧
      t.1.respond platform t.2 = some (.value (some [2])) :=
    mem_responses (by rw [hresponses]; simp)
  obtain ⟨h₁, h₂, rfl⟩ := List.append_of_mem ht
  obtain ⟨slot, hns, -, hset⟩ := served_origin _ _ _ h₁ h₂ s t act hrun [2] hserved
  exact ⟨h₁, h₂, s, t, act, slot, hrun, hname, hserved, hname ▸ hns, hset⟩

end Semisweet.Daemon
