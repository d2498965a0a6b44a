import Semisweet.Core.Compression

/-!
# The S3 object store

`S3ObjectStore` (`src/backends/object_s3.rs`) keeps the payloads of a cache in a bucket: the object
of an entry is under the store's prefix, its namespace and its id. A bucket may hold other things,
and the objects of other stores.

## The model

The `s3` crate and the service behind it are a parameter (`Bucket`), of which the store relies on
what a status says (`Bucket.Serves`): a request that succeeds has taken effect, a `get` that
succeeds has the object's bytes, and what is not found is not there. A request that fails, or that
nothing is heard of, may have taken effect.

## What is proved

* `objectKey_inj` — two entries have the same key exactly if they have the same id, and their
  stores' prefixes and namespaces spell the same.
* `S3ObjectStore.actsAsMap` — the store is a map of the entries' payloads.
* `s3_refines` — compressed, it is the map of the plain values in every run, and leaves every other
  object of the bucket alone.
-/

namespace Semisweet.Core

open Semisweet.Foundations

variable {σ : Type}

/-! ### The bucket -/

/-- `200..=299`. -/
def isSuccess (status : UInt16) : Bool := 200 ≤ status && status ≤ 299

/-- `NOT_FOUND`. -/
def statusNotFound : UInt16 := 404

/-- `Bucket`, with its state. An error is of a request that has no response. -/
structure Bucket (σ : Type) where
  /-- `put_object`. -/
  putObject : σ → String → List UInt8 → σ × Except String UInt16
  /-- `get_object`. -/
  getObject : σ → String → σ × Except String (UInt16 × List UInt8)
  /-- `delete_object`. -/
  deleteObject : σ → String → σ × Except String UInt16

/-- The objects of a bucket. -/
abbrev Objects := String → Option (List UInt8)

/-- What the responses of a bucket say of its objects. -/
structure Bucket.Serves (bucket : Bucket σ) (objects : σ → Objects) : Prop where
  /-- An object is put, or not. -/
  put : ∀ s key value, objects (bucket.putObject s key value).1 = objects s ∨
    objects (bucket.putObject s key value).1 = Function.update (objects s) key (some value)
  /-- A success says it is. -/
  put_success : ∀ s key value status, (bucket.putObject s key value).2 = .ok status →
    isSuccess status = true →
      objects (bucket.putObject s key value).1 = Function.update (objects s) key (some value)
  /-- To get an object changes nothing. -/
  get : ∀ s key, objects (bucket.getObject s key).1 = objects s
  /-- A success has its bytes. -/
  get_success : ∀ s key status body, (bucket.getObject s key).2 = .ok (status, body) →
    isSuccess status = true → objects s key = some body
  /-- What is not found is not there. -/
  get_notFound : ∀ s key body, (bucket.getObject s key).2 = .ok (statusNotFound, body) →
    objects s key = none
  /-- An object is deleted, or not. -/
  delete : ∀ s key, objects (bucket.deleteObject s key).1 = objects s ∨
    objects (bucket.deleteObject s key).1 = Function.update (objects s) key none
  /-- A success says it is. -/
  delete_success : ∀ s key status, (bucket.deleteObject s key).2 = .ok status →
    isSuccess status = true → objects (bucket.deleteObject s key).1 =
      Function.update (objects s) key none
  /-- And so does one that is not found. -/
  delete_notFound : ∀ s key, (bucket.deleteObject s key).2 = .ok statusNotFound →
    objects (bucket.deleteObject s key).1 = Function.update (objects s) key none

/-! ### Keys -/

/-- `object_key`. -/
def objectKey (keyPrefix : String) (ns : Namespace) (id : EntryId) : String :=
  keyPrefix ++ ns.val ++ "/" ++ id.toHex

theorem toList_objectKey (keyPrefix : String) (ns : Namespace) (id : EntryId) :
    (objectKey keyPrefix ns id).toList =
      (keyPrefix ++ ns.val).toList ++ '/' :: id.toHex.toList := by
  rw [objectKey, String.toList_append, String.toList_append]
  simp

/-- **Two entries have the same key** exactly if they have the same id, and the prefixes and
namespaces spell the same. -/
theorem objectKey_inj {p p' : String} {ns ns' : Namespace} {id id' : EntryId} :
    objectKey p ns id = objectKey p' ns' id' ↔ p ++ ns.val = p' ++ ns'.val ∧ id = id' := by
  constructor
  · intro h
    have hlist := congrArg String.toList h
    rw [toList_objectKey, toList_objectKey] at hlist
    obtain ⟨hdir, hname⟩ := append_cons_inj id.slash_notMem_toHex id'.slash_notMem_toHex hlist
    exact ⟨String.toList_inj.mp hdir, EntryId.toHex_injective (String.toList_inj.mp hname)⟩
  · rintro ⟨hdir, rfl⟩
    rw [objectKey, objectKey, hdir]

/-- Of one store, no two entries have the same key. -/
theorem objectKey_eq_iff {p : String} {ns ns' : Namespace} {id id' : EntryId} :
    objectKey p ns id = objectKey p ns' id' ↔ ns = ns' ∧ id = id' := by
  rw [objectKey_inj, String.append_right_inj, Namespace.mk.injEq]

/-! ### The store -/

/-- `UnexpectedStatus`, as an error of the store. -/
def unexpectedStatus (operation key : String) (status : UInt16) : Error :=
  .objectStorage s!"s3 {operation} of `{key}` returned status {status}"

/-- What `put` makes of the response. -/
def putResult (key : String) : Except String UInt16 → Except Error Unit
  | .ok status => if isSuccess status then .ok () else .error (unexpectedStatus "put" key status)
  | .error e => .error (.objectStorage e)

/-- What `get` makes of the response. -/
def getResult (key : String) :
    Except String (UInt16 × List UInt8) → Except Error (Option (List UInt8))
  | .ok (status, body) =>
    if status = statusNotFound then .ok none
    else if isSuccess status then .ok (some body)
    else .error (unexpectedStatus "get" key status)
  | .error e => .error (.objectStorage e)

/-- What `delete` makes of the response. -/
def deleteResult (key : String) : Except String UInt16 → Except Error Unit
  | .ok status =>
    if isSuccess status ∨ status = statusNotFound then .ok ()
    else .error (unexpectedStatus "delete" key status)
  | .error e => .error (.objectStorage e)

variable {key : String}

theorem putResult_eq_ok {response : Except String UInt16} :
    putResult key response = .ok () ↔
      ∃ status, response = .ok status ∧ isSuccess status = true := by
  cases response <;> simp [putResult]

theorem getResult_eq_ok {response : Except String (UInt16 × List UInt8)}
    {found : Option (List UInt8)} : getResult key response = .ok found ↔
      ∃ status body, response = .ok (status, body) ∧
        ((status = statusNotFound ∧ found = none) ∨
          (status ≠ statusNotFound ∧ isSuccess status = true ∧ found = some body)) := by
  cases response with
  | error e => simp [getResult]
  | ok response =>
    obtain ⟨status, body⟩ := response
    rw [getResult]
    split_ifs with hnot hsuccess
    · simp [hnot, @eq_comm _ none found]
    · simp [hnot, hsuccess, @eq_comm _ _ found]
    · simp [hnot, hsuccess]

theorem deleteResult_eq_ok {response : Except String UInt16} : deleteResult key response = .ok () ↔
    ∃ status, response = .ok status ∧ (isSuccess status = true ∨ status = statusNotFound) := by
  cases response with
  | error e => simp [deleteResult]
  | ok status =>
    rw [deleteResult]
    split_ifs with hsuccess <;> simp [hsuccess]

/-- `S3ObjectStore`. -/
structure S3ObjectStore (σ : Type) where
  /-- The bucket. -/
  bucket : Bucket σ
  /-- `prefix`. -/
  keyPrefix : String

namespace S3ObjectStore

variable (self : S3ObjectStore σ)

/-- Its `ObjectStorageBackend`. -/
def backend : ObjectStorageBackend σ where
  put s ns id value :=
    let key := objectKey self.keyPrefix ns id
    let response := self.bucket.putObject s key value
    (response.1, putResult key response.2)
  get s ns id :=
    let key := objectKey self.keyPrefix ns id
    let response := self.bucket.getObject s key
    (response.1, getResult key response.2)
  delete s ns id :=
    let key := objectKey self.keyPrefix ns id
    let response := self.bucket.deleteObject s key
    (response.1, deleteResult key response.2)

/-- The payloads it has in a bucket. -/
def payloads (objects : Objects) : ObjectStore := fun ns id =>
  objects (objectKey self.keyPrefix ns id)

variable {self} {objects : Objects} {ns : Namespace} {id : EntryId} {value : List UInt8}

theorem payloads_put :
    self.payloads (Function.update objects (objectKey self.keyPrefix ns id) (some value)) =
      (self.payloads objects).put ns id value := by
  funext ns' id'
  by_cases hns : ns' = ns <;> by_cases hid : id' = id <;>
    simp [payloads, ObjectStore.put, objectKey_eq_iff, hns, hid]

theorem payloads_delete :
    self.payloads (Function.update objects (objectKey self.keyPrefix ns id) none) =
      (self.payloads objects).delete ns id := by
  funext ns' id'
  by_cases hns : ns' = ns <;> by_cases hid : id' = id <;>
    simp [payloads, ObjectStore.delete, objectKey_eq_iff, hns, hid]

/-- The key is not one of the store's. -/
def Foreign (self : S3ObjectStore σ) (key : String) : Prop :=
  ∀ ns id, key ≠ objectKey self.keyPrefix ns id

/-- Another store's entry is foreign, unless the prefixes and namespaces spell the same. -/
theorem foreign_objectKey_iff {other : String} {ns' : Namespace} {id' : EntryId} :
    self.Foreign (objectKey other ns' id') ↔
      ∀ ns : Namespace, other ++ ns'.val ≠ self.keyPrefix ++ ns.val := by
  constructor
  · intro h ns heq
    exact h ns id' (objectKey_inj.mpr ⟨heq, rfl⟩)
  · intro h ns id heq
    exact h ns (objectKey_inj.mp heq).1

variable {holds : σ → Objects} {s s' : σ} {answer : ObjectAnswer}

/-- **What `put` does** to the objects. -/
theorem put_step (hserves : self.bucket.Serves holds)
    (hstep : self.backend.Step s (.put ns id value, answer) s') :
    (answer = .done ∧ holds s' =
        Function.update (holds s) (objectKey self.keyPrefix ns id) (some value)) ∨
      ∃ e, ∃ applied : Bool, answer = .failed e ∧ holds s' = if applied then
        Function.update (holds s) (objectKey self.keyPrefix ns id) (some value) else holds s := by
  obtain ⟨hs', hanswer⟩ := Prod.mk.inj hstep
  cases hresult : (self.backend.put s ns id value).2 with
  | ok =>
    obtain ⟨status, hresponse, hsuccess⟩ := putResult_eq_ok.mp hresult
    rw [hresult] at hanswer
    exact .inl ⟨hanswer.symm, hs' ▸ hserves.put_success _ _ _ _ hresponse hsuccess⟩
  | error e =>
    rw [hresult] at hanswer
    rcases hserves.put s (objectKey self.keyPrefix ns id) value with hkept | hput
    · exact .inr ⟨e, false, hanswer.symm, hs' ▸ hkept⟩
    · exact .inr ⟨e, true, hanswer.symm, hs' ▸ hput⟩

/-- **What `get` does**: it changes nothing, and finds what is there. -/
theorem get_step (hserves : self.bucket.Serves holds)
    (hstep : self.backend.Step s (.get ns id, answer) s') :
    holds s' = holds s ∧
      (answer = .found (holds s (objectKey self.keyPrefix ns id)) ∨ ∃ e, answer = .failed e) := by
  obtain ⟨hs', hanswer⟩ := Prod.mk.inj hstep
  refine ⟨hs' ▸ hserves.get _ _, ?_⟩
  cases hresult : (self.backend.get s ns id).2 with
  | ok found =>
    rw [hresult] at hanswer
    obtain ⟨status, body, hresponse, hfound⟩ := getResult_eq_ok.mp hresult
    refine .inl (hanswer.symm.trans (congrArg ObjectAnswer.found ?_))
    rcases hfound with ⟨rfl, rfl⟩ | ⟨-, hsuccess, rfl⟩
    · exact (hserves.get_notFound _ _ _ hresponse).symm
    · exact (hserves.get_success _ _ _ _ hresponse hsuccess).symm
  | error e =>
    rw [hresult] at hanswer
    exact .inr ⟨e, hanswer.symm⟩

/-- **What `delete` does** to the objects. -/
theorem delete_step (hserves : self.bucket.Serves holds)
    (hstep : self.backend.Step s (.delete ns id, answer) s') :
    (answer = .done ∧ holds s' =
        Function.update (holds s) (objectKey self.keyPrefix ns id) none) ∨
      ∃ e, ∃ applied : Bool, answer = .failed e ∧ holds s' = if applied then
        Function.update (holds s) (objectKey self.keyPrefix ns id) none else holds s := by
  obtain ⟨hs', hanswer⟩ := Prod.mk.inj hstep
  cases hresult : (self.backend.delete s ns id).2 with
  | ok =>
    obtain ⟨status, hresponse, hsuccess⟩ := deleteResult_eq_ok.mp hresult
    rw [hresult] at hanswer
    refine .inl ⟨hanswer.symm, hs' ▸ ?_⟩
    rcases hsuccess with hsuccess | rfl
    · exact hserves.delete_success _ _ _ hresponse hsuccess
    · exact hserves.delete_notFound _ _ hresponse
  | error e =>
    rw [hresult] at hanswer
    rcases hserves.delete s (objectKey self.keyPrefix ns id) with hkept | hdelete
    · exact .inr ⟨e, false, hanswer.symm, hs' ▸ hkept⟩
    · exact .inr ⟨e, true, hanswer.symm, hs' ▸ hdelete⟩

/-- **The store is a map** of the payloads it has in the bucket. -/
theorem actsAsMap (hserves : self.bucket.Serves holds) :
    self.backend.ActsAsMap fun s => self.payloads (holds s) := by
  rintro s ⟨call, answer⟩ s' hstep
  beta_reduce
  cases call with
  | put ns id value =>
    rcases put_step hserves hstep with ⟨rfl, hs'⟩ | ⟨e, applied, rfl, hs'⟩
    · rw [hs', payloads_put]
      exact .put
    · rw [hs', apply_ite self.payloads, payloads_put]
      exact .putFailed applied
  | get ns id =>
    obtain ⟨hs', rfl | ⟨e, rfl⟩⟩ := get_step hserves hstep
    · rw [hs']
      exact .get
    · rw [hs']
      exact .getFailed
  | delete ns id =>
    rcases delete_step hserves hstep with ⟨rfl, hs'⟩ | ⟨e, applied, rfl, hs'⟩
    · rw [hs', payloads_delete]
      exact .delete
    · rw [hs', apply_ite self.payloads, payloads_delete]
      exact .deleteFailed applied

/-- **What is not its own, the store leaves alone.** -/
theorem foreign_step (hserves : self.bucket.Serves holds) {key : String} (hkey : self.Foreign key)
    {x : ObjectCall × ObjectAnswer} (hstep : self.backend.Step s x s') :
    holds s' key = holds s key := by
  obtain ⟨call, answer⟩ := x
  cases call with
  | put ns id value =>
    rcases put_step hserves hstep with ⟨-, hs'⟩ | ⟨e, applied, -, hs'⟩
    · rw [hs', Function.update_of_ne (hkey ns id)]
    · cases applied <;> simp [hs', Function.update_of_ne (hkey ns id)]
  | get ns id => rw [(get_step hserves hstep).1]
  | delete ns id =>
    rcases delete_step hserves hstep with ⟨-, hs'⟩ | ⟨e, applied, -, hs'⟩
    · rw [hs', Function.update_of_ne (hkey ns id)]
    · cases applied <;> simp [hs', Function.update_of_ne (hkey ns id)]

/-- Compressed or not: every step of a compressed store is one of its inner store, or none. -/
theorem foreign_compressed_step {zstd : Zstd} (hserves : self.bucket.Serves holds) {key : String}
    (hkey : self.Foreign key) {x : ObjectCall × ObjectAnswer}
    (hstep : (CompressedStore zstd self.backend).Step s x s') : holds s' key = holds s key := by
  obtain ⟨call, answer⟩ := x
  cases call with
  | put ns id value =>
    rcases CompressedStore.put_step hstep with ⟨rfl, -⟩ | ⟨frame, -, hput⟩
    · rfl
    · exact foreign_step hserves hkey hput
  | get ns id =>
    obtain ⟨got, hget, -⟩ := CompressedStore.get_step hstep
    exact foreign_step hserves hkey hget
  | delete ns id => exact foreign_step hserves hkey (CompressedStore.delete_step hstep)

end S3ObjectStore

/-- **A compressed S3 store is a map, and keeps to its own objects**: every run of calls on it is a
run of the map of the plain values, and an object of any other key is at the end what it was at the
start. -/
theorem s3_refines (zstd : Zstd) (store : S3ObjectStore σ) (holds : σ → Objects)
    (hserves : store.bucket.Serves holds) (init s : σ) (h : History σ (ObjectCall × ObjectAnswer))
    (hrun : Run (CompressedStore zstd store.backend).Step init Always h s) :
    Run MapStep (zstd.plain (store.payloads (holds init))) Always
        (h.project (fun t => zstd.plain (store.payloads (holds t))) some)
        (zstd.plain (store.payloads (holds s))) ∧
      (∀ key, store.Foreign key → holds s key = holds init key) ∧
      ∀ other ns' id', store.Foreign (objectKey other ns' id') ↔
        ∀ ns : Namespace, other ++ ns'.val ≠ store.keyPrefix ++ ns.val := by
  refine ⟨(CompressedStore.actsAsMap (S3ObjectStore.actsAsMap hserves)).run hrun, ?_,
    fun _ _ _ => S3ObjectStore.foreign_objectKey_iff⟩
  intro key hkey
  exact hrun.invariant_state (I := fun t => holds t key = holds init key) rfl
    fun _ _ _ _ hI _ hstep =>
      (S3ObjectStore.foreign_compressed_step hserves hkey hstep).trans hI

namespace Sample

/-- A bucket in memory. -/
def bucket : Bucket Objects where
  putObject s key value := (Function.update s key (some value), .ok 200)
  getObject s key :=
    match s key with
    | some body => (s, .ok (200, body))
    | none => (s, .ok (statusNotFound, []))
  deleteObject s key := (Function.update s key none, .ok 204)

theorem bucket_serves : bucket.Serves fun objects => objects where
  put _ _ _ := .inr rfl
  put_success _ _ _ _ _ _ := rfl
  get s key := by
    cases h : s key <;> simp [bucket, h]
  get_success s key status body hresponse hsuccess := by
    cases h : s key with
    | none =>
      simp only [bucket, h, Except.ok.injEq, Prod.mk.injEq] at hresponse
      obtain ⟨rfl, -⟩ := hresponse
      exact absurd hsuccess (by decide)
    | some found =>
      simp only [bucket, h, Except.ok.injEq, Prod.mk.injEq] at hresponse
      rw [hresponse.2]
  get_notFound s key body hresponse := by
    cases h : s key with
    | none => rfl
    | some found =>
      simp only [bucket, h, Except.ok.injEq, Prod.mk.injEq] at hresponse
      exact absurd hresponse.1 (by decide)
  delete _ _ := .inr rfl
  delete_success _ _ _ _ _ := rfl
  delete_notFound _ _ h := by simp [bucket, statusNotFound] at h

/-- A store in it. -/
def s3 : S3ObjectStore Objects := ⟨bucket, "semisweet/"⟩

end Sample

open DiskObjectStore.Sample in
/-- A value is put, beside an object of something else. -/
theorem s3_refines_put : ∃ (h : History Objects (ObjectCall × ObjectAnswer)) (s : Objects),
    Run MapStep (fun _ _ => none) Always
        (h.project (fun t => Sample.rawFrames.plain (Sample.s3.payloads t)) some)
        (Sample.rawFrames.plain (Sample.s3.payloads s)) ∧
      Sample.rawFrames.plain (Sample.s3.payloads s) pairOne.ns pairOne.id = some [7] ∧
        s "README" = some [1] := by
  let init : Objects := fun key => if key = "README" then some [1] else none
  have hreadme : Sample.s3.Foreign "README" := by
    intro ns id heq
    have hlist := congrArg String.toList heq
    have hslash : '/' ∈ ("README" : String).toList := by
      rw [hlist, toList_objectKey]
      simp
    exact absurd hslash (by decide)
  have hempty : Sample.rawFrames.plain (Sample.s3.payloads init) = fun _ _ => none := by
    funext ns id
    have hne : objectKey "semisweet/" ns id ≠ "README" := (hreadme ns id).symm
    simp [Zstd.plain, S3ObjectStore.payloads, init, Sample.s3, hne]
  have h₀ : Run (CompressedStore Sample.rawFrames Sample.s3.backend).Step init Always [] init :=
    .start
  have h₁ := h₀.next (a := (.put pairOne.ns pairOne.id [7], .done)) trivial (by exact rfl)
  obtain ⟨hplain, hforeign, -⟩ :=
    s3_refines Sample.rawFrames Sample.s3 (fun s => s) Sample.bucket_serves _ _ _ h₁
  rw [hempty] at hplain
  refine ⟨_, _, hplain, ?_, hforeign "README" hreadme⟩
  have hput :
      ((CompressedStore Sample.rawFrames Sample.s3.backend).put init pairOne.ns pairOne.id [7]).1 =
        Function.update init (objectKey Sample.s3.keyPrefix pairOne.ns pairOne.id)
            (some [0x28, 0xB5, 0x2F, 0xFD, 0x00, 0x68, 0x09, 0x00, 0x00, 7]) := rfl
  have hframe : Sample.rawFrames.compress [7] =
      .ok [0x28, 0xB5, 0x2F, 0xFD, 0x00, 0x68, 0x09, 0x00, 0x00, 7] := rfl
  rw [hput, S3ObjectStore.payloads_put, Zstd.plain_put hframe]
  simp [ObjectStore.put]

end Semisweet.Core
