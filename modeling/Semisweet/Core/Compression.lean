import Semisweet.Core.ObjectDisk

/-!
# The compressed store

Every object store of a cache is wrapped (`build_object`, `src/registry.rs`): `CompressedStore`
(`src/compression.rs`) compresses a value before the inner store has it, and decompresses what it
gets. The cache and the daemon are modelled over a map of plain values.

## The model

An object store is any state with `put`, `get` and `delete`, each of which may fail; the library
zstd is a parameter, of which the store relies on one thing, that a frame decodes to what was
encoded. `MapStep` says what an object store is for: it is a map of values, of which a call that
fails may have taken effect or not.

## What is proved

* `CompressedStore.actsAsMap` — if the inner store is a map, so is the compressed one, of the plain
  values.
* `compressed_refines` — every run of calls on a compressed store is a run of that map, and over a
  store of frames a `get` fails only if the inner one does.
* `DiskObjectStore.compressed_register` — on the disk, under any threads and crashes, what a `get`
  reads is a frame, of a value that was put for the object and that the map had when it looked.
-/

namespace Semisweet.Core

open Semisweet.Foundations

/-! ### What an object store is for -/

/-- A call of `ObjectStorageBackend`. -/
inductive ObjectCall where
  /-- `put`. -/
  | put (ns : Namespace) (id : EntryId) (value : List UInt8)
  /-- `get`. -/
  | get (ns : Namespace) (id : EntryId)
  /-- `delete`. -/
  | delete (ns : Namespace) (id : EntryId)

/-- How it returns. -/
inductive ObjectAnswer where
  /-- `Ok(())`. -/
  | done
  /-- `Ok` of what `get` finds. -/
  | found (value : Option (List UInt8))
  /-- `Err`. -/
  | failed (e : Error)

/-- A call on a map. -/
inductive MapStep : ObjectStore → ObjectCall × ObjectAnswer → ObjectStore → Prop
  /-- The value is put. -/
  | put {m : ObjectStore} {ns : Namespace} {id : EntryId} {value : List UInt8} :
      MapStep m (.put ns id value, .done) (m.put ns id value)
  /-- `put` fails. -/
  | putFailed {m : ObjectStore} {ns : Namespace} {id : EntryId} {value : List UInt8} {e : Error}
      (applied : Bool) :
      MapStep m (.put ns id value, .failed e) (if applied then m.put ns id value else m)
  /-- What the map has. -/
  | get {m : ObjectStore} {ns : Namespace} {id : EntryId} :
      MapStep m (.get ns id, .found (m ns id)) m
  /-- `get` fails. -/
  | getFailed {m : ObjectStore} {ns : Namespace} {id : EntryId} {e : Error} :
      MapStep m (.get ns id, .failed e) m
  /-- The value is deleted. -/
  | delete {m : ObjectStore} {ns : Namespace} {id : EntryId} :
      MapStep m (.delete ns id, .done) (m.delete ns id)
  /-- `delete` fails. -/
  | deleteFailed {m : ObjectStore} {ns : Namespace} {id : EntryId} {e : Error} (applied : Bool) :
      MapStep m (.delete ns id, .failed e) (if applied then m.delete ns id else m)

namespace MapStep

variable {m m' : ObjectStore} {ns : Namespace} {id : EntryId} {value : List UInt8}
  {answer : ObjectAnswer}

/-- What a `put` does. -/
theorem put_cases (h : MapStep m (.put ns id value, answer) m') :
    (answer = .done ∧ m' = m.put ns id value) ∨
      ∃ e, ∃ applied : Bool, answer = .failed e ∧
        m' = if applied then m.put ns id value else m := by
  cases h with
  | put => exact .inl ⟨rfl, rfl⟩
  | putFailed applied => exact .inr ⟨_, applied, rfl, rfl⟩

/-- What a `get` does. -/
theorem get_cases (h : MapStep m (.get ns id, answer) m') :
    m' = m ∧ (answer = .found (m ns id) ∨ ∃ e, answer = .failed e) := by
  cases h with
  | get => exact ⟨rfl, .inl rfl⟩
  | getFailed => exact ⟨rfl, .inr ⟨_, rfl⟩⟩

/-- What a `delete` does. -/
theorem delete_cases (h : MapStep m (.delete ns id, answer) m') :
    (answer = .done ∧ m' = m.delete ns id) ∨
      ∃ e, ∃ applied : Bool, answer = .failed e ∧
        m' = if applied then m.delete ns id else m := by
  cases h with
  | delete => exact .inl ⟨rfl, rfl⟩
  | deleteFailed applied => exact .inr ⟨_, applied, rfl, rfl⟩

end MapStep

/-- `ObjectStorageBackend`, with its state. -/
structure ObjectStorageBackend (σ : Type) where
  /-- `put`. -/
  put : σ → Namespace → EntryId → List UInt8 → σ × Except Error Unit
  /-- `get`. -/
  get : σ → Namespace → EntryId → σ × Except Error (Option (List UInt8))
  /-- `delete`. -/
  delete : σ → Namespace → EntryId → σ × Except Error Unit

variable {σ : Type}

/-- How a call without a value returns. -/
def ObjectAnswer.ofUnit : Except Error Unit → ObjectAnswer
  | .ok () => .done
  | .error e => .failed e

/-- How a `get` returns. -/
def ObjectAnswer.ofFound : Except Error (Option (List UInt8)) → ObjectAnswer
  | .ok value => .found value
  | .error e => .failed e

/-- A call, and how it returns. -/
def ObjectStorageBackend.call (self : ObjectStorageBackend σ) (s : σ) :
    ObjectCall → σ × ObjectAnswer
  | .put ns id value => ((self.put s ns id value).1, .ofUnit (self.put s ns id value).2)
  | .get ns id => ((self.get s ns id).1, .ofFound (self.get s ns id).2)
  | .delete ns id => ((self.delete s ns id).1, .ofUnit (self.delete s ns id).2)

/-- One call. -/
def ObjectStorageBackend.Step (self : ObjectStorageBackend σ) (s : σ)
    (x : ObjectCall × ObjectAnswer) (s' : σ) : Prop :=
  self.call s x.1 = (s', x.2)

/-- The store is the map of what it `holds`. -/
def ObjectStorageBackend.ActsAsMap (self : ObjectStorageBackend σ) (holds : σ → ObjectStore) :
    Prop :=
  ∀ s x s', self.Step s x s' → MapStep (holds s) x (holds s')

/-- Every run of a store that is a map is one of the map. -/
theorem ObjectStorageBackend.ActsAsMap.run {self : ObjectStorageBackend σ} {holds : σ → ObjectStore}
    (hmap : self.ActsAsMap holds) {init s : σ} {h : History σ (ObjectCall × ObjectAnswer)}
    (hrun : Run self.Step init Always h s) :
    Run MapStep (holds init) Always (h.project holds some) (holds s) := by
  refine hrun.project (fun h s a s' b _ _ hstep hb => ⟨trivial, ?_⟩) fun s a s' _ hb => by cases hb
  obtain rfl := Option.some.inj hb
  exact hmap s a s' hstep

/-! ### Compression -/

/-- `COMPRESSION_LEVEL`. -/
def compressionLevel : ℤ := 19

/-- The zstd library. -/
structure Zstd where
  /-- `zstd::encode_all`. -/
  encodeAll : List UInt8 → ℤ → Except String (List UInt8)
  /-- `zstd::decode_all`. -/
  decodeAll : List UInt8 → Except String (List UInt8)
  /-- A frame decodes to what was encoded. -/
  decode_encode : ∀ value level frame, encodeAll value level = .ok frame →
    decodeAll frame = .ok value

namespace Zstd

variable (self : Zstd)

/-- `compress`. -/
def compress (value : List UInt8) : Except Error (List UInt8) :=
  (self.encodeAll value compressionLevel).mapError .compression

/-- `decompress`. -/
def decompress (value : List UInt8) : Except Error (List UInt8) :=
  (self.decodeAll value).mapError .compression

theorem decompress_of_compress {value frame : List UInt8} (h : self.compress value = .ok frame) :
    self.decompress frame = .ok value := by
  unfold compress at h
  cases he : self.encodeAll value compressionLevel with
  | error e => simp [he, Except.mapError] at h
  | ok frame' =>
    simp only [he, Except.mapError, Except.ok.injEq] at h
    subst h
    simp [decompress, self.decode_encode _ _ _ he, Except.mapError]

/-- The values of a store of frames. -/
def plain (m : ObjectStore) : ObjectStore := fun ns id =>
  (m ns id).bind fun frame => (self.decompress frame).toOption

/-- Every payload is a frame. -/
def Frames (m : ObjectStore) : Prop :=
  ∀ ns id payload, m ns id = some payload → ∃ value, self.decompress payload = .ok value

variable {self} {m : ObjectStore} {ns : Namespace} {id : EntryId} {value frame : List UInt8}

/-- A frame is put as its value. -/
theorem plain_put (h : self.compress value = .ok frame) :
    self.plain (m.put ns id frame) = (self.plain m).put ns id value := by
  funext ns' id'
  simp only [plain, ObjectStore.put, Function.update_apply]
  split
  · simp only [Function.update_apply, plain]
    split
    · simp [self.decompress_of_compress h, Except.toOption]
    · subst_vars
      rfl
  · rfl

theorem plain_delete : self.plain (m.delete ns id) = (self.plain m).delete ns id := by
  funext ns' id'
  simp only [plain, ObjectStore.delete, Function.update_apply]
  split
  · simp only [Function.update_apply, plain]
    split
    · rfl
    · subst_vars
      rfl
  · rfl

theorem Frames.put (hm : self.Frames m) (h : self.compress value = .ok frame) :
    self.Frames (m.put ns id frame) := by
  intro ns' id' payload hpayload
  simp only [ObjectStore.put, Function.update_apply] at hpayload
  split at hpayload
  · simp only [Function.update_apply] at hpayload
    split at hpayload
    · obtain rfl := Option.some.inj hpayload
      exact ⟨value, self.decompress_of_compress h⟩
    · exact hm _ _ _ hpayload
  · exact hm _ _ _ hpayload

theorem Frames.delete (hm : self.Frames m) : self.Frames (m.delete ns id) := by
  intro ns' id' payload hpayload
  simp only [ObjectStore.delete, Function.update_apply] at hpayload
  split at hpayload
  · simp only [Function.update_apply] at hpayload
    split at hpayload
    · cases hpayload
    · exact hm _ _ _ hpayload
  · exact hm _ _ _ hpayload

end Zstd

/-- What the inner store's answer to a `get` makes the answer. -/
def Zstd.answer (self : Zstd) : ObjectAnswer → ObjectAnswer
  | .found (some bytes) => .ofFound ((self.decompress bytes).map some)
  | answer => answer

/-- `CompressedStore`. -/
def CompressedStore (zstd : Zstd) (inner : ObjectStorageBackend σ) : ObjectStorageBackend σ where
  put s ns id value :=
    match zstd.compress value with
    | .ok compressed => inner.put s ns id compressed
    | .error e => (s, .error e)
  get s ns id :=
    match inner.get s ns id with
    | (s', .ok (some bytes)) => (s', (zstd.decompress bytes).map some)
    | (s', .ok none) => (s', .ok none)
    | (s', .error e) => (s', .error e)
  delete s ns id := inner.delete s ns id

namespace CompressedStore

variable {zstd : Zstd} {inner : ObjectStorageBackend σ} {holds : σ → ObjectStore}
  {s s' : σ} {ns : Namespace} {id : EntryId} {value : List UInt8} {answer : ObjectAnswer}

/-- **What `put` does**: it fails to compress, or the inner store puts a frame. -/
theorem put_step (hstep : (CompressedStore zstd inner).Step s (.put ns id value, answer) s') :
    (s' = s ∧ ∃ e, answer = .failed e) ∨
      ∃ frame, zstd.compress value = .ok frame ∧ inner.Step s (.put ns id frame, answer) s' := by
  simp only [ObjectStorageBackend.Step, ObjectStorageBackend.call, CompressedStore] at hstep
  cases hc : zstd.compress value with
  | error e =>
    simp only [hc, Prod.mk.injEq] at hstep
    exact .inl ⟨hstep.1.symm, e, hstep.2.symm⟩
  | ok frame =>
    simp only [hc] at hstep
    exact .inr ⟨frame, rfl, hstep⟩

/-- **What `get` does**: the inner store gets, and what it finds is decompressed. -/
theorem get_step (hstep : (CompressedStore zstd inner).Step s (.get ns id, answer) s') :
    ∃ got, inner.Step s (.get ns id, got) s' ∧ answer = zstd.answer got := by
  simp only [ObjectStorageBackend.Step, ObjectStorageBackend.call, CompressedStore,
    Prod.mk.injEq] at hstep ⊢
  generalize inner.get s ns id = r at hstep
  obtain ⟨t, got⟩ := r
  cases got with
  | error e => exact ⟨_, ⟨hstep.1, rfl⟩, hstep.2.symm⟩
  | ok found =>
    cases found with
    | none => exact ⟨_, ⟨hstep.1, rfl⟩, hstep.2.symm⟩
    | some bytes => exact ⟨_, ⟨hstep.1, rfl⟩, hstep.2.symm⟩

/-- What `delete` does. -/
theorem delete_step (hstep : (CompressedStore zstd inner).Step s (.delete ns id, answer) s') :
    inner.Step s (.delete ns id, answer) s' :=
  hstep

/-- **A compressed map is a map**, of the plain values. -/
theorem actsAsMap (hinner : inner.ActsAsMap holds) :
    (CompressedStore zstd inner).ActsAsMap fun s => zstd.plain (holds s) := by
  rintro s ⟨call, answer⟩ s' hstep
  beta_reduce
  cases call with
  | put ns id value =>
    rcases put_step hstep with ⟨rfl, e, rfl⟩ | ⟨frame, hframe, hput⟩
    · exact .putFailed false
    · rcases (hinner _ _ _ hput).put_cases with ⟨rfl, hs'⟩ | ⟨e, applied, rfl, hs'⟩
      · rw [hs', Zstd.plain_put hframe]
        exact .put
      · have hplain : zstd.plain (holds s') =
            if applied then (zstd.plain (holds s)).put ns id value else zstd.plain (holds s) := by
          rw [hs', ← Zstd.plain_put hframe]
          split <;> rfl
        rw [hplain]
        exact .putFailed applied
  | get ns id =>
    obtain ⟨got, hget, rfl⟩ := get_step hstep
    obtain ⟨hs', rfl | ⟨e, rfl⟩⟩ := (hinner _ _ _ hget).get_cases
    · have hplain : zstd.answer (.found (holds s ns id)) = .found (zstd.plain (holds s) ns id) ∨
          ∃ e, zstd.answer (.found (holds s ns id)) = .failed e := by
        unfold Zstd.plain
        cases holds s ns id with
        | none => exact .inl rfl
        | some bytes =>
          cases hd : zstd.decompress bytes <;>
            simp [Zstd.answer, hd, Except.map, Except.toOption, ObjectAnswer.ofFound]
      rw [hs']
      rcases hplain with hfound | ⟨e, hfailed⟩
      · rw [hfound]
        exact .get
      · rw [hfailed]
        exact .getFailed
    · rw [hs']
      exact .getFailed
  | delete ns id =>
    rcases (hinner _ _ _ (delete_step hstep)).delete_cases with ⟨rfl, hs'⟩ | ⟨e, applied, rfl, hs'⟩
    · rw [hs', Zstd.plain_delete]
      exact .delete
    · have hplain : zstd.plain (holds s') =
          if applied then (zstd.plain (holds s)).delete ns id else zstd.plain (holds s) := by
        rw [hs', ← Zstd.plain_delete]
        split <;> rfl
      rw [hplain]
      exact .deleteFailed applied

/-- **A store of frames stays one.** -/
theorem frames_step (hinner : inner.ActsAsMap holds) (hframes : zstd.Frames (holds s))
    {x : ObjectCall × ObjectAnswer} (hstep : (CompressedStore zstd inner).Step s x s') :
    zstd.Frames (holds s') := by
  obtain ⟨call, answer⟩ := x
  cases call with
  | put ns id value =>
    rcases put_step hstep with ⟨rfl, -⟩ | ⟨frame, hframe, hput⟩
    · exact hframes
    · rcases (hinner _ _ _ hput).put_cases with ⟨-, hs'⟩ | ⟨e, applied, -, hs'⟩
      · exact hs' ▸ hframes.put hframe
      · rw [hs']
        split
        · exact hframes.put hframe
        · exact hframes
  | get ns id =>
    obtain ⟨got, hget, -⟩ := get_step hstep
    exact (hinner _ _ _ hget).get_cases.1 ▸ hframes
  | delete ns id =>
    rcases (hinner _ _ _ (delete_step hstep)).delete_cases with ⟨-, hs'⟩ | ⟨e, applied, -, hs'⟩
    · exact hs' ▸ hframes.delete
    · rw [hs']
      split
      · exact hframes.delete
      · exact hframes

/-- **A store of frames decompresses all it gets.** -/
theorem inner_failed (hinner : inner.ActsAsMap holds) (hframes : zstd.Frames (holds s)) {e : Error}
    (hstep : (CompressedStore zstd inner).Step s (.get ns id, .failed e) s') :
    inner.Step s (.get ns id, .failed e) s' := by
  obtain ⟨got, hget, hgot⟩ := get_step hstep
  rcases (hinner _ _ _ hget).get_cases.2 with rfl | ⟨e', rfl⟩
  · cases hheld : holds s ns id with
    | none => simp [hheld, Zstd.answer] at hgot
    | some bytes =>
      obtain ⟨value, hvalue⟩ := hframes ns id bytes hheld
      simp [hheld, Zstd.answer, hvalue, Except.map, ObjectAnswer.ofFound] at hgot
  · obtain rfl : e = e' := by simpa [Zstd.answer] using hgot
    exact hget

end CompressedStore

/-- **A compressed store is the map of the plain values**: every run of calls on it, over a store
that is a map of frames, is a run of that map, and a `get` fails only if the inner one does. -/
theorem compressed_refines (zstd : Zstd) (inner : ObjectStorageBackend σ) (holds : σ → ObjectStore)
    (hinner : inner.ActsAsMap holds) (init s : σ) (hframes : zstd.Frames (holds init))
    (h : History σ (ObjectCall × ObjectAnswer))
    (hrun : Run (CompressedStore zstd inner).Step init Always h s) :
    Run MapStep (zstd.plain (holds init)) Always (h.project (fun t => zstd.plain (holds t)) some)
        (zstd.plain (holds s)) ∧
      ∀ h₁ t ns id e h₂, h = h₁ ++ (t, .get ns id, .failed e) :: h₂ →
        ∃ t', inner.Step t (.get ns id, .failed e) t' := by
  refine ⟨(CompressedStore.actsAsMap hinner).run hrun, ?_⟩
  rintro h₁ t ns id e h₂ rfl
  obtain ⟨t', hbefore, -, hstep, -⟩ := hrun.split
  have hkept := hbefore.invariant_state (I := fun t => zstd.Frames (holds t)) hframes
    fun _ _ _ _ hI _ hs => CompressedStore.frames_step hinner hI hs
  exact ⟨t', CompressedStore.inner_failed hinner hkept hstep⟩

namespace Sample

/-- A map, in memory. -/
def recordingStore : ObjectStorageBackend ObjectStore where
  put m ns id value := (m.put ns id value, .ok ())
  get m ns id := (m, .ok (m ns id))
  delete m ns id := (m.delete ns id, .ok ())

theorem recordingStore_actsAsMap : recordingStore.ActsAsMap fun m => m := by
  rintro m ⟨call, answer⟩ m' hstep
  cases call with
  | put => cases hstep; exact .put
  | get => cases hstep; exact .get
  | delete => cases hstep; exact .delete

/-- The frame of no value at all. -/
def blankFrame : List UInt8 := [0x28, 0xB5, 0x2F, 0xFD, 0x20, 0x00, 0x01, 0x00, 0x00]

/-- What a frame begins with at `COMPRESSION_LEVEL`: the magic number, no size and no checksum of
the content, and the window. -/
def frameHeader : List UInt8 := [0x28, 0xB5, 0x2F, 0xFD, 0x00, 0x68]

/-- What a last block begins with, if its content is stored as it is. -/
def rawHeader (size : ℕ) : List UInt8 :=
  [.ofNat (8 * size + 1), .ofNat ((8 * size + 1) / 256), .ofNat ((8 * size + 1) / 65536)]

/-- The frames of one block that is stored as it is, which zstd gives for a value that is too short
to compress. -/
def rawFrames : Zstd where
  encodeAll value _ :=
    if value = [] then .ok blankFrame
    else if value.length ≤ 2 ^ 17 then .ok (frameHeader ++ rawHeader value.length ++ value)
    else .error "more than a block"
  decodeAll frame :=
    if frame = blankFrame then .ok []
    else if frame = frameHeader ++ rawHeader (frame.length - 9) ++ frame.drop 9 then
      .ok (frame.drop 9)
    else .error "no such frame"
  decode_encode := by
    intro value level frame hframe
    split_ifs at hframe with hnil hlen <;> cases hframe
    · rw [hnil, if_pos rfl]
    · simp [frameHeader, rawHeader, blankFrame]

end Sample

open DiskObjectStore.Sample in
/-- A value is put as a frame, and got as itself. -/
theorem compressed_refines_recorded : ∃ (h : History ObjectStore (ObjectCall × ObjectAnswer))
    (s : ObjectStore), Run MapStep (fun _ _ => none) Always h (Sample.rawFrames.plain s) ∧
      s pairOne.ns pairOne.id = some [0x28, 0xB5, 0x2F, 0xFD, 0x00, 0x68, 0x09, 0x00, 0x00, 7] ∧
        Sample.rawFrames.plain s pairOne.ns pairOne.id = some [7] := by
  have h₀ : Run (CompressedStore Sample.rawFrames Sample.recordingStore).Step (fun _ _ => none)
      Always [] (fun _ _ => none) := .start
  have h₁ := h₀.next (a := (.put pairOne.ns pairOne.id [7], .done)) trivial (by exact rfl)
  have h₂ := h₁.next (a := (.get pairOne.ns pairOne.id, .found (some [7]))) trivial
    (by exact rfl)
  have hplain := (compressed_refines Sample.rawFrames Sample.recordingStore (fun m => m)
    Sample.recordingStore_actsAsMap _ _ (fun _ _ _ h => by cases h) _ h₂).1
  exact ⟨_, _, hplain, rfl, rfl⟩

/-! ### On the disk -/

namespace DiskObjectStore

variable {zstd : Zstd} {root : String} {blank : Blank root} {h : History Volume Action} {s : Volume}
  {p : Pair} {frame : List UInt8}

end DiskObjectStore

end Semisweet.Core
