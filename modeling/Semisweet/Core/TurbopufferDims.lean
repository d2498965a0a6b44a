import Semisweet.Core.TurbopufferRow
import Semisweet.Core.TurbopufferUrl
import Semisweet.Foundations.Runs
import Mathlib.Data.List.Infix

/-!
# The dimensions a client remembers

The service behind `TurbopufferVectorStore` (`src/backends/vector_turbopuffer.rs`) fixes the
dimension of a namespace when the first row is upserted. The store remembers the dimensions it has
seen accepted (`dims`), refuses a vector of another one without asking, and names what it remembers
in the error when the service refuses.

## The model

Any number of threads upsert at once. An upsert reads what is remembered, posts the row, and
remembers the dimension if the post succeeds; another thread may do anything in between, and so
may somebody else who has the same namespaces. A post that fails, or that nothing is heard of, may
have taken effect. The service takes no vector of another dimension than the namespace's, and
nobody deletes a namespace. A namespace of the service is the path that is posted to.

The lock of `dims` is held for one access, in which nothing panics.

## What is proved

* `remote_step` — the dimension of a namespace is fixed for good.
* `remembered_run` — what is remembered, or read, or accepted, is that dimension.
* `dims_coherent` — in every run: what the store remembers of a namespace is the service's
  dimension; all upserts that succeed in a namespace have the same; and one that is refused as a
  mismatch is told the service's dimension, which is another than its own unless the service itself
  has refused its own dimension.
-/

namespace Semisweet.Core

open Semisweet.Foundations

variable {R : Type} [Field R]

/-! ### The response -/

/-- `StatusCode`. -/
structure StatusCode where
  /-- The number. -/
  code : UInt16
  /-- How it is shown. -/
  shown : String

namespace StatusCode

/-- `is_success`. -/
def isSuccess (self : StatusCode) : Bool := 200 ≤ self.code && self.code < 300

/-- `is_client_error`. -/
def isClientError (self : StatusCode) : Bool := 400 ≤ self.code && self.code < 500

end StatusCode

/-- What `execute` returns: a status and a text, unless there is no response. -/
abbrev Executed := Except String (StatusCode × String)

/-- The request succeeded. -/
def Succeeded : Executed → Prop
  | .ok (status, _) => status.isSuccess = true
  | .error _ => False

/-- `str::contains`. -/
def containsText (text pattern : String) : Bool := decide (pattern.toList <:+: text.toList)

namespace TurbopufferVectorStore

variable (P : Platform R) (self : TurbopufferVectorStore)

/-- `is_dimension_error`. -/
def isDimensionError (text : String) : Bool :=
  let lower := P.toLowercase text
  containsText lower "dimension" || (containsText lower "schema" && containsText lower "vector")

/-- What is made of a response that is no success: of an upsert, with the dimension that was
remembered before it. -/
def upsertError (ns : Namespace) (dim : Dim) (remembered : Option Dim) : Executed → Error
  | .error e => .vectorStorage e
  | .ok (status, text) =>
    if status.isClientError && isDimensionError P text then
      match remembered with
      | some want => .dimMismatch dim want
      | none => .vectorStorage <|
        s!"turbopuffer rejected upsert dimension {dim.val} for namespace " ++
          s!"`{self.physicalNamespace ns}`; expected remote dimension unknown: {text}"
    else .vectorStorage s!"turbopuffer upsert failed ({status.shown}): {text}"

/-- And of a query, with the dimension that is remembered by then. -/
def queryError (dim : Dim) (remembered : Option Dim) (status : StatusCode) (text : String) :
    Error :=
  if status.isClientError && isDimensionError P text then
    match remembered with
    | some want => .dimMismatch dim want
    | none => .vectorStorage <|
      s!"turbopuffer rejected query dimension {dim.val}; expected remote dimension unknown: {text}"
  else .vectorStorage s!"turbopuffer query failed ({status.shown}): {text}"

end TurbopufferVectorStore

/-! ### Threads and the service -/

/-- The dimensions of the service's namespaces. -/
abbrev RemoteDims := List Char → Option Dim

/-- The service takes a vector of this dimension. -/
def RemoteDims.Takes (self : RemoteDims) (path : List Char) (dim : Dim) : Prop :=
  self path = none ∨ self path = some dim

/-- A post of a vector to a path. -/
inductive RemoteDims.Post (self : RemoteDims) (path : List Char) (dim : Dim) :
    Executed → RemoteDims → Prop
  /-- It succeeds. -/
  | accepted {reply : Executed} : self.Takes path dim → Succeeded reply →
      Post self path dim reply (Function.update self path (some dim))
  /-- It fails, and may have taken effect. -/
  | failed {reply : Executed} (applied : Bool) : self.Takes path dim → ¬ Succeeded reply →
      Post self path dim reply (if applied then Function.update self path (some dim) else self)
  /-- The namespace is of another dimension. -/
  | refused {reply : Executed} : ¬ self.Takes path dim → ¬ Succeeded reply →
      Post self path dim reply self

/-- Where a thread is in `upsert`. -/
inductive UpsertPhase (R : Type) [Field R] where
  /-- It is not in `upsert`. -/
  | idle
  /-- It has read what is remembered. -/
  | checked (ns : Namespace) (entry : VectorEntry R) (remembered : Option Dim)
  /-- It has posted the row. -/
  | posted (ns : Namespace) (entry : VectorEntry R) (remembered : Option Dim) (reply : Executed)

/-- The store, its threads and the service. -/
structure DimState (R : Type) [Field R] where
  /-- `dims`. -/
  dims : Namespace → Option Dim
  /-- The service. -/
  remote : RemoteDims
  /-- The threads. -/
  thread : ℕ → UpsertPhase R

/-- Nothing is remembered, and nobody is there. -/
def DimState.init (R : Type) [Field R] (remote : RemoteDims) : DimState R :=
  ⟨fun _ => none, remote, fun _ => .idle⟩

/-- Thread `t` goes on to `x`. -/
def DimState.to (s : DimState R) (t : ℕ) (x : UpsertPhase R) : DimState R :=
  { s with thread := Function.update s.thread t x }

@[simp] theorem DimState.dims_to (s : DimState R) (t : ℕ) (x : UpsertPhase R) :
    (s.to t x).dims = s.dims := rfl

@[simp] theorem DimState.remote_to (s : DimState R) (t : ℕ) (x : UpsertPhase R) :
    (s.to t x).remote = s.remote := rfl

/-- What is done. -/
inductive DimAction (R : Type) [Field R] where
  /-- `cached_dim`, and no other dimension is remembered. -/
  | check (t : ℕ) (ns : Namespace) (entry : VectorEntry R)
  /-- `execute`, of the row. -/
  | post (t : ℕ) (url : String) (row : List (String × Json R)) (reply : Executed)
  /-- `upsert` returns. -/
  | upserted (t : ℕ) (ns : Namespace) (entry : VectorEntry R) (result : Except Error Unit)
  /-- `query` returns an error of the service. -/
  | queried (ns : Namespace) (vector : Embedding R) (e : Error)
  /-- Somebody else upserts into a new namespace. -/
  | elsewhere (path : List Char) (dim : Dim)

section Steps

variable (P : Platform R) (store : TurbopufferVectorStore) (parser : UrlParser)

/-- The service's namespace. -/
def TurbopufferVectorStore.remotePath (ns : Namespace) : List Char :=
  parser.path (store.upsertUrl ns)

/-- One step. -/
inductive DimStep : DimState R → DimAction R → DimState R → Prop
  /-- The dimension is the one remembered, or none is. -/
  | check {s : DimState R} {t : ℕ} {ns : Namespace} {entry : VectorEntry R} :
      s.thread t = .idle → (∀ existing, s.dims ns = some existing → existing = entry.vector.dim) →
        DimStep s (.check t ns entry) (s.to t (.checked ns entry (s.dims ns)))
  /-- It is another. -/
  | mismatch {s : DimState R} {t : ℕ} {ns : Namespace} {entry : VectorEntry R} {existing : Dim} :
      s.thread t = .idle → s.dims ns = some existing → existing ≠ entry.vector.dim →
        DimStep s (.upserted t ns entry (.error (.dimMismatch entry.vector.dim existing))) s
  /-- The row is posted. -/
  | post {s : DimState R} {t : ℕ} {ns : Namespace} {entry : VectorEntry R} {remembered : Option Dim}
      {reply : Executed} {remote : RemoteDims} :
      s.thread t = .checked ns entry remembered →
        s.remote.Post (store.remotePath parser ns) entry.vector.dim reply remote →
          DimStep s (.post t (store.upsertUrl ns) (TurbopufferVectorStore.upsertRow entry) reply)
            ({ s with remote := remote }.to t (.posted ns entry remembered reply))
  /-- `cache_dim`. -/
  | remember {s : DimState R} {t : ℕ} {ns : Namespace} {entry : VectorEntry R}
      {remembered : Option Dim} {reply : Executed} :
      s.thread t = .posted ns entry remembered reply → Succeeded reply →
        DimStep s (.upserted t ns entry (.ok ()))
          ({ s with dims := Function.update s.dims ns (some entry.vector.dim) }.to t .idle)
  /-- The post has failed. -/
  | fail {s : DimState R} {t : ℕ} {ns : Namespace} {entry : VectorEntry R}
      {remembered : Option Dim} {reply : Executed} :
      s.thread t = .posted ns entry remembered reply → ¬ Succeeded reply →
        DimStep s
          (.upserted t ns entry
            (.error (store.upsertError P ns entry.vector.dim remembered reply)))
          (s.to t .idle)
  /-- `query`, answered by a status that is no success. -/
  | query {s : DimState R} {ns : Namespace} {vector : Embedding R} {status : StatusCode}
      {text : String} :
      status.isSuccess = false → status.code ≠ 404 → DimStep s
        (.queried ns vector
          (TurbopufferVectorStore.queryError P vector.dim (s.dims ns) status text)) s
  /-- The namespace is there from now on. -/
  | elsewhere {s : DimState R} {path : List Char} {dim : Dim} :
      s.remote path = none →
        DimStep s (.elsewhere path dim)
          { s with remote := Function.update s.remote path (some dim) }

/-- The runs, whatever the service had before. -/
def DimRun (h : History (DimState R) (DimAction R)) (s : DimState R) : Prop :=
  ∃ remote, Run (DimStep P store parser) (DimState.init R remote) Always h s

end Steps

/-! ### The dimension is fixed -/

section Fixed

variable {P : Platform R} {store : TurbopufferVectorStore} {parser : UrlParser}
  {s s' : DimState R} {a : DimAction R} {h : History (DimState R) (DimAction R)}

/-- A post leaves a dimension as it is. -/
theorem RemoteDims.Post.keep {remote remote' : RemoteDims} {path path' : List Char} {dim d : Dim}
    {reply : Executed} (hpost : remote.Post path dim reply remote') (hd : remote path' = some d) :
    remote' path' = some d := by
  have hupdate (htakes : remote.Takes path dim) :
      Function.update remote path (some dim) path' = some d := by
    by_cases hpath : path' = path
    · subst hpath
      rcases htakes with hnone | hsome
      · simp [hnone] at hd
      · rw [Function.update_self, ← hsome, hd]
    · rwa [Function.update_of_ne hpath]
  cases hpost with
  | accepted htakes _ => exact hupdate htakes
  | failed applied htakes _ =>
    cases applied
    · exact hd
    · exact hupdate htakes
  | refused _ _ => exact hd

/-- A post that succeeds was of the dimension. -/
theorem RemoteDims.Post.succeeded {remote remote' : RemoteDims} {path : List Char} {dim : Dim}
    {reply : Executed} (hpost : remote.Post path dim reply remote') (hok : Succeeded reply) :
    remote' path = some dim := by
  cases hpost with
  | accepted _ _ => exact Function.update_self ..
  | failed _ _ hno => exact absurd hok hno
  | refused _ hno => exact absurd hok hno

/-- **The dimension of a namespace is fixed for good.** -/
theorem remote_step {path : List Char} {d : Dim} (hd : s.remote path = some d)
    (hstep : DimStep P store parser s a s') : s'.remote path = some d := by
  cases hstep with
  | post _ hpost => exact hpost.keep hd
  | @elsewhere path' dim hnone =>
    have hpath : path ≠ path' := by
      rintro rfl
      simp [hnone] at hd
    simpa [hpath] using hd
  | _ => exact hd

/-- The service refused a vector of its namespace's own dimension, and said it was the dimension. -/
def Contradicted (P : Platform R) (store : TurbopufferVectorStore) (parser : UrlParser)
    (h : History (DimState R) (DimAction R)) (ns : Namespace) (entry : VectorEntry R) : Prop :=
  ∃ s₀ t status text,
    (s₀, DimAction.post t (store.upsertUrl ns) (TurbopufferVectorStore.upsertRow entry)
      (.ok (status, text))) ∈ h ∧ s₀.remote (store.remotePath parser ns) = some entry.vector.dim ∧
    status.isClientError = true ∧ TurbopufferVectorStore.isDimensionError P text = true

/-- What a thread has read is the dimension of its vector and of the namespace. -/
def ReadDim (store : TurbopufferVectorStore) (parser : UrlParser) (remote : RemoteDims)
    (ns : Namespace) (entry : VectorEntry R) (remembered : Option Dim) : Prop :=
  ∀ d, remembered = some d →
    d = entry.vector.dim ∧ remote (store.remotePath parser ns) = some entry.vector.dim

/-- **What is remembered, read and accepted is the dimension.** -/
structure Remembered (store : TurbopufferVectorStore) (parser : UrlParser)
    (h : History (DimState R) (DimAction R)) (s : DimState R) : Prop where
  /-- What is remembered. -/
  dims : ∀ ns d, s.dims ns = some d → s.remote (store.remotePath parser ns) = some d
  /-- What was read before a post. -/
  checked : ∀ t ns entry remembered, s.thread t = .checked ns entry remembered →
    ReadDim store parser s.remote ns entry remembered
  /-- What was read before a post that has been answered. -/
  posted : ∀ t ns entry remembered reply, s.thread t = .posted ns entry remembered reply →
    ReadDim store parser s.remote ns entry remembered ∧ ∃ s₀,
      (s₀, DimAction.post t (store.upsertUrl ns) (TurbopufferVectorStore.upsertRow entry) reply) ∈
          h ∧ ReadDim store parser s₀.remote ns entry remembered
  /-- A post that succeeded. -/
  accepted : ∀ t ns entry remembered reply, s.thread t = .posted ns entry remembered reply →
    Succeeded reply → s.remote (store.remotePath parser ns) = some entry.vector.dim

theorem remembered_init (remote : RemoteDims) :
    Remembered store parser [] (DimState.init R remote) where
  dims ns d h := by simp [DimState.init] at h
  checked t ns entry remembered h := by simp [DimState.init] at h
  posted t ns entry remembered reply h := by simp [DimState.init] at h
  accepted t ns entry remembered reply h := by simp [DimState.init] at h

theorem ReadDim.keep {remote remote' : RemoteDims} {ns : Namespace} {entry : VectorEntry R}
    {remembered : Option Dim} (hread : ReadDim store parser remote ns entry remembered)
    (hkeep : ∀ path d, remote path = some d → remote' path = some d) :
    ReadDim store parser remote' ns entry remembered := fun d hd =>
  ⟨(hread d hd).1, hkeep _ _ (hread d hd).2⟩

/-- Thread `t` goes on, and no dimension changes. -/
theorem Remembered.to (hI : Remembered store parser h s) (step : DimState R × DimAction R)
    {dims : Namespace → Option Dim} {remote : RemoteDims} {t : ℕ} {x : UpsertPhase R}
    (hkeep : ∀ path d, s.remote path = some d → remote path = some d)
    (hdims : ∀ ns d, dims ns = some d → remote (store.remotePath parser ns) = some d)
    (hchecked : ∀ ns entry remembered, x = .checked ns entry remembered →
      ReadDim store parser remote ns entry remembered)
    (hposted : ∀ ns entry remembered reply, x = .posted ns entry remembered reply →
      (ReadDim store parser remote ns entry remembered ∧ ∃ s₀,
        (s₀, DimAction.post t (store.upsertUrl ns) (TurbopufferVectorStore.upsertRow entry) reply) ∈
            h ++ [step] ∧ ReadDim store parser s₀.remote ns entry remembered) ∧
      (Succeeded reply → remote (store.remotePath parser ns) = some entry.vector.dim)) :
    Remembered store parser (h ++ [step]) (DimState.to ⟨dims, remote, s.thread⟩ t x) where
  dims := hdims
  checked t' ns entry remembered hx := by
    obtain rfl | ht := eq_or_ne t' t
    · exact hchecked ns entry remembered (by simpa [DimState.to] using hx)
    · exact (hI.checked t' ns entry remembered (by simpa [DimState.to, ht] using hx)).keep hkeep
  posted t' ns entry remembered reply hx := by
    obtain rfl | ht := eq_or_ne t' t
    · exact (hposted ns entry remembered reply (by simpa [DimState.to] using hx)).1
    · obtain ⟨hread, s₀, hm, hread₀⟩ :=
        hI.posted t' ns entry remembered reply (by simpa [DimState.to, ht] using hx)
      exact ⟨hread.keep hkeep, s₀, List.mem_append_left _ hm, hread₀⟩
  accepted t' ns entry remembered reply hx hok := by
    obtain rfl | ht := eq_or_ne t' t
    · exact (hposted ns entry remembered reply (by simpa [DimState.to] using hx)).2 hok
    · exact hkeep _ _
        (hI.accepted t' ns entry remembered reply (by simpa [DimState.to, ht] using hx) hok)

/-- No thread goes on, and no dimension changes. -/
theorem Remembered.stay (hI : Remembered store parser h s) (step : DimState R × DimAction R)
    {remote : RemoteDims} (hkeep : ∀ path d, s.remote path = some d → remote path = some d) :
    Remembered store parser (h ++ [step]) { s with remote := remote } where
  dims ns d hd := hkeep _ _ (hI.dims ns d hd)
  checked t ns entry remembered hx := (hI.checked t ns entry remembered hx).keep hkeep
  posted t ns entry remembered reply hx := by
    obtain ⟨hread, s₀, hm, hread₀⟩ := hI.posted t ns entry remembered reply hx
    exact ⟨hread.keep hkeep, s₀, List.mem_append_left _ hm, hread₀⟩
  accepted t ns entry remembered reply hx hok :=
    hkeep _ _ (hI.accepted t ns entry remembered reply hx hok)

/-- **Every step keeps what is remembered right.** -/
theorem remembered_step (hI : Remembered store parser h s) (hstep : DimStep P store parser s a s') :
    Remembered store parser (h ++ [(s, a)]) s' := by
  have hkeep : ∀ path d, s.remote path = some d → s'.remote path = some d :=
    fun _ _ hd => remote_step hd hstep
  cases hstep with
  | @check t ns entry _ hdim =>
    refine hI.to _ hkeep hI.dims (fun ns' entry' remembered hx => ?_) fun _ _ _ _ hx => by cases hx
    cases hx
    intro d hd
    obtain rfl := hdim d hd
    exact ⟨rfl, hI.dims ns _ hd⟩
  | mismatch _ _ _ => exact hI.stay _ hkeep
  | @post t ns entry remembered reply remote hx hpost =>
    refine hI.to _ hkeep (fun ns d hd => hkeep _ _ (hI.dims ns d hd)) (fun _ _ _ hx => by cases hx)
      fun ns' entry' remembered' reply' hx' => ?_
    cases hx'
    have hread := hI.checked t ns entry remembered hx
    exact ⟨⟨hread.keep hkeep, s, by simp, hread⟩, hpost.succeeded⟩
  | @remember t ns entry remembered reply hx hok =>
    refine hI.to _ hkeep (fun ns' d hd => ?_) (fun _ _ _ hx => by cases hx)
      fun _ _ _ _ hx => by cases hx
    obtain rfl | hns := eq_or_ne ns' ns
    · obtain rfl : entry.vector.dim = d := by simpa using hd
      exact hI.accepted t ns' entry remembered reply hx hok
    · exact hI.dims ns' d (by simpa [hns] using hd)
  | fail _ _ =>
    exact hI.to _ hkeep hI.dims (fun _ _ _ hx => by cases hx) fun _ _ _ _ hx => by cases hx
  | query _ _ => exact hI.stay _ hkeep
  | elsewhere _ => exact hI.stay _ hkeep

theorem remembered_run (hrun : DimRun P store parser h s) : Remembered store parser h s := by
  obtain ⟨remote, hrun⟩ := hrun
  exact hrun.invariant (remembered_init remote) fun _ _ _ _ _ hI _ hstep =>
    remembered_step hI hstep

/-! ### What upserts are told -/

omit [Field R] in
theorem upsertError_eq {ns : Namespace} {dim : Dim} {remembered : Option Dim} {reply : Executed}
    {got want : ℕ} (h : store.upsertError P ns dim remembered reply = .dimMismatch got want) :
    ∃ status text d, reply = .ok (status, text) ∧ status.isClientError = true ∧
      TurbopufferVectorStore.isDimensionError P text = true ∧ remembered = some d ∧
        got = dim ∧ want = d := by
  cases reply with
  | error e => simp [TurbopufferVectorStore.upsertError] at h
  | ok response =>
    obtain ⟨status, text⟩ := response
    simp only [TurbopufferVectorStore.upsertError, Bool.and_eq_true] at h
    split at h
    · rename_i hblamed
      cases remembered with
      | none => cases h
      | some d =>
        cases h
        exact ⟨status, text, d, rfl, hblamed.1, hblamed.2, rfl, rfl, rfl⟩
    · cases h

omit [Field R] in
theorem queryError_eq {dim : Dim} {remembered : Option Dim} {status : StatusCode} {text : String}
    {got want : ℕ}
    (h : TurbopufferVectorStore.queryError P dim remembered status text = .dimMismatch got want) :
    ∃ d, remembered = some d ∧ got = dim ∧ want = d := by
  simp only [TurbopufferVectorStore.queryError] at h
  split at h
  · cases remembered with
    | none => cases h
    | some d =>
      cases h
      exact ⟨d, rfl, rfl, rfl⟩
  · cases h

/-- A vector of another dimension is never taken. -/
theorem RemoteDims.Post.not_succeeded {remote remote' : RemoteDims} {path : List Char} {dim d : Dim}
    {reply : Executed} (hpost : remote.Post path dim reply remote') (hd : remote path = some d)
    (hne : d ≠ dim) : ¬ Succeeded reply := by
  intro hok
  have hdim := hpost.keep hd
  rw [hpost.succeeded hok, Option.some.injEq] at hdim
  exact hne hdim.symm

/-- **The answers are right**: upserts that succeed in a namespace are all of its dimension, and a
mismatch names that dimension. -/
structure DimsCoherent (P : Platform R) (store : TurbopufferVectorStore) (parser : UrlParser)
    (h : History (DimState R) (DimAction R)) (s : DimState R) : Prop where
  /-- What is remembered is the service's dimension. -/
  remembered : ∀ ns d, s.dims ns = some d → s.remote (store.remotePath parser ns) = some d
  /-- What was accepted was of the service's dimension. -/
  accepted : ∀ s₁ t ns entry, (s₁, DimAction.upserted t ns entry (.ok ())) ∈ h →
    s.remote (store.remotePath parser ns) = some entry.vector.dim
  /-- What was refused as a mismatch would be refused by the service, then and ever after; unless
  the two dimensions are the same, and the service had refused that dimension. -/
  refused : ∀ s₁ t ns entry got want,
    (s₁, DimAction.upserted t ns entry (.error (.dimMismatch got want))) ∈ h →
    ∃ d : Dim, s.remote (store.remotePath parser ns) = some d ∧ want = d ∧
      got = entry.vector.dim ∧
      (got ≠ want → ∀ reply remote,
        s.remote.Post (store.remotePath parser ns) entry.vector.dim reply remote →
          ¬ Succeeded reply) ∧
      (got = want → Contradicted P store parser h ns entry)
  /-- A query that is refused as a mismatch is told the service's dimension. -/
  queried : ∀ s₁ ns vector got want,
    (s₁, DimAction.queried ns vector (.dimMismatch got want)) ∈ h →
    ∃ d : Dim, s.remote (store.remotePath parser ns) = some d ∧ want = d ∧ got = vector.dim

/-- What was refused stays so. -/
theorem refused_of_remote {ns : Namespace} {entry : VectorEntry R} {d : Dim} {got want : ℕ}
    (hremote : s.remote (store.remotePath parser ns) = some d) (hwant : want = d)
    (hgot : got = entry.vector.dim) (hne : got ≠ want) (reply : Executed) (remote : RemoteDims)
    (hpost : s.remote.Post (store.remotePath parser ns) entry.vector.dim reply remote) :
    ¬ Succeeded reply := by
  refine hpost.not_succeeded hremote ?_
  rintro rfl
  exact hne (hgot.trans hwant.symm)

theorem Contradicted.mono {ns : Namespace} {entry : VectorEntry R} (t : DimState R × DimAction R)
    (hc : Contradicted P store parser h ns entry) :
    Contradicted P store parser (h ++ [t]) ns entry := by
  obtain ⟨s₀, t₀, status, text, hm, hrest⟩ := hc
  exact ⟨s₀, t₀, status, text, List.mem_append_left _ hm, hrest⟩

/-- **What an upsert is told as a mismatch**: the namespace's dimension. -/
theorem refused_now (hI : Remembered store parser h s) {t : ℕ} {ns : Namespace}
    {entry : VectorEntry R} {got want : ℕ}
    (hstep : DimStep P store parser s (.upserted t ns entry (.error (.dimMismatch got want))) s') :
    ∃ d : Dim, s.remote (store.remotePath parser ns) = some d ∧ want = d ∧
      got = entry.vector.dim ∧ (got = want → Contradicted P store parser h ns entry) := by
  generalize hresult : (Except.error (Error.dimMismatch got want) : Except Error Unit) = result
    at hstep
  cases hstep with
  | mismatch _ hd hne =>
    simp only [Except.error.injEq, Error.dimMismatch.injEq] at hresult
    obtain ⟨hgot, hwant⟩ := hresult
    refine ⟨_, hI.dims _ _ hd, hwant, hgot, fun heq => absurd (PNat.coe_inj.mp ?_) hne⟩
    rw [← hwant, ← heq, hgot]
  | remember _ _ => cases hresult
  | @fail _ _ _ remembered reply hx _ =>
    -- the service blamed the dimension that was remembered, which is the vector's own
    rw [Except.error.injEq] at hresult
    obtain ⟨status, text, d, rfl, hclient, hblamed, rfl, hgot, hwant⟩ := upsertError_eq hresult.symm
    obtain ⟨hread, s₀, hm, hread₀⟩ := hI.posted _ _ _ _ _ hx
    obtain ⟨rfl, hremote⟩ := hread d rfl
    exact ⟨_, hremote, hwant, hgot,
      fun _ => ⟨s₀, t, status, text, hm, (hread₀ _ rfl).2, hclient, hblamed⟩⟩

/-- **Every answer is right.** -/
theorem dims_coherent (hrun : DimRun P store parser h s) : DimsCoherent P store parser h s := by
  obtain ⟨remote, hrun⟩ := hrun
  refine hrun.invariant (I := fun h s => DimsCoherent P store parser h s)
    ⟨fun ns d hd => by simp [DimState.init] at hd, by simp, by simp, by simp⟩
    fun h s a s' hr hI _ hstep => ?_
  have hbefore : Remembered store parser h s := remembered_run ⟨remote, hr⟩
  have hkeep : ∀ path d, s.remote path = some d → s'.remote path = some d :=
    fun _ _ hd => remote_step hd hstep
  refine ⟨(remembered_step hbefore hstep).dims, fun s₁ t ns entry hm => ?_,
    fun s₁ t ns entry got want hm => ?_, fun s₁ ns vector got want hm => ?_⟩
  · rcases List.mem_append.mp hm with hm | hm
    · exact hkeep _ _ (hI.accepted s₁ t ns entry hm)
    · -- it succeeds now
      obtain ⟨rfl, rfl⟩ := by simpa using hm
      cases hstep with
      | remember hx hok => exact hbefore.accepted _ _ _ _ _ hx hok
  · rcases List.mem_append.mp hm with hm | hm
    · obtain ⟨d, hremote, hwant, hgot, -, hsame⟩ := hI.refused s₁ t ns entry got want hm
      have hremote' := hkeep _ _ hremote
      exact ⟨d, hremote', hwant, hgot, refused_of_remote hremote' hwant hgot,
        fun heq => (hsame heq).mono _⟩
    · -- it is refused now
      obtain ⟨rfl, rfl⟩ := by simpa using hm
      obtain ⟨d, hremote, hwant, hgot, hsame⟩ := refused_now hbefore hstep
      have hremote' := hkeep _ _ hremote
      exact ⟨d, hremote', hwant, hgot, refused_of_remote hremote' hwant hgot,
        fun heq => (hsame heq).mono _⟩
  · rcases List.mem_append.mp hm with hm | hm
    · obtain ⟨d, hremote, hrest⟩ := hI.queried s₁ ns vector got want hm
      exact ⟨d, hkeep _ _ hremote, hrest⟩
    · -- it is refused now
      obtain ⟨rfl, ha⟩ := by simpa using hm
      subst ha
      generalize he : Error.dimMismatch got want = e at hstep
      cases hstep with
      | query _ _ =>
        obtain ⟨d, hd, hgot, hwant⟩ := queryError_eq he.symm
        exact ⟨d, hkeep _ _ (hbefore.dims ns d hd), hwant, hgot⟩

end Fixed

namespace Sample

/-- A vector of two dimensions. -/
def wide : Embedding ℚ := ⟨2, [1, 0], rfl, by simp [sumSquares]⟩

/-- An entry with it. -/
def wideEntry : VectorEntry ℚ := ⟨idBoth, wide, ∅, ∅, none⟩

/-- `200 OK`. -/
def accepted : Executed := .ok (⟨200, "200 OK"⟩, "")

end Sample

open TurbopufferVectorStore in
/-- A namespace is upserted to, and then a vector of another dimension is refused. -/
theorem dims_coherent_wide : ∃ h s s₁,
    DimsCoherent Sample.platform (new "https://api.turbopuffer.com") Sample.plain h s ∧
      (s₁, DimAction.upserted 0 Sample.nsXY Sample.wideEntry (.error (.dimMismatch 2 1))) ∈ h := by
  let store := new "https://api.turbopuffer.com"
  have h₀ : Run (DimStep Sample.platform store Sample.plain) (DimState.init ℚ fun _ => none) Always
      [] _ := .start
  have hcheck := h₀.next trivial
    (@DimStep.check _ _ _ _ _ _ 0 Sample.nsXY Sample.described rfl (by simp [DimState.init]))
  have hpost := hcheck.next trivial
    (@DimStep.post _ _ _ _ _ _ 0 Sample.nsXY Sample.described none Sample.accepted _ rfl
      (.accepted (.inl rfl) rfl))
  have hdone := hpost.next trivial
    (@DimStep.remember _ _ _ _ _ _ 0 Sample.nsXY Sample.described none Sample.accepted rfl rfl)
  have hwide := hdone.next trivial
    (@DimStep.mismatch _ _ _ _ _ _ 0 Sample.nsXY Sample.wideEntry 1 rfl (by rfl) (by decide))
  exact ⟨_, _, _, dims_coherent ⟨_, hwide⟩, List.mem_append_right _ (List.mem_singleton.mpr rfl)⟩

end Semisweet.Core
