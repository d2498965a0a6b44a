import Semisweet.Core.TurbopufferFuse
import Semisweet.Core.TurbopufferService

/-!
# The requests and responses of a turbopuffer query

`TurbopufferVectorStore::query` (`src/backends/vector_turbopuffer.rs`) sends one query, or two if
there is a context, and makes of the response a list of hits, or an error.

## The model

What is sent is `queryRequests`, and what is made of the response `queryReply`. In between is the
service (`Remote.Queried`). It reads each query (`Asked.read`): what to rank the rows by, how many
to return, which to take, and which attributes to send. It answers with the best of the rows that
are taken, ties as it likes (`IsLeg`); a namespace that is not there with `404 Not Found`, and a
vector of another dimension with some other client error that names it. Vectors are of length one,
and so the cosine of two is the sum of the products; the BM25 score of two texts is a parameter,
and a row is taken for it only if it is positive.

The text of a response is parsed by `serde_json` (`JsonText`), and read as
`MultiQueryResponse::deserialize` reads it. Members that it does not read may be there.
-/

namespace Semisweet.Core

open Semisweet.Foundations

variable {R : Type} [Field R]

/-! ### The request -/

namespace TurbopufferVectorStore

/-- The attributes that are asked for. -/
def attributes : List String := ["entities", "keys", "context"]

end TurbopufferVectorStore

/-! ### The service -/

/-- The vector of a row. -/
def rowVector (row : Row R) : List R :=
  match row.lookup "vector" with
  | some (.arr values) => values.filterMap Json.asNum?
  | _ => []

/-- The BM25 score of a row's context: 0 if it has none. -/
def rowBm25 (bm25 : String → String → R) (text : String) (row : Row R) : R :=
  match (row.lookup "context").bind Json.asStr? with
  | some stored => bm25 text stored
  | none => 0

/-- What a query asks to rank by. -/
inductive RankBy (R : Type) where
  /-- The nearest to a vector. -/
  | ann (values : List R)
  /-- The best match of a text. -/
  | bm25 (text : String)

namespace RankBy

/-- `rank_by`, as it is read. -/
def read : Json R → Option (RankBy R)
  | .arr [.str "vector", .str "ANN", .arr values] => (values.mapM Json.asNum?).map ann
  | .arr [.str "context", .str "BM25", .str text] => some (bm25 text)
  | _ => none

variable (bm : String → String → R)

/-- The score of a row. -/
def score : RankBy R → Row R → R
  | ann values, row => sumProducts values (rowVector row)
  | bm25 text, row => rowBm25 bm text row

/-- `$dist`. -/
def dist (self : RankBy R) (row : Row R) : R :=
  match self with
  | ann _ => 1 - self.score bm row
  | bm25 _ => self.score bm row

variable [LinearOrder R]

end RankBy

/-- A query, as the service reads it. -/
structure Asked (R : Type) where
  /-- What to rank by. -/
  rankBy : RankBy R
  /-- How many. -/
  topK : ℕ
  /-- The attributes. -/
  attributes : List String
  /-- The filter. -/
  filters : Option (Json R)

/-- The service reads a query. -/
structure Asked.Reads (request : Row R) (asked : Asked R) : Prop where
  /-- What to rank by. -/
  rankBy : (request.lookup "rank_by").bind RankBy.read = some asked.rankBy
  /-- How many. -/
  topK : request.lookup "top_k" = some (.num asked.topK)
  /-- The attributes. -/
  attributes : (request.lookup "include_attributes").bind Json.asStrs? = some asked.attributes
  /-- The filter. -/
  filters : request.lookup "filters" = asked.filters

section Service

variable [LinearOrder R] (P : Platform R) (bm25 : String → String → R)

/-- `serde_json`. -/
structure JsonText (R : Type) where
  /-- What a text is read as. -/
  parse : String → Option (Json R)
  /-- What is said of a text that is not read. -/
  complaint : String → String

end Service

/-! ### The response -/

namespace TurbopufferVectorStore

/-- An array's items; none if there is no array. -/
def arrayOr : Option (Json R) → Option (List (Json R))
  | none => some []
  | some (.arr values) => some values
  | _ => none

/-- `QueryResult`'s `Deserialize`. -/
def QueryResult.deserialize : Json R → Option (List (QueryRow R))
  | .obj members => do
    let rows ← arrayOr (members.lookup "rows")
    rows.mapM fun
      | .obj members => QueryRow.deserialize members
      | _ => none
  | _ => none

/-- `MultiQueryResponse`'s `Deserialize`. -/
def MultiQueryResponse.deserialize : Json R → Option (List (List (QueryRow R)))
  | .obj members => do
    let results ← arrayOr (members.lookup "results")
    results.mapM QueryResult.deserialize
  | _ => none

variable (P : Platform R) (json : JsonText R)

end TurbopufferVectorStore

end Semisweet.Core
