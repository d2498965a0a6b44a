import Semisweet.Foundations.Strip
import Mathlib.Algebra.BigOperators.Group.List.Lemmas
import Mathlib.Algebra.Order.Field.Basic
import Mathlib.Data.Finset.Sort
import Mathlib.Data.PNat.Basic
import Mathlib.Data.String.Basic
import Mathlib.Tactic.Linarith

/-!
# The validating newtypes

The values every other part of semisweet passes around (`src/newtype.rs`), and the
errors their constructors return (`src/error.rs`). Each newtype carries the property its
constructor checks, so that a value of the type is a validated one.

## The model

* Text is trimmed as Rust's `str::trim` trims it, at both ends by the Unicode
  `White_Space` property (`trim`). `QueryText`, `Key` and `Context` are one kind of text,
  trimmed and not empty (`NonBlank`), with an error of their own each.
* A `BTreeSet` is a `Finset`, and its iteration order is `Finset.sort`.
* An `Embedding` is a list of scalars of an ordered field `R`, in exact arithmetic: the
  `f32` rounding of the source, its infinities and its `NaN`s are not modelled, and with
  them the two checks of `Embedding::new` that every component and the norm are finite.
* `EntryId::derive` hashes its buffer with the `uuid` crate's `Uuid::new_v5`, which is the
  parameter `newV5` here.
-/

namespace Semisweet.Core

open Semisweet.Foundations

/-! ### Errors -/

/-- The kinds of `std::io::Error` the code tells apart. -/
inductive ErrorKind where
  /-- No such file. -/
  | notFound
  /-- Nobody listens on the socket. -/
  | connectionRefused
  /-- The peer closed the connection. -/
  | unexpectedEof
  /-- Any other kind. -/
  | other
  deriving DecidableEq, Repr

/-- `error::Error`. The `source` of a backend's error is its text. -/
inductive Error where
  | emptyQuery
  | emptyContext
  | emptyKey
  | emptyEntity
  | emptyNamespace
  | invalidNamespace (message : String)
  | emptyEmbedding
  | zeroEmbedding
  | nonFiniteEmbedding
  | dimMismatch (got want : ℕ)
  | missingEnv (var : String)
  | unknownBackend (name : String)
  | invalidConfig (message : String)
  | namespaceMissing (name : String)
  | entityExtraction (source : String)
  | embedding (source : String)
  | vectorStorage (source : String)
  | objectStorage (source : String)
  | compression (source : String)
  | daemonShutdown
  | daemon (message : String)
  | protocolVersionMismatch (client daemon : UInt32)
  | io (kind : ErrorKind)
  | codec
  deriving DecidableEq, Repr

/-- `Error`'s `Display`. -/
def Error.message : Error → String
  | .emptyQuery => "query text is empty"
  | .emptyContext => "context is empty"
  | .emptyKey => "key is empty"
  | .emptyEntity => "entity is empty"
  | .emptyNamespace => "namespace is empty"
  | .invalidNamespace message => s!"invalid namespace: {message}"
  | .emptyEmbedding => "embedding is empty"
  | .zeroEmbedding => "embedding has zero norm"
  | .nonFiniteEmbedding => "embedding has non-finite component or norm"
  | .dimMismatch got want => s!"embedding dimension {got} != index dimension {want}"
  | .missingEnv var => s!"required environment variable `{var}` is not set"
  | .unknownBackend name => s!"unknown backend `{name}`"
  | .invalidConfig message => s!"invalid namespace config: {message}"
  | .namespaceMissing name => s!"no namespace `{name}`"
  | .entityExtraction _ => "entity extraction failed"
  | .embedding _ => "embedding failed"
  | .vectorStorage _ => "vector storage failed"
  | .objectStorage _ => "object storage failed"
  | .compression _ => "compression failed"
  | .daemonShutdown => "daemon is shutting down"
  | .daemon message => s!"daemon lifecycle error: {message}"
  | .protocolVersionMismatch client own =>
    s!"protocol version mismatch: client {client}, daemon {own}"
  | .io _ => "daemon i/o failed"
  | .codec => "protocol codec failed"

/-- Peel a computation apart: it succeeds when both its halves do. -/
theorem bind_eq_ok {ε : Type} {α β : Type} {x : Except ε α} {f : α → Except ε β} {b : β} :
    x >>= f = .ok b ↔ ∃ a, x = .ok a ∧ f a = .ok b := by
  cases x with
  | error e => simp [bind, Except.bind]
  | ok a => simp [bind, Except.bind]

/-- What is mapped succeeds when it did. -/
theorem map_eq_ok {ε : Type} {α β : Type} {x : Except ε α} {f : α → β} {b : β} :
    f <$> x = .ok b ↔ ∃ a, x = .ok a ∧ f a = b := by
  cases x <;> simp

/-! ### Text -/

/-- Unicode `White_Space`, as `char::is_whitespace`. -/
def isWhitespace (c : Char) : Bool :=
  let n := c.toNat
  (0x9 ≤ n && n ≤ 0xD) || n == 0x20 || n == 0x85 || n == 0xA0 || n == 0x1680 ||
    (0x2000 ≤ n && n ≤ 0x200A) || n == 0x2028 || n == 0x2029 || n == 0x202F ||
    n == 0x205F || n == 0x3000

/-- `str::trim`. -/
def trim (s : String) : String := String.ofList (strip isWhitespace s.toList)

@[simp] theorem trim_trim (s : String) : trim (trim s) = trim s := by
  simp [trim, strip_strip]

/-- Text is blank when all of it is white space. -/
theorem trim_eq_empty_iff {s : String} : trim s = "" ↔ ∀ c ∈ s.toList, isWhitespace c = true := by
  rw [trim, ← String.toList_inj, String.toList_ofList, String.toList_empty, strip_eq_nil_iff]

/-- Text that is trimmed and not empty: what `QueryText::new`, `Key::new` and
`Context::new` all make sure of. -/
structure NonBlank where
  /-- The text. -/
  val : String
  /-- It has no whitespace at its ends. -/
  trimmed : trim val = val
  /-- It is not empty. -/
  nonempty : val ≠ ""
  deriving DecidableEq

/-- Trim, and refuse empty text with the error given. -/
def NonBlank.new (empty : Error) (value : String) : Except Error NonBlank :=
  if h : trim value = "" then .error empty else .ok ⟨trim value, trim_trim value, h⟩

/-- What the constructor accepts, and what it makes of it. -/
theorem NonBlank.new_eq_ok_iff {empty : Error} {value : String} {t : NonBlank} :
    NonBlank.new empty value = .ok t ↔ t.val = trim value := by
  obtain ⟨v, ht, hn⟩ := t
  unfold NonBlank.new
  split
  · rename_i h
    simp only [h, reduceCtorEq, false_iff]
    exact hn
  · simp [eq_comm]

/-- Validated text is accepted as it is. -/
theorem NonBlank.new_val (empty : Error) (t : NonBlank) : NonBlank.new empty t.val = .ok t :=
  new_eq_ok_iff.mpr t.trimmed.symm

/-- `QueryText`. -/
structure QueryText where
  /-- The text. -/
  text : NonBlank
  deriving DecidableEq

/-- `Key`. -/
structure Key where
  /-- The text. -/
  text : NonBlank
  deriving DecidableEq

/-- `Context`. -/
structure Context where
  /-- The text. -/
  text : NonBlank
  deriving DecidableEq

/-- `QueryText::as_str`. -/
def QueryText.asStr (q : QueryText) : String := q.text.val

/-- `Key::as_str`. -/
def Key.asStr (k : Key) : String := k.text.val

/-- `Context::as_str`. -/
def Context.asStr (c : Context) : String := c.text.val

/-- `QueryText::new`. -/
def QueryText.new (value : String) : Except Error QueryText :=
  .mk <$> NonBlank.new .emptyQuery value

/-- `Key::new`. -/
def Key.new (value : String) : Except Error Key := .mk <$> NonBlank.new .emptyKey value

/-- `Context::new`. -/
def Context.new (value : String) : Except Error Context := .mk <$> NonBlank.new .emptyContext value

theorem Key.asStr_injective : Function.Injective Key.asStr := by
  rintro ⟨⟨a, _, _⟩⟩ ⟨⟨b, _, _⟩⟩ h
  simpa [Key.asStr] using h

theorem QueryText.asStr_injective : Function.Injective QueryText.asStr := by
  rintro ⟨⟨a, _, _⟩⟩ ⟨⟨b, _, _⟩⟩ h
  simpa [QueryText.asStr] using h

theorem Context.asStr_injective : Function.Injective Context.asStr := by
  rintro ⟨⟨a, _, _⟩⟩ ⟨⟨b, _, _⟩⟩ h
  simpa [Context.asStr] using h

/-- Keys are ordered by their bytes, which for UTF-8 is by their code points. -/
instance : LinearOrder Key := LinearOrder.lift' Key.asStr Key.asStr_injective

/-- `Entity`: text that is not blank. -/
structure Entity where
  /-- The text, as it was extracted. -/
  val : String
  /-- It is not blank. -/
  nonblank : trim val ≠ ""
  deriving DecidableEq

/-- `Entity::new`. -/
def Entity.new (value : String) : Except Error Entity :=
  if h : trim value = "" then .error .emptyEntity else .ok ⟨value, h⟩

/-- A query, a key or a context is made again of its own text. -/
theorem QueryText.new_asStr (q : QueryText) : QueryText.new q.asStr = .ok q := by
  rw [QueryText.new, QueryText.asStr, NonBlank.new_val]
  rfl

theorem Key.new_asStr (k : Key) : Key.new k.asStr = .ok k := by
  rw [Key.new, Key.asStr, NonBlank.new_val]
  rfl

theorem Context.new_asStr (c : Context) : Context.new c.asStr = .ok c := by
  rw [Context.new, Context.asStr, NonBlank.new_val]
  rfl

/-- So is an optional context. -/
theorem Context.mapM_new_asStr (context : Option Context) :
    (context.map Context.asStr).mapM Context.new = .ok context := by
  cases context with
  | none => rfl
  | some c =>
    rw [Option.map_some, Option.mapM_some, c.new_asStr]
    rfl

/-- The characters a namespace must not hold. -/
def isUnsafe (c : Char) : Bool := c == '/' || c == '\\' || c == '\x00'

/-- `Namespace`: trimmed text that is a single safe path segment. -/
structure Namespace where
  /-- The text. -/
  val : String
  /-- It has no whitespace at its ends. -/
  trimmed : trim val = val
  /-- It is not empty. -/
  nonempty : val ≠ ""
  /-- It has no path separator and no NUL. -/
  safe : val.toList.any isUnsafe = false
  /-- It is not a path traversal component. -/
  notDots : val ≠ "." ∧ val ≠ ".."
  deriving DecidableEq

/-- `Namespace::new`. -/
def Namespace.new (value : String) : Except Error Namespace :=
  let trimmed := trim value
  if he : trimmed = "" then .error .emptyNamespace
  else if hs : trimmed.toList.any isUnsafe = true then
    .error (.invalidNamespace s!"namespace `{trimmed}` must be a single safe path segment")
  else if hd : trimmed = "." ∨ trimmed = ".." then
    .error (.invalidNamespace s!"namespace `{trimmed}` must not be a path traversal component")
  else .ok ⟨trimmed, trim_trim value, he, by simpa using hs, not_or.mp hd⟩

/-! ### Embeddings -/

/-- `Dim`, a `NonZeroUsize`. -/
abbrev Dim := ℕ+

section Embedding

variable {R : Type} [Field R]

/-- The sum of the squares of the components. -/
def sumSquares (values : List R) : R := (values.map fun v => v * v).sum

/-- `Embedding`: a vector of norm one. -/
structure Embedding (R : Type) [Field R] where
  /-- The dimension. -/
  dim : Dim
  /-- The components. -/
  values : List R
  /-- There are as many as the dimension says. -/
  length_eq : values.length = dim
  /-- The vector is normalized. -/
  unit : sumSquares values = 1

/-- Dividing every component by `n` divides the sum of their squares by `n * n`. -/
theorem sumSquares_div (values : List R) (n : R) :
    sumSquares (values.map (· / n)) = sumSquares values / (n * n) := by
  induction values with
  | nil => simp [sumSquares]
  | cons v vs ih =>
    simp only [sumSquares, List.map_cons, List.sum_cons, List.map_map] at ih ⊢
    rw [ih, add_div, div_mul_div_comm]

/-- `Embedding::new`: divide by the norm. The square root is the arithmetic's own. -/
def Embedding.new [DecidableEq R] (sqrt : R → R)
    (hsqrt : ∀ values : List R,
      sqrt (sumSquares values) * sqrt (sumSquares values) = sumSquares values)
    (values : List R) : Except Error (Embedding R) :=
  if hl : 0 < values.length then
    let norm := sqrt (sumSquares values)
    if hn : norm = 0 then .error .zeroEmbedding
    else .ok
      { dim := ⟨values.length, hl⟩
        values := values.map (· / norm)
        length_eq := by simp
        unit := by
          rw [sumSquares_div, hsqrt values]
          exact div_self fun h => hn (mul_self_eq_zero.mp ((hsqrt values).trans h)) }
  else .error .emptyEmbedding

/-- The sum of the products of the components. -/
def sumProducts (xs ys : List R) : R := (List.zipWith (· * ·) xs ys).sum

/-- `Embedding::dot`. -/
def Embedding.dot (self other : Embedding R) : Except Error R :=
  if self.dim ≠ other.dim then .error (.dimMismatch other.dim self.dim)
  else .ok (sumProducts self.values other.values)

/-- The dot product of an embedding with itself is one. -/
theorem Embedding.sumProducts_self (e : Embedding R) : sumProducts e.values e.values = 1 := by
  have h : List.zipWith (· * ·) e.values e.values = e.values.map fun v => v * v := by
    rw [List.zipWith_self]
  rw [sumProducts, h]
  exact e.unit

variable [LinearOrder R] [IsStrictOrderedRing R]

/-- Twice the dot product is at most the sum of the squares, componentwise
`2ab ≤ a² + b²`. -/
theorem two_mul_sumProducts_le (xs ys : List R) (h : xs.length = ys.length) :
    2 * sumProducts xs ys ≤ sumSquares xs + sumSquares ys := by
  induction xs generalizing ys with
  | nil =>
    cases ys with
    | nil => simp [sumProducts, sumSquares]
    | cons y ys => simp at h
  | cons x xs ih =>
    cases ys with
    | nil => simp at h
    | cons y ys =>
      have hrest := ih ys (by simpa using h)
      have hsq := two_mul_le_add_sq x y
      simp only [sumProducts, sumSquares, List.zipWith_cons_cons, List.map_cons,
        List.sum_cons] at hrest ⊢
      rw [sq, sq] at hsq
      linarith

/-- **No embedding is closer to an embedding than itself.** -/
theorem Embedding.sumProducts_le_one (e e' : Embedding R) (h : e.dim = e'.dim) :
    sumProducts e.values e'.values ≤ 1 := by
  have hle := two_mul_sumProducts_le e.values e'.values (by rw [e.length_eq, e'.length_eq, h])
  rw [e.unit, e'.unit] at hle
  linarith

end Embedding

/-! ### Entry ids -/

/-- The sixteen bytes of a UUID. -/
abbrev Uuid := Vector UInt8 16

/-- `NAMESPACE_UUID`. -/
def namespaceUuid : Uuid :=
  #v[0x9e, 0x6f, 0x4d, 0x2a, 0x1b, 0x73, 0x5c, 0x84, 0xa0, 0x3f, 0xd1, 0x2e, 0x7b, 0x88, 0x46, 0x90]

/-- `EntryId`. -/
structure EntryId where
  /-- The bytes. -/
  bytes : Uuid
  deriving DecidableEq

/-- `str::as_bytes`: the UTF-8 encoding. -/
def asBytes (s : String) : List UInt8 := s.toList.flatMap String.utf8EncodeChar

/-- `u64::to_le_bytes` of a length. -/
def leBytes (n : ℕ) : List UInt8 := (List.range 8).map fun i => UInt8.ofNat (n / 256 ^ i)

/-- `EntryId::push_field`: a field's length, then its bytes. -/
def pushField (buf field : List UInt8) : List UInt8 := buf ++ leBytes field.length ++ field

/-- The parts of a lookup, as `conn::Parts`: the query, the key set, and the context. -/
structure Parts where
  /-- The query. -/
  query : QueryText
  /-- The keys. -/
  keys : Finset Key
  /-- The context. -/
  context : Option Context
  deriving DecidableEq

/-- The buffer `EntryId::derive` hashes. -/
def EntryId.buffer (p : Parts) : List UInt8 :=
  let buf := pushField [] (asBytes p.query.asStr)
  let buf := match p.context with
    | some context => pushField (buf ++ [1]) (asBytes context.asStr)
    | none => buf ++ [0]
  (p.keys.sort (· ≤ ·)).foldl (fun buf key => pushField buf (asBytes key.asStr)) buf

/-- The keys of a set, in its order. -/
def sortedKeys (keys : Finset Key) : List Key := keys.sort (· ≤ ·)

@[simp] theorem mem_sortedKeys {keys : Finset Key} {key : Key} :
    key ∈ sortedKeys keys ↔ key ∈ keys :=
  Finset.mem_sort _

theorem toFinset_sortedKeys (keys : Finset Key) : (sortedKeys keys).toFinset = keys :=
  Finset.sort_toFinset ..

/-- `EntryId::derive`. -/
def EntryId.derive (newV5 : Uuid → List UInt8 → Uuid) (p : Parts) : EntryId :=
  ⟨newV5 namespaceUuid (EntryId.buffer p)⟩

end Semisweet.Core
