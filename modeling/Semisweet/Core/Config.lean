import Semisweet.Core.Selection
import Semisweet.Foundations.Records

/-!
# The configuration of a namespace

A client says which backends a namespace has, and how it scores, in a `NamespaceConfig`
(`src/registry.rs`). It travels to the daemon as JSON, in the request that registers the namespace.

## The model

The JSON is a tree; that its text is read back as the same tree is left to serde_json. A number is
an integer or not, as its text has a fraction or not. An `f32` is a number or not finite, and then
serde_json writes null, which is read as no number. What `#[derive(Serialize, Deserialize)]` makes
of a type is written out: a choice of a backend is an object with its kind under `kind`, an optional
setting may be left out or null, a name that is no field of the object is passed over, a field that
is there twice is refused, and an array is read as the fields in order, the kind in front.

## What is proved

* `NamespaceConfig.read_serialize`, `NamespaceConfig.read_toArray` — a configuration whose numbers
  are finite is read back from its tree, and from the arrays of its fields; another one is refused.
* `config_round_trip` — and so it is of every rearrangement of the tree: with the fields of any
  object in any order, and with names that are no fields of it; without its scoring, it has the
  default one.
-/

namespace Semisweet.Core

open Semisweet.Foundations

/-- How many values a `usize` has. -/
def usizeValues : ℕ := 2 ^ 64

/-- `serde_json::Number`. -/
inductive Number (R : Type) where
  /-- An integer. -/
  | int (value : ℤ)
  /-- Any other. -/
  | float (value : R)

variable {R : Type}

namespace Number

/-- As `usize`. -/
def usize : Number R → Option ℕ
  | int value => if 0 ≤ value ∧ value.toNat < usizeValues then some value.toNat else none
  | float _ => none

/-- As `f32`. -/
def f32 [IntCast R] : Number R → Option R
  | int value => some value
  | float value => some value

@[simp] theorem usize_int {n : ℕ} (h : n < usizeValues) : (int n : Number R).usize = some n := by
  simp [usize, h]

end Number

/-! ### The choices -/

/-- `EmbeddingChoice`. -/
inductive EmbeddingChoice where
  | voyage (model : Option String) (dim : Option ℕ)
  | «local» (model : Option String)
  deriving DecidableEq

/-- `EntityChoice`. -/
inductive EntityChoice where
  | keyword (language : Option String)
  | gliner (labels : List String) (repo model tokenizer : Option String)
  deriving DecidableEq

/-- `VectorChoice`. -/
inductive VectorChoice where
  | memory
  | turbopuffer
  deriving DecidableEq

/-- `ObjectChoice`. -/
inductive ObjectChoice where
  | disk (root : Option String)
  | s3 (bucket region endpoint : Option String) (keyPrefix : String)
  deriving DecidableEq

/-- `NamespaceConfig`. -/
structure NamespaceConfig (R : Type) where
  /-- How queries are embedded. -/
  embedding : EmbeddingChoice
  /-- How entities are extracted. -/
  entity : EntityChoice
  /-- Where vectors are stored. -/
  vector : VectorChoice
  /-- Where payloads are stored. -/
  object : ObjectChoice
  /-- How lookups are scored. -/
  scoring : ScoringDto R

/-! ### The fields -/

/-- The fields of `EmbeddingChoice`, by its kind. -/
def EmbeddingChoice.fields (kind : String) : List String :=
  if kind = "voyage" then ["model", "dim"] else if kind = "local" then ["model"] else []

/-- The fields of `EntityChoice`, by its kind. -/
def EntityChoice.fields (kind : String) : List String :=
  if kind = "keyword" then ["language"]
  else if kind = "gliner" then ["labels", "repo", "model", "tokenizer"]
  else []

/-- The fields of `VectorChoice`: none. -/
def VectorChoice.fields (_kind : String) : List String := []

/-- The fields of `ObjectChoice`, by its kind. -/
def ObjectChoice.fields (kind : String) : List String :=
  if kind = "disk" then ["root"]
  else if kind = "s3" then ["bucket", "region", "endpoint", "prefix"]
  else []

/-- The fields of `ScoringDto`. -/
def ScoringDto.fields : List String :=
  ["threshold", "entity_filter", "context", "context_gate", "context_threshold", "top_k"]

/-- The fields of `NamespaceConfig`. -/
def NamespaceConfig.fields : List String := ["embedding", "entity", "vector", "object", "scoring"]

/-- What is under them. -/
def NamespaceConfig.schema : Schema :=
  .record
    [("embedding", .tagged "kind" EmbeddingChoice.fields),
      ("entity", .tagged "kind" EntityChoice.fields),
      ("vector", .tagged "kind" VectorChoice.fields),
      ("object", .tagged "kind" ObjectChoice.fields),
      ("scoring", .flat ScoringDto.fields)]

/-! ### Writing -/

/-- `skip_serializing_if = "Option::is_none"`. -/
def skipNone (name : String) (value : Option (Value (Number R))) :
    List (String × Value (Number R)) :=
  value.toList.map fun value => (name, value)

/-- An optional string, where it is not skipped. -/
def orNull (value : Option String) : Value (Number R) := (value.map .str).getD .null

/-- `EmbeddingChoice::serialize`. -/
def EmbeddingChoice.toValue : EmbeddingChoice → Value (Number R)
  | .voyage model dim =>
    .obj (("kind", .str "voyage") :: skipNone "model" (model.map .str) ++
      skipNone "dim" (dim.map fun dim => .num (.int dim)))
  | .«local» model => .obj (("kind", .str "local") :: skipNone "model" (model.map .str))

/-- `EntityChoice::serialize`. -/
def EntityChoice.toValue : EntityChoice → Value (Number R)
  | .keyword language => .obj [("kind", .str "keyword"), ("language", orNull language)]
  | .gliner labels repo model tokenizer =>
    .obj (("kind", .str "gliner") :: ("labels", .arr (labels.map .str)) ::
      skipNone "repo" (repo.map .str) ++ skipNone "model" (model.map .str) ++
        skipNone "tokenizer" (tokenizer.map .str))

/-- `VectorChoice::serialize`. -/
def VectorChoice.toValue : VectorChoice → Value (Number R)
  | .memory => .obj [("kind", .str "memory")]
  | .turbopuffer => .obj [("kind", .str "turbopuffer")]

/-- `ObjectChoice::serialize`. -/
def ObjectChoice.toValue : ObjectChoice → Value (Number R)
  | .disk root => .obj [("kind", .str "disk"), ("root", orNull root)]
  | .s3 bucket region endpoint keyPrefix =>
    .obj (("kind", .str "s3") :: skipNone "bucket" (bucket.map .str) ++
      skipNone "region" (region.map .str) ++ skipNone "endpoint" (endpoint.map .str) ++
        [("prefix", .str keyPrefix)])

/-- An `f32`, `none` if it is not finite. -/
def f32Value : Option R → Value (Number R)
  | some value => .num (.float value)
  | none => .null

section Serialize

variable {F : Type} (f32 : F → Value (Number R))

/-- `ScoringDto::serialize`, by how an `f32` is written. -/
def ScoringDto.serialize (self : ScoringDto F) : Value (Number R) :=
  .obj
    [("threshold", f32 self.threshold),
      ("entity_filter", .bool self.entityFilter),
      ("context", .str self.context),
      ("context_gate", f32 self.contextGate),
      ("context_threshold", f32 self.contextThreshold),
      ("top_k", .num (.int self.topK))]

/-- The backends, as members. -/
def NamespaceConfig.backends (self : NamespaceConfig F) : List (String × Value (Number R)) :=
  [("embedding", self.embedding.toValue), ("entity", self.entity.toValue),
    ("vector", self.vector.toValue), ("object", self.object.toValue)]

/-- `NamespaceConfig::serialize`. -/
def NamespaceConfig.serialize (self : NamespaceConfig F) : Value (Number R) :=
  .obj (self.backends ++ [("scoring", self.scoring.serialize f32)])

end Serialize

/-- A configuration whose numbers are finite, written. -/
def NamespaceConfig.toValue (self : NamespaceConfig R) : Value (Number R) :=
  self.serialize fun value => .num (.float value)

/-- The scoring, of other numbers. -/
def ScoringDto.traverse {F : Type} (number : F → Option R) (self : ScoringDto F) :
    Option (ScoringDto R) := do
  let threshold ← number self.threshold
  let contextGate ← number self.contextGate
  let contextThreshold ← number self.contextThreshold
  some ⟨threshold, self.entityFilter, self.context, contextGate, contextThreshold, self.topK⟩

/-- The configuration, of other numbers. -/
def NamespaceConfig.traverse {F : Type} (number : F → Option R) (self : NamespaceConfig F) :
    Option (NamespaceConfig R) :=
  (self.scoring.traverse number).map fun scoring =>
    ⟨self.embedding, self.entity, self.vector, self.object, scoring⟩

/-- The configuration, if its numbers are finite. -/
def NamespaceConfig.finite (self : NamespaceConfig (Option R)) : Option (NamespaceConfig R) :=
  self.traverse id

/-! ### Writing as arrays -/

/-- `EmbeddingChoice`, as an array. -/
def EmbeddingChoice.toArray : EmbeddingChoice → Value (Number R)
  | .voyage model dim =>
    .arr [.str "voyage", orNull model, (dim.map fun dim => .num (.int dim)).getD .null]
  | .«local» model => .arr [.str "local", orNull model]

/-- `EntityChoice`, as an array. -/
def EntityChoice.toArray : EntityChoice → Value (Number R)
  | .keyword language => .arr [.str "keyword", orNull language]
  | .gliner labels repo model tokenizer =>
    .arr [.str "gliner", .arr (labels.map .str), orNull repo, orNull model, orNull tokenizer]

/-- `VectorChoice`, as an array. -/
def VectorChoice.toArray : VectorChoice → Value (Number R)
  | .memory => .arr [.str "memory"]
  | .turbopuffer => .arr [.str "turbopuffer"]

/-- `ObjectChoice`, as an array. -/
def ObjectChoice.toArray : ObjectChoice → Value (Number R)
  | .disk root => .arr [.str "disk", orNull root]
  | .s3 bucket region endpoint keyPrefix =>
    .arr [.str "s3", orNull bucket, orNull region, orNull endpoint, .str keyPrefix]

/-- `ScoringDto`, as an array. -/
def ScoringDto.toArray {F : Type} (f32 : F → Value (Number R)) (self : ScoringDto F) :
    Value (Number R) :=
  .arr
    [f32 self.threshold, .bool self.entityFilter, .str self.context, f32 self.contextGate,
      f32 self.contextThreshold, .num (.int self.topK)]

/-- `NamespaceConfig`, as an array of arrays. -/
def NamespaceConfig.toArray {F : Type} (f32 : F → Value (Number R)) (self : NamespaceConfig F) :
    Value (Number R) :=
  .arr
    [self.embedding.toArray, self.entity.toArray, self.vector.toArray, self.object.toArray,
      self.scoring.toArray f32]

/-! ### Reading -/

/-- `EmbeddingChoice::Voyage`. -/
def EmbeddingChoice.readVoyage : RecordReader (Number R) EmbeddingChoice where
  fields := fields "voyage"
  required := 0
  read members := do
    let model ← readDefault members "model" none (readOption readStr)
    let dim ← readDefault members "dim" none (readOption (readNum Number.usize))
    some (.voyage model dim)

/-- `EmbeddingChoice::Local`. -/
def EmbeddingChoice.readLocal : RecordReader (Number R) EmbeddingChoice where
  fields := fields "local"
  required := 0
  read members := do
    let model ← readDefault members "model" none (readOption readStr)
    some (.«local» model)

/-- `EmbeddingChoice::deserialize`. -/
def EmbeddingChoice.read : ValueReader (Number R) EmbeddingChoice :=
  readTagged "kind" fun kind =>
    if kind = "voyage" then some readVoyage else if kind = "local" then some readLocal else none

/-- `EntityChoice::Keyword`. -/
def EntityChoice.readKeyword : RecordReader (Number R) EntityChoice where
  fields := fields "keyword"
  required := 1
  read members := do
    let language ← readDefault members "language" none (readOption readStr)
    some (.keyword language)

/-- `EntityChoice::Gliner`. -/
def EntityChoice.readGliner : RecordReader (Number R) EntityChoice where
  fields := fields "gliner"
  required := 1
  read members := do
    let labels ← readRequired members "labels" readStrs
    let repo ← readDefault members "repo" none (readOption readStr)
    let model ← readDefault members "model" none (readOption readStr)
    let tokenizer ← readDefault members "tokenizer" none (readOption readStr)
    some (.gliner labels repo model tokenizer)

/-- `EntityChoice::deserialize`. -/
def EntityChoice.read : ValueReader (Number R) EntityChoice :=
  readTagged "kind" fun kind =>
    if kind = "keyword" then some readKeyword
    else if kind = "gliner" then some readGliner
    else none

/-- A kind of `VectorChoice`. -/
def VectorChoice.readKind (choice : VectorChoice) : RecordReader (Number R) VectorChoice where
  fields := []
  required := 0
  read _ := some choice

/-- `VectorChoice::deserialize`. -/
def VectorChoice.read : ValueReader (Number R) VectorChoice :=
  readTagged "kind" fun kind =>
    if kind = "memory" then some (readKind .memory)
    else if kind = "turbopuffer" then some (readKind .turbopuffer)
    else none

/-- `ObjectChoice::Disk`. -/
def ObjectChoice.readDisk : RecordReader (Number R) ObjectChoice where
  fields := fields "disk"
  required := 1
  read members := do
    let root ← readDefault members "root" none (readOption readStr)
    some (.disk root)

/-- `ObjectChoice::S3`. -/
def ObjectChoice.readS3 : RecordReader (Number R) ObjectChoice where
  fields := fields "s3"
  required := 4
  read members := do
    let bucket ← readDefault members "bucket" none (readOption readStr)
    let region ← readDefault members "region" none (readOption readStr)
    let endpoint ← readDefault members "endpoint" none (readOption readStr)
    let keyPrefix ← readRequired members "prefix" readStr
    some (.s3 bucket region endpoint keyPrefix)

/-- `ObjectChoice::deserialize`. -/
def ObjectChoice.read : ValueReader (Number R) ObjectChoice :=
  readTagged "kind" fun kind =>
    if kind = "disk" then some readDisk else if kind = "s3" then some readS3 else none

/-- `ScoringDto::deserialize`. -/
def ScoringDto.reader [IntCast R] : RecordReader (Number R) (ScoringDto R) where
  fields := fields
  required := 6
  read members := do
    let threshold ← readRequired members "threshold" (readNum Number.f32)
    let entityFilter ← readRequired members "entity_filter" readBool
    let context ← readRequired members "context" readStr
    let contextGate ← readRequired members "context_gate" (readNum Number.f32)
    let contextThreshold ← readRequired members "context_threshold" (readNum Number.f32)
    let topK ← readRequired members "top_k" (readNum Number.usize)
    some ⟨threshold, entityFilter, context, contextGate, contextThreshold, topK⟩

/-- `NamespaceConfig::deserialize`. -/
def NamespaceConfig.reader [Field R] : RecordReader (Number R) (NamespaceConfig R) where
  fields := fields
  required := 4
  read members := do
    let embedding ← readRequired members "embedding" EmbeddingChoice.read
    let entity ← readRequired members "entity" EntityChoice.read
    let vector ← readRequired members "vector" VectorChoice.read
    let object ← readRequired members "object" ObjectChoice.read
    let scoring ← readDefault members "scoring" .default ScoringDto.reader.readRecord
    some ⟨embedding, entity, vector, object, scoring⟩

/-- A configuration, of its tree. -/
def NamespaceConfig.read [Field R] : ValueReader (Number R) (NamespaceConfig R) :=
  reader.readRecord

/-! ### Any rearrangement is read the same -/

theorem EmbeddingChoice.steadfast_read :
    Steadfast (.tagged "kind" fields) (EmbeddingChoice.read (R := R)) := by
  refine steadfast_readTagged fun kind variant hvariant members members' h => ?_
  split_ifs at hvariant with hvoyage hlocal <;> cases hvariant
  · subst hvoyage
    simp only [readVoyage]
    rw [readDefault_rearrange h "model" steadfast_readStr.readOption (by simp [fields]),
      readDefault_rearrange h "dim" (steadfast_readNum _).readOption (by simp [fields])]
  · subst hlocal
    simp only [readLocal]
    rw [readDefault_rearrange h "model" steadfast_readStr.readOption (by simp [fields])]

theorem EntityChoice.steadfast_read :
    Steadfast (.tagged "kind" fields) (EntityChoice.read (R := R)) := by
  refine steadfast_readTagged fun kind variant hvariant members members' h => ?_
  split_ifs at hvariant with hkeyword hgliner <;> cases hvariant
  · subst hkeyword
    simp only [readKeyword]
    rw [readDefault_rearrange h "language" steadfast_readStr.readOption (by simp [fields])]
  · subst hgliner
    simp only [readGliner]
    rw [readRequired_rearrange h "labels" steadfast_readStrs (by simp [fields]),
      readDefault_rearrange h "repo" steadfast_readStr.readOption (by simp [fields]),
      readDefault_rearrange h "model" steadfast_readStr.readOption (by simp [fields]),
      readDefault_rearrange h "tokenizer" steadfast_readStr.readOption (by simp [fields])]

theorem VectorChoice.steadfast_read :
    Steadfast (.tagged "kind" fields) (VectorChoice.read (R := R)) := by
  refine steadfast_readTagged fun kind variant hvariant members members' h => ?_
  split_ifs at hvariant <;> cases hvariant <;> rfl

theorem ObjectChoice.steadfast_read :
    Steadfast (.tagged "kind" fields) (ObjectChoice.read (R := R)) := by
  refine steadfast_readTagged fun kind variant hvariant members members' h => ?_
  split_ifs at hvariant with hdisk hs3 <;> cases hvariant
  · subst hdisk
    simp only [readDisk]
    rw [readDefault_rearrange h "root" steadfast_readStr.readOption (by simp [fields])]
  · subst hs3
    simp only [readS3]
    rw [readDefault_rearrange h "bucket" steadfast_readStr.readOption (by simp [fields]),
      readDefault_rearrange h "region" steadfast_readStr.readOption (by simp [fields]),
      readDefault_rearrange h "endpoint" steadfast_readStr.readOption (by simp [fields]),
      readRequired_rearrange h "prefix" steadfast_readStr (by simp [fields])]

theorem ScoringDto.steadfast_read [IntCast R] :
    Steadfast (.flat fields) (ScoringDto.reader (R := R)).readRecord := by
  refine RecordReader.Steady.steadfast fun members members' h => ?_
  simp only [reader]
  rw [readRequired_rearrange h "threshold" (steadfast_readNum _) (by simp [fields]),
    readRequired_rearrange h "entity_filter" steadfast_readBool (by simp [fields]),
    readRequired_rearrange h "context" steadfast_readStr (by simp [fields]),
    readRequired_rearrange h "context_gate" (steadfast_readNum _) (by simp [fields]),
    readRequired_rearrange h "context_threshold" (steadfast_readNum _) (by simp [fields]),
    readRequired_rearrange h "top_k" (steadfast_readNum _) (by simp [fields])]

/-- **A configuration is read the same of any rearrangement.** -/
theorem NamespaceConfig.steadfast_read [Field R] :
    Steadfast schema (NamespaceConfig.read (R := R)) := by
  refine RecordReader.Steady.steadfast fun members members' h => ?_
  have hnames : ∀ name ∈ fields, name ∈ schema.names members := fun _ hname => hname
  simp only [reader]
  rw [readRequired_rearrange h "embedding" EmbeddingChoice.steadfast_read
      (hnames _ (by simp [fields])),
    readRequired_rearrange h "entity" EntityChoice.steadfast_read (hnames _ (by simp [fields])),
    readRequired_rearrange h "vector" VectorChoice.steadfast_read (hnames _ (by simp [fields])),
    readRequired_rearrange h "object" ObjectChoice.steadfast_read (hnames _ (by simp [fields])),
    readDefault_rearrange h "scoring" ScoringDto.steadfast_read (hnames _ (by simp [fields]))]

/-! ### What is written is read -/

/-- Its dimension is a `usize`. -/
def EmbeddingChoice.Fits : EmbeddingChoice → Prop
  | .voyage _ (some dim) => dim < usizeValues
  | _ => True

/-- Its numbers are `usize`s. -/
def NamespaceConfig.Fits {F : Type} (self : NamespaceConfig F) : Prop :=
  self.embedding.Fits ∧ self.scoring.topK < usizeValues

theorem EmbeddingChoice.read_toValue {choice : EmbeddingChoice} (hfits : choice.Fits) :
    EmbeddingChoice.read (choice.toValue : Value (Number R)) = some choice := by
  cases choice with
  | voyage model dim =>
    cases model <;> cases dim <;>
      simp_all [EmbeddingChoice.read, readTagged, readVoyage, toValue, readRequired, readDefault,
        readField, readStr, readOption, skipNone, readNum, Fits]
  | «local» model =>
    cases model <;>
      simp [EmbeddingChoice.read, readTagged, readLocal, toValue, readRequired, readDefault,
        readField, readStr, readOption, skipNone]

theorem EntityChoice.read_toValue (choice : EntityChoice) :
    EntityChoice.read (choice.toValue : Value (Number R)) = some choice := by
  cases choice with
  | keyword language =>
    cases language <;>
      simp [EntityChoice.read, readTagged, readKeyword, toValue, readRequired, readDefault,
        readField, readStr, readOption, orNull]
  | gliner labels repo model tokenizer =>
    cases repo <;> cases model <;> cases tokenizer <;>
      simp [EntityChoice.read, readTagged, readGliner, toValue, readRequired, readDefault,
        readField, readStr, readOption, skipNone]

theorem VectorChoice.read_toValue (choice : VectorChoice) :
    VectorChoice.read (choice.toValue : Value (Number R)) = some choice := by
  cases choice <;>
    simp [VectorChoice.read, readTagged, readKind, toValue, readRequired, readField, readStr]

theorem ObjectChoice.read_toValue (choice : ObjectChoice) :
    ObjectChoice.read (choice.toValue : Value (Number R)) = some choice := by
  cases choice with
  | disk root =>
    cases root <;>
      simp [ObjectChoice.read, readTagged, readDisk, toValue, readRequired, readDefault, readField,
        readStr, readOption, orNull]
  | s3 bucket region endpoint keyPrefix =>
    cases bucket <;> cases region <;> cases endpoint <;>
      simp [ObjectChoice.read, readTagged, readS3, toValue, readRequired, readDefault, readField,
        readStr, readOption, skipNone]

section Numbers

variable {F : Type} {f32 : F → Value (Number R)} {number : F → Option R}

theorem ScoringDto.read_serialize [IntCast R]
    (hf32 : ∀ value, readNum Number.f32 (f32 value) = number value) {dto : ScoringDto F}
    (hfits : dto.topK < usizeValues) :
    ScoringDto.reader.readRecord (dto.serialize f32) = dto.traverse number := by
  have htopK : readNum Number.usize (.num (.int dto.topK) : Value (Number R)) = some dto.topK :=
    Number.usize_int (R := R) hfits
  show reader.read _ = _
  cases hthreshold : number dto.threshold <;> cases hgate : number dto.contextGate <;>
    cases hcontext : number dto.contextThreshold <;>
      simp [reader, traverse, readRequired, readField, readStr, readBool, hf32, htopK, hthreshold,
        hgate, hcontext]

/-- **A configuration is read back**, with the numbers that its numbers are read as. -/
theorem NamespaceConfig.read_serialize [Field R]
    (hf32 : ∀ value, readNum Number.f32 (f32 value) = number value) {config : NamespaceConfig F}
    (hfits : config.Fits) :
    NamespaceConfig.read (config.serialize f32) = config.traverse number := by
  have hscoring := ScoringDto.read_serialize hf32 hfits.2
  show reader.read (config.backends ++ [("scoring", config.scoring.serialize f32)]) = _
  cases hdto : config.scoring.traverse number <;>
    simp [reader, backends, traverse, readRequired, readDefault, readField,
      EmbeddingChoice.read_toValue hfits.1, EntityChoice.read_toValue, VectorChoice.read_toValue,
      ObjectChoice.read_toValue, hscoring, hdto]

/-- Without its scoring, it has the default one. -/
theorem NamespaceConfig.read_backends [Field R] {config : NamespaceConfig F}
    (hfits : config.embedding.Fits) :
    NamespaceConfig.read (.obj config.backends) =
      some ⟨config.embedding, config.entity, config.vector, config.object, .default (R := R)⟩ := by
  show reader.read config.backends = _
  simp [reader, backends, readRequired, readDefault, readField,
    EmbeddingChoice.read_toValue hfits, EntityChoice.read_toValue, VectorChoice.read_toValue,
    ObjectChoice.read_toValue]

/-! ### What is written as arrays is read -/

theorem EmbeddingChoice.read_toArray {choice : EmbeddingChoice} (hfits : choice.Fits) :
    EmbeddingChoice.read (choice.toArray : Value (Number R)) = some choice := by
  cases choice with
  | voyage model dim =>
    cases model <;> cases dim <;>
      simp_all [EmbeddingChoice.read, readTagged, readVoyage, RecordReader.readArray, toArray,
        fields, readDefault, readField, readStr, readOption, orNull, readNum, Fits]
  | «local» model =>
    cases model <;>
      simp [EmbeddingChoice.read, readTagged, readLocal, RecordReader.readArray, toArray, fields,
        readDefault, readField, readStr, readOption, orNull]

theorem EntityChoice.read_toArray (choice : EntityChoice) :
    EntityChoice.read (choice.toArray : Value (Number R)) = some choice := by
  cases choice with
  | keyword language =>
    cases language <;>
      simp [EntityChoice.read, readTagged, readKeyword, RecordReader.readArray, toArray, fields,
        readDefault, readField, readStr, readOption, orNull]
  | gliner labels repo model tokenizer =>
    cases repo <;> cases model <;> cases tokenizer <;>
      simp [EntityChoice.read, readTagged, readGliner, RecordReader.readArray, toArray, fields,
        readRequired, readDefault, readField, readStr, readOption, orNull]

theorem VectorChoice.read_toArray (choice : VectorChoice) :
    VectorChoice.read (choice.toArray : Value (Number R)) = some choice := by
  cases choice <;>
    simp [VectorChoice.read, readTagged, readKind, RecordReader.readArray, toArray, readStr]

theorem ObjectChoice.read_toArray (choice : ObjectChoice) :
    ObjectChoice.read (choice.toArray : Value (Number R)) = some choice := by
  cases choice with
  | disk root =>
    cases root <;>
      simp [ObjectChoice.read, readTagged, readDisk, RecordReader.readArray, toArray, fields,
        readDefault, readField, readStr, readOption, orNull]
  | s3 bucket region endpoint keyPrefix =>
    cases bucket <;> cases region <;> cases endpoint <;>
      simp [ObjectChoice.read, readTagged, readS3, RecordReader.readArray, toArray, fields,
        readRequired, readDefault, readField, readStr, readOption, orNull]

theorem ScoringDto.read_toArray [IntCast R] (dto : ScoringDto F) :
    ScoringDto.reader.readRecord (dto.toArray f32) =
      ScoringDto.reader.readRecord (dto.serialize f32) :=
  rfl

/-- **A configuration is read back from the arrays of its fields.** -/
theorem NamespaceConfig.read_toArray [Field R]
    (hf32 : ∀ value, readNum Number.f32 (f32 value) = number value) {config : NamespaceConfig F}
    (hfits : config.Fits) :
    NamespaceConfig.read (config.toArray f32) = config.traverse number := by
  have hscoring := ScoringDto.read_serialize hf32 hfits.2
  show reader.readArray [config.embedding.toArray, config.entity.toArray, config.vector.toArray,
    config.object.toArray, config.scoring.toArray f32] = _
  cases hdto : config.scoring.traverse number <;>
    simp [RecordReader.readArray, reader, fields, traverse, readRequired, readDefault, readField,
      EmbeddingChoice.read_toArray hfits.1, EntityChoice.read_toArray, VectorChoice.read_toArray,
      ObjectChoice.read_toArray, ScoringDto.read_toArray, hscoring, hdto]

end Numbers

theorem readNum_f32Value [IntCast R] (value : Option R) :
    readNum Number.f32 (f32Value value) = value := by
  cases value <;> rfl

/-- **A configuration whose numbers are finite is read back.** -/
theorem NamespaceConfig.read_toValue [Field R] {config : NamespaceConfig R} (hfits : config.Fits) :
    NamespaceConfig.read config.toValue = some config :=
  (NamespaceConfig.read_serialize (fun _ => rfl) hfits).trans rfl

/-- **What a client configures, the daemon reads**: of every rearrangement of the tree, the
configuration it was written from, if its numbers are finite, and otherwise nothing; without the
scoring, the same with the default one; and the same of the arrays of its fields. -/
theorem config_round_trip [Field R] (config : NamespaceConfig (Option R)) (hfits : config.Fits)
    (value : Value (Number R)) :
    (Value.Rearranged NamespaceConfig.schema (config.serialize f32Value) value →
      NamespaceConfig.read value = config.finite) ∧
    (Value.Rearranged NamespaceConfig.schema (.obj config.backends) value →
      NamespaceConfig.read value =
        some ⟨config.embedding, config.entity, config.vector, config.object, .default⟩) ∧
    NamespaceConfig.read (config.toArray f32Value) = config.finite :=
  ⟨fun h => (NamespaceConfig.steadfast_read.rearranged h).symm.trans
      (NamespaceConfig.read_serialize readNum_f32Value hfits),
    fun h => (NamespaceConfig.steadfast_read.rearranged h).symm.trans
      (NamespaceConfig.read_backends hfits.1),
    NamespaceConfig.read_toArray readNum_f32Value hfits⟩

/-- A configuration that names some of its settings, with a dense floor. -/
def localConfig (threshold : Option ℚ) : NamespaceConfig (Option ℚ) where
  embedding := .«local» (some "bge")
  entity := .keyword (some "de")
  vector := .memory
  object := .disk none
  scoring := ⟨threshold, true, "gate", some (1 / 10), some (1 / 2), 3⟩

/-- Its embedding, with a name that is a field of another kind, and its other members, with a name
of its own in front. -/
def localMembers : List (String × Value (Number ℚ)) :=
  ("note", .null) ::
    ("embedding", .obj [("dim", .null), ("kind", .str "local"), ("model", .str "bge")]) ::
      ((localConfig (some 1)).backends.tail ++
        [("scoring", (localConfig (some 1)).scoring.serialize f32Value)])

/-- It is read with these members; with its backends the other way round; and not at all without a
number for its floor. -/
theorem config_round_trip_local :
    NamespaceConfig.read (.obj localMembers) = (localConfig (some 1)).finite ∧
      NamespaceConfig.read (.obj (localConfig (some 1)).backends.reverse) =
        some ⟨.«local» (some "bge"), .keyword (some "de"), .memory, .disk none,
          (.default : ScoringDto ℚ)⟩ ∧
      NamespaceConfig.read ((localConfig none).toArray f32Value) = none := by
  have hfits : ∀ threshold, (localConfig threshold).Fits := by
    refine fun threshold => ⟨trivial, ?_⟩
    show 3 < 2 ^ 64
    decide
  have hdim : Value.Rearrange NamespaceConfig.schema ((localConfig (some 1)).serialize f32Value)
      (.obj localMembers.tail) :=
    @Value.Rearrange.inside _ _ [] _ "embedding" _ _ (.extra (by decide))
  have hnote : Value.Rearrange NamespaceConfig.schema (.obj localMembers.tail)
      (.obj localMembers) := .extra (by decide)
  have horder : Value.Rearranged NamespaceConfig.schema
      (.obj (localConfig (some 1)).backends : Value (Number ℚ))
      (.obj (localConfig (some 1)).backends.reverse) :=
    .single (.order (List.reverse_perm _).symm)
  exact ⟨(config_round_trip (localConfig (some 1)) (hfits _) _).1 (.tail (.single hdim) hnote),
    (config_round_trip (localConfig (some 1)) (hfits _) _).2.1 horder,
    (config_round_trip (localConfig none) (hfits _) .null).2.2⟩

end Semisweet.Core
