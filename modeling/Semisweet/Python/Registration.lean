import Semisweet.Core.Config
import Semisweet.Protocol.Messages

/-!
# From the constructor to the daemon's cache

A `SemanticCache` (`src/python.rs`) is made of a namespace and of objects for its backends and its
scoring, without any input or output. Its configuration is sent when it is first used, and the
daemon reads it and builds the cache (`handle_register`, `src/daemon/conn.rs`; `build_cache`,
`src/registry.rs`). What can be refused early is: `Scoring` validates "eagerly so a bad threshold
fails at construction, not at first use", and the namespace is validated and trimmed.

## The model

The objects carry what their constructors made sure of. The backends' own constructors, and the text
of JSON, are parameters; a text is read as the tree it was written from. A Cargo feature is compiled
in or not.

## What is proved

* `register_built` — the daemon builds what the client configured: of a `SemanticCache` that could
  be made, neither the namespace nor the configuration nor its scoring is refused any more, and only
  the backends decide whether it is registered.
-/

namespace Semisweet.Python

open Semisweet.Core Semisweet.Foundations Semisweet.Protocol

variable {R : Type}

/-! ### The objects of a client -/

/-- An embedding backend: `PyLocalEmbedding` or `PyVoyageEmbedding`. -/
structure PyEmbedding where
  /-- The choice. -/
  choice : EmbeddingChoice
  /-- Its dimension is a `usize`. -/
  fits : choice.Fits

/-- `PyLocalEmbedding::new`. -/
def PyLocalEmbedding.new (model : Option String) : PyEmbedding := ⟨.«local» model, trivial⟩

/-- `PyVoyageEmbedding::new`. -/
def PyVoyageEmbedding.new (model : Option String) (dim : Option UInt64) : PyEmbedding where
  choice := .voyage model (dim.map UInt64.toNat)
  fits := by
    cases dim with
    | none => trivial
    | some dim => exact dim.toNat_lt

/-- `PyKeywordEntities::new`. -/
def PyKeywordEntities.new (lang : Option String) : EntityChoice := .keyword lang

/-- `DEFAULT_GLINER_LABELS`. -/
def defaultGlinerLabels : List String :=
  ["person", "organization", "location", "date", "product", "event"]

/-- `PyGlinerEntities::new`. -/
def PyGlinerEntities.new (labels : Option (List String)) (repo model tokenizer : Option String) :
    EntityChoice :=
  .gliner (labels.getD defaultGlinerLabels) repo model tokenizer

/-- `PyS3Storage::new`. -/
def PyS3Storage.new (bucket region endpoint keyPrefix : Option String) : ObjectChoice :=
  .s3 bucket region endpoint (keyPrefix.getD "")

section Scoring

variable [Field R] [LinearOrder R] [ToString R]

/-- `PyScoring`. -/
structure PyScoring (R : Type) [Field R] [LinearOrder R] [ToString R] where
  /-- The settings. -/
  dto : ScoringDto R
  /-- They were validated. -/
  valid : ∃ config, dto.toConfig = .ok config
  /-- `top_k` is a `usize`. -/
  fits : dto.topK < usizeValues

/-- `PyScoring::new`. -/
def PyScoring.new (threshold : Option R) (topK : Option UInt64) (entityFilter : Option Bool)
    (context : Option String) (contextGate contextThreshold : Option R) :
    Except Error (PyScoring R) :=
  let defaults : ScoringDto R := .default
  let dto : ScoringDto R :=
    { threshold := threshold.getD defaults.threshold
      entityFilter := entityFilter.getD defaults.entityFilter
      context := context.getD defaults.context
      contextGate := contextGate.getD defaults.contextGate
      contextThreshold := contextThreshold.getD defaults.contextThreshold
      topK := (topK.map UInt64.toNat).getD defaults.topK }
  match h : dto.toConfig with
  | .ok config =>
    .ok
      { dto
        valid := ⟨config, h⟩
        fits := by
          cases topK with
          | none => show (10 : ℕ) < 2 ^ 64; decide
          | some topK => exact topK.toNat_lt }
  | .error e => .error e

end Scoring

/-! ### The text -/

/-- serde_json, as a text of a tree. -/
structure JsonText (R : Type) where
  /-- `serde_json::to_string`. -/
  toString : Value (Number R) → Except String String
  /-- `serde_json::from_str`, as a tree. -/
  fromStr : String → Option (Value (Number R))
  /-- What it says of a text that it refuses, or that is no configuration. -/
  refusal : String → String
  /-- A text is read as the tree it was written from. -/
  fromStr_toString : ∀ value text, toString value = .ok text → fromStr text = some value

/-- serde_json, of a single tree. -/
noncomputable def JsonText.single (tree : Value (Number R)) (text : String) : JsonText R where
  toString value :=
    open Classical in if value = tree then .ok text else .error "not that tree"
  fromStr other := if other = text then some tree else none
  refusal _ := "not that text"
  fromStr_toString value text' h := by
    by_cases hvalue : value = tree
    · simp_all
    · simp [hvalue] at h

theorem JsonText.toString_single (tree : Value (Number R)) (text : String) :
    (single tree text).toString tree = .ok text := if_pos rfl

/-! ### The cache object -/

/-- `PySemanticCache`, less its connection. -/
structure PySemanticCache where
  /-- The namespace. -/
  ns : String
  /-- Its configuration. -/
  configJson : String

section New

variable [Field R] [LinearOrder R] [ToString R]

/-- The configuration of a `SemanticCache`. -/
def PySemanticCache.config (embedding : Option PyEmbedding) (entities : Option EntityChoice)
    (vectors : Option VectorChoice) (storage : Option ObjectChoice)
    (scoring : Option (PyScoring R)) : NamespaceConfig R where
  embedding := (embedding.map PyEmbedding.choice).getD (.«local» none)
  entity := entities.getD (.keyword none)
  vector := vectors.getD .memory
  object := storage.getD (.disk none)
  scoring := (scoring.map PyScoring.dto).getD .default

/-- `PySemanticCache::new`. -/
def PySemanticCache.new (json : JsonText R) (ns : String) (embedding : Option PyEmbedding)
    (entities : Option EntityChoice) (vectors : Option VectorChoice) (storage : Option ObjectChoice)
    (scoring : Option (PyScoring R)) : Except Error PySemanticCache := do
  let ns ← Namespace.val <$> Namespace.new ns
  let configJson ←
    (json.toString (config embedding entities vectors storage scoring).toValue).mapError
      .invalidConfig
  .ok ⟨ns, configJson⟩

end New

/-! ### The daemon's side -/

/-- The constructors of backends, and which of them are compiled in: entities `E`, embeddings `M`,
vectors `V` and objects `O`. -/
structure Builders (E M V O : Type) where
  /-- The feature `keyword`. -/
  keyword : Bool
  /-- `KeywordEntities::with_language`. -/
  withLanguage : String → Except Error E
  /-- The feature `gliner`. -/
  gliner : Bool
  /-- `GlinerEntities::new`. -/
  newGliner : List String → Option String → Option String → Option String → Except Error E
  /-- The feature `voyage`. -/
  voyage : Bool
  /-- `VoyageEmbedding::new`. -/
  newVoyage : String → ℕ+ → Except Error M
  /-- The feature `local-embed`. -/
  localEmbed : Bool
  /-- `LocalEmbedding::new`. -/
  newLocal : Option String → Except Error M
  /-- `MemoryVectorStore::new`. -/
  newMemory : V
  /-- The feature `turbopuffer`. -/
  turbopuffer : Bool
  /-- `TurbopufferVectorStore::new`. -/
  newTurbopuffer : Except Error V
  /-- `DiskObjectStore::new`. -/
  newDisk : String → O
  /-- `DiskObjectStore::with_default_root`. -/
  defaultDisk : Except Error O
  /-- The feature `s3`. -/
  s3 : Bool
  /-- `S3ObjectStore::new`. -/
  newS3 : Option String → Option String → Option String → String → Except Error O
  /-- `CompressedStore::new`. -/
  compressed : O → O

/-- `DynCache`. -/
structure DynCache (R : Type) [Field R] (E M V O : Type) where
  /-- The namespace. -/
  ns : Namespace
  /-- Its entities. -/
  entity : E
  /-- Its embedding. -/
  embedding : M
  /-- Its vector store. -/
  vector : V
  /-- Its object store. -/
  object : O
  /-- Its scoring. -/
  scoring : ScoringConfig R

namespace Builders

variable {E M V O : Type} (self : Builders E M V O)

/-- `Error::UnknownBackend`, of a feature that is not compiled in. -/
def compiled {α : Type} (feature : Bool) (name : String) (build : Except Error α) :
    Except Error α :=
  if feature then build else .error (.unknownBackend name)

/-- `build_entity`. -/
def buildEntity : EntityChoice → Except Error E
  | .keyword language => compiled self.keyword "keyword" (self.withLanguage (language.getD "en"))
  | .gliner labels repo model tokenizer =>
    compiled self.gliner "gliner" (self.newGliner labels repo model tokenizer)

/-- `build_embedding`. -/
def buildEmbedding : EmbeddingChoice → Except Error M
  | .voyage model dim =>
    compiled self.voyage "voyage" <|
      let model := model.getD "voyage-3.5-lite"
      let dim := dim.getD 512
      if h : 0 < dim then self.newVoyage model ⟨dim, h⟩
      else .error (.invalidConfig "embedding dim must be greater than zero")
  | .«local» model => compiled self.localEmbed "local" (self.newLocal model)

/-- `build_vector`. -/
def buildVector : VectorChoice → Except Error V
  | .memory => .ok self.newMemory
  | .turbopuffer => compiled self.turbopuffer "turbopuffer" self.newTurbopuffer

/-- `build_object`. -/
def buildObject (choice : ObjectChoice) : Except Error O :=
  self.compressed <$>
    match choice with
    | .disk (some root) => .ok (self.newDisk root)
    | .disk none => self.defaultDisk
    | .s3 bucket region endpoint keyPrefix =>
      compiled self.s3 "s3" (self.newS3 bucket region endpoint keyPrefix)

variable [Field R] [LinearOrder R] [ToString R]

/-- `build_cache`. -/
def buildCache (ns : String) (config : NamespaceConfig R) : Except Error (DynCache R E M V O) := do
  let ns ← Namespace.new ns
  let scoring ← config.scoring.toConfig
  let entity ← self.buildEntity config.entity
  let embedding ← self.buildEmbedding config.embedding
  let vector ← self.buildVector config.vector
  let object ← self.buildObject config.object
  .ok ⟨ns, entity, embedding, vector, object, scoring⟩

/-- `handle_register`, where the namespace is not there yet and its pool is not shut down: the cache
it registers, or what it answers. -/
def register (json : JsonText R) (ns configJson : String) :
    Except Response (DynCache R E M V O) :=
  match (json.fromStr configJson).bind NamespaceConfig.read with
  | none =>
    .error (.error (.invalidRequest s!"invalid namespace config: {json.refusal configJson}"))
  | some config => (self.buildCache ns config).mapError backendError

/-- What the backends make of a namespace and a scoring that are valid. -/
def assemble (ns : Namespace) (scoring : ScoringConfig R) (config : NamespaceConfig R) :
    Except Error (DynCache R E M V O) := do
  let entity ← self.buildEntity config.entity
  let embedding ← self.buildEmbedding config.embedding
  let vector ← self.buildVector config.vector
  let object ← self.buildObject config.object
  .ok ⟨ns, entity, embedding, vector, object, scoring⟩

/-- A namespace and a scoring that are valid leave it to the backends. -/
theorem buildCache_eq {ns : String} {config : NamespaceConfig R} {valid : Namespace}
    {scoring : ScoringConfig R} (hns : Namespace.new ns = .ok valid)
    (hscoring : config.scoring.toConfig = .ok scoring) :
    self.buildCache ns config = self.assemble valid scoring config := by
  rw [buildCache, hns, hscoring]
  rfl

end Builders

/-! ### What is built -/

/-- A namespace is taken as it is. -/
theorem namespace_new_val (ns : Namespace) : Namespace.new ns.val = .ok ns := by
  have hdots : ¬ (ns.val = "." ∨ ns.val = "..") := not_or.mpr ns.notDots
  simp [Namespace.new, ns.trimmed, ns.nonempty, ns.safe, hdots]

section Built

variable [Field R] [LinearOrder R] [ToString R] {json : JsonText R} {ns : String}
  {embedding : Option PyEmbedding} {entities : Option EntityChoice} {vectors : Option VectorChoice}
  {storage : Option ObjectChoice} {scoring : Option (PyScoring R)} {cache : PySemanticCache}

/-- What a `SemanticCache` holds. -/
theorem PySemanticCache.new_eq_ok
    (h : PySemanticCache.new json ns embedding entities vectors storage scoring = .ok cache) :
    (∃ valid, Namespace.new ns = .ok valid ∧ cache.ns = valid.val) ∧
      json.fromStr cache.configJson =
        some (config embedding entities vectors storage scoring).toValue := by
  simp only [PySemanticCache.new, bind_eq_ok, map_eq_ok, Except.ok.injEq] at h
  obtain ⟨_, ⟨valid, hvalid, rfl⟩, text, htext, rfl⟩ := h
  refine ⟨⟨valid, hvalid, rfl⟩, json.fromStr_toString _ _ ?_⟩
  cases hstr : json.toString (config embedding entities vectors storage scoring).toValue with
  | error e => simp [hstr, Except.mapError] at htext
  | ok text' => simpa [hstr, Except.mapError] using htext

theorem PySemanticCache.new_of {name text : String}
    (hns : Namespace.val <$> Namespace.new ns = .ok name)
    (htext : json.toString (config embedding entities vectors storage scoring).toValue =
      .ok text) :
    PySemanticCache.new json ns embedding entities vectors storage scoring = .ok ⟨name, text⟩ := by
  rw [PySemanticCache.new, hns, htext]
  rfl

/-- The configuration of a `SemanticCache` fits its JSON. -/
theorem PySemanticCache.config_fits :
    (config embedding entities vectors storage scoring).Fits := by
  constructor
  · cases embedding with
    | none => trivial
    | some embedding => exact embedding.fits
  · cases scoring with
    | none => show (10 : ℕ) < 2 ^ 64; decide
    | some scoring => exact scoring.fits

variable (embedding entities vectors storage scoring) in
/-- Its scoring is valid. -/
theorem PySemanticCache.exists_scoring [IsStrictOrderedRing R] : ∃ scoringConfig,
    (config embedding entities vectors storage scoring).scoring.toConfig = .ok scoringConfig := by
  cases scoring with
  | none => exact ⟨_, ScoringDto.toConfig_default⟩
  | some scoring => exact scoring.valid

/-- **The daemon builds what the client configured**: of a `SemanticCache` that could be made,
neither the namespace, nor the configuration, nor its scoring is refused, and the answer is what the
backends the client named make of it. -/
theorem register_built [IsStrictOrderedRing R] {E M V O : Type} (builders : Builders E M V O)
    (h : PySemanticCache.new json ns embedding entities vectors storage scoring = .ok cache) :
    ∃ valid scoringConfig, Namespace.new ns = .ok valid ∧
      (PySemanticCache.config embedding entities vectors storage scoring).scoring.toConfig =
        .ok scoringConfig ∧
      builders.register json cache.ns cache.configJson =
        (builders.assemble valid scoringConfig
          (PySemanticCache.config embedding entities vectors storage scoring)).mapError
            backendError := by
  obtain ⟨⟨valid, hvalid, hns⟩, htext⟩ := PySemanticCache.new_eq_ok h
  obtain ⟨scoringConfig, hscoring⟩ :=
    PySemanticCache.exists_scoring embedding entities vectors storage scoring
  refine ⟨valid, scoringConfig, hvalid, hscoring, ?_⟩
  have hread : (json.fromStr cache.configJson).bind NamespaceConfig.read =
      some (PySemanticCache.config embedding entities vectors storage scoring) := by
    rw [htext, Option.bind_some, NamespaceConfig.read_toValue PySemanticCache.config_fits]
  have hbuild := builders.buildCache_eq (hns ▸ namespace_new_val valid) hscoring
  simp only [Builders.register, hread, hbuild]

/-- Backends that are all compiled in, and need nothing. -/
def Builders.plain : Builders Unit Unit Unit String where
  keyword := true
  withLanguage _ := .ok ()
  gliner := true
  newGliner _ _ _ _ := .ok ()
  voyage := true
  newVoyage _ _ := .ok ()
  localEmbed := true
  newLocal _ := .ok ()
  newMemory := ()
  turbopuffer := true
  newTurbopuffer := .ok ()
  newDisk root := root
  defaultDisk := .ok "semisweet"
  s3 := true
  newS3 _ _ _ keyPrefix := .ok keyPrefix
  compressed root := root

/-- The text of a configuration that is all defaults. -/
def defaultJson : String :=
  "\x7b\"embedding\":\x7b\"kind\":\"local\"\x7d," ++
  "\"entity\":\x7b\"kind\":\"keyword\",\"language\":null\x7d," ++
  "\"vector\":\x7b\"kind\":\"memory\"\x7d," ++
  "\"object\":\x7b\"kind\":\"disk\",\"root\":null\x7d," ++
  "\"scoring\":\x7b\"threshold\":0.92,\"entity_filter\":true,\"context\":\"gate\"," ++
  "\"context_gate\":0.1,\"context_threshold\":0.88,\"top_k\":10\x7d\x7d"

/-- A cache with a namespace alone. -/
theorem register_built_docs :
    ∃ valid scoringConfig, Namespace.new " docs " = .ok valid ∧
      (PySemanticCache.config none none none none none : NamespaceConfig ℚ).scoring.toConfig =
        .ok scoringConfig ∧
      Builders.plain.register
          (.single (PySemanticCache.config none none none none none).toValue defaultJson) "docs"
          defaultJson =
        (Builders.plain.assemble valid scoringConfig
          (PySemanticCache.config none none none none none)).mapError backendError := by
  have hns : Namespace.val <$> Namespace.new " docs " = .ok "docs" := by decide
  have htext := JsonText.toString_single
    (PySemanticCache.config none none none none none : NamespaceConfig ℚ).toValue defaultJson
  have hnew := PySemanticCache.new_of hns htext
  have hbuilt := register_built Builders.plain hnew
  exact hbuilt

end Built

end Semisweet.Python
