import Semisweet.Python.Decorator

/-!
# How cached values are serialized

`dumps` and `loads` (`python/semisweet/serde.py`). A pydantic model is written as JSON together with
the module and the qualified name of its class, and is read back by importing the module,
following the name from attribute to attribute, and validating the JSON with what is found
there. Anything else is pickled. A tag byte says which.

`dumps` does not look whether the name leads back to the class. Where it does not, the value is
written and cannot be read: the class was defined inside a function (`<locals>` is no
attribute, `not_importable_of_locals`), or its name was deleted or given to something else since.
`loads_dumps_iff` says that this is all that goes wrong.

## The model

`Runtime` is what the two functions take from the interpreter, from `pickle` and `json`, and from
pydantic, with what these promise: that pickled values and JSON are read back, and that a class
validates into instances of itself. A value stands for the objects of its type that are
equal to it. Where the source raises, the functions return `none`.
-/

namespace Semisweet.Python

/-- The JSON object that `dumps` writes for a model. -/
structure Envelope where
  /-- The module of its class. -/
  module : String
  /-- The qualified name of its class. -/
  qualname : String
  /-- The model. -/
  json : String
  deriving DecidableEq

/-- What `serde` takes from outside. -/
structure Runtime (Obj Class : Type) where
  /-- `type`. -/
  typeOf : Obj → Class
  /-- `__module__`. -/
  moduleOf : Class → String
  /-- `__qualname__`. -/
  qualnameOf : Class → String
  /-- `_base_model`: pydantic's class, if pydantic is installed. -/
  baseModel : Option Class
  /-- `issubclass`. -/
  isSubclass : Class → Class → Bool
  /-- `importlib.import_module`. -/
  importModule : String → Option Obj
  /-- `getattr`. -/
  getattr : Obj → String → Option Obj
  /-- The class an object is, if it is one with a `model_validate_json`. -/
  asModel : Obj → Option Class
  /-- `pickle.dumps`. -/
  pickleDumps : Obj → Option (List UInt8)
  /-- `pickle.loads`. -/
  pickleLoads : List UInt8 → Option Obj
  /-- `model_dump_json`. -/
  modelDumpJson : Obj → Option String
  /-- `model_validate_json`. -/
  modelValidateJson : Class → String → Option Obj
  /-- `json.dumps` and the encoding as UTF-8. -/
  jsonDumps : Envelope → List UInt8
  /-- `json.loads`. -/
  jsonLoads : List UInt8 → Option Envelope
  /-- The part of a qualified name that stands for a function's body is no attribute. -/
  getattr_locals : ∀ obj, getattr obj "<locals>" = none
  /-- What is pickled is read back. -/
  pickle : ∀ {value payload}, pickleDumps value = some payload → pickleLoads payload = some value
  /-- What a model is dumped as, its class validates. -/
  validate : ∀ {value json}, modelDumpJson value = some json →
    modelValidateJson (typeOf value) json = some value
  /-- A class validates into its instances. -/
  typeOf_validate : ∀ {model json value}, modelValidateJson model json = some value →
    typeOf value = model
  /-- The envelope of a model is read back. -/
  envelope : ∀ {value json}, modelDumpJson value = some json →
    jsonLoads (jsonDumps ⟨moduleOf (typeOf value), qualnameOf (typeOf value), json⟩) =
      some ⟨moduleOf (typeOf value), qualnameOf (typeOf value), json⟩

/-- `_PICKLE`. -/
def pickleTag : UInt8 := 0

/-- `_PYDANTIC`. -/
def pydanticTag : UInt8 := 1

/-- The parts of a qualified name. -/
def segments (qualname : String) : List String := (qualname.toList.splitOn '.').map String.ofList

namespace Runtime

variable {Obj Class : Type} (py : Runtime Obj Class)

/-- `_is_base_model`. -/
def isBaseModel (value : Obj) : Bool :=
  match py.baseModel with
  | some base => py.isSubclass (py.typeOf value) base
  | none => false

/-- `_resolve`. -/
def resolve (module qualname : String) : Option Obj := do
  let obj ← py.importModule module
  (segments qualname).foldlM py.getattr obj

/-- `dumps`. -/
def dumps (value : Obj) : Option (List UInt8) :=
  if py.isBaseModel value then do
    let json ← py.modelDumpJson value
    some (pydanticTag :: py.jsonDumps
      ⟨py.moduleOf (py.typeOf value), py.qualnameOf (py.typeOf value), json⟩)
  else do
    let payload ← py.pickleDumps value
    some (pickleTag :: payload)

/-- `loads`. -/
def loads : List UInt8 → Option Obj
  | [] => none
  | tag :: payload =>
    if tag = pickleTag then py.pickleLoads payload
    else if tag = pydanticTag then do
      let envelope ← py.jsonLoads payload
      let model ← py.resolve envelope.module envelope.qualname
      py.modelValidateJson (← py.asModel model) envelope.json
    else none

/-- The two functions, as the decorator takes them. -/
def serde : Serde Obj := ⟨py.dumps, py.loads⟩

/-! ### Names -/

/-- From the object, the attributes lead to the target. -/
inductive Leads : Obj → List String → Obj → Prop where
  /-- It is the target. -/
  | here {obj : Obj} : Leads obj [] obj
  /-- It has the first attribute. -/
  | attr {obj next target : Obj} {part : String} {parts : List String} :
    py.getattr obj part = some next → Leads next parts target → Leads obj (part :: parts) target

/-- A class is found under its own module and qualified name. -/
def Importable (cls : Class) : Prop :=
  ∃ root target, py.importModule (py.moduleOf cls) = some root ∧
    py.Leads root (segments (py.qualnameOf cls)) target ∧ py.asModel target = some cls

variable {py}

theorem foldlM_getattr_iff {parts : List String} {obj target : Obj} :
    parts.foldlM py.getattr obj = some target ↔ py.Leads obj parts target := by
  induction parts generalizing obj with
  | nil =>
    constructor
    · intro h
      obtain rfl : obj = target := Option.some.inj h
      exact .here
    · rintro ⟨⟩
      rfl
  | cons part parts ih =>
    rw [List.foldlM_cons, Option.bind_eq_bind, Option.bind_eq_some_iff]
    constructor
    · rintro ⟨next, hnext, hrest⟩
      exact .attr hnext (ih.mp hrest)
    · rintro (_ | ⟨hnext, hrest⟩)
      exact ⟨_, hnext, ih.mpr hrest⟩

/-- What is resolved is the class itself, for the classes that are importable. -/
theorem resolve_eq_some_iff {cls : Class} :
    (∃ target, py.resolve (py.moduleOf cls) (py.qualnameOf cls) = some target ∧
      py.asModel target = some cls) ↔ py.Importable cls := by
  simp only [resolve, Importable, Option.bind_eq_bind, Option.bind_eq_some_iff,
    foldlM_getattr_iff]
  constructor
  · rintro ⟨target, ⟨root, hroot, hleads⟩, hcls⟩
    exact ⟨root, target, hroot, hleads, hcls⟩
  · rintro ⟨root, target, hroot, hleads, hcls⟩
    exact ⟨target, ⟨root, hroot, hleads⟩, hcls⟩

/-- Nothing leads through the body of a function. -/
theorem not_leads_locals {obj target : Obj} {parts : List String}
    (h : py.Leads obj parts target) : "<locals>" ∉ parts := by
  induction h with
  | here => simp
  | @attr obj next target part parts hnext _ ih =>
    rw [List.mem_cons, not_or]
    refine ⟨?_, ih⟩
    rintro rfl
    simp [py.getattr_locals] at hnext

/-- **A class that was defined inside a function is not found.** -/
theorem not_importable_of_locals {cls : Class}
    (h : "<locals>" ∈ segments (py.qualnameOf cls)) : ¬ py.Importable cls := by
  rintro ⟨root, target, -, hleads, -⟩
  exact not_leads_locals hleads h

/-! ### The round trip -/

/-- A pickled value is written with its tag. -/
theorem dumps_of_pickled {value : Obj} {bytes : List UInt8} (hmodel : py.isBaseModel value = false)
    (h : py.dumps value = some bytes) :
    ∃ payload, py.pickleDumps value = some payload ∧ bytes = pickleTag :: payload := by
  rw [dumps, if_neg (by simp [hmodel])] at h
  obtain ⟨payload, hpayload, hbytes⟩ := Option.bind_eq_some_iff.mp h
  exact ⟨payload, hpayload, (Option.some.inj hbytes).symm⟩

/-- So is a model. -/
theorem dumps_of_model {value : Obj} {bytes : List UInt8} (hmodel : py.isBaseModel value = true)
    (h : py.dumps value = some bytes) :
    ∃ json, py.modelDumpJson value = some json ∧ bytes = pydanticTag :: py.jsonDumps
      ⟨py.moduleOf (py.typeOf value), py.qualnameOf (py.typeOf value), json⟩ := by
  rw [dumps, if_pos hmodel] at h
  obtain ⟨json, hjson, hbytes⟩ := Option.bind_eq_some_iff.mp h
  exact ⟨json, hjson, (Option.some.inj hbytes).symm⟩

/-- What is read of a model is what the class that its name leads to makes of it. -/
theorem loads_of_model {value : Obj} {json : String} (hjson : py.modelDumpJson value = some json) :
    py.loads (pydanticTag :: py.jsonDumps
      ⟨py.moduleOf (py.typeOf value), py.qualnameOf (py.typeOf value), json⟩) = (do
        let target ← py.resolve (py.moduleOf (py.typeOf value)) (py.qualnameOf (py.typeOf value))
        py.modelValidateJson (← py.asModel target) json) := by
  rw [loads, if_neg (by decide), if_pos rfl, py.envelope hjson]
  rfl

/-- A value that was written is read back, if it is no model or its class is found. -/
theorem loads_eq_some_iff {value : Obj} {bytes : List UInt8} (h : py.dumps value = some bytes) :
    py.loads bytes = some value ↔
      (py.isBaseModel value = true → py.Importable (py.typeOf value)) := by
  cases hmodel : py.isBaseModel value with
  | false =>
    obtain ⟨payload, hpayload, rfl⟩ := dumps_of_pickled hmodel h
    have hread : py.loads (pickleTag :: payload) = some value := by
      rw [loads, if_pos rfl, py.pickle hpayload]
    simp [hread]
  | true =>
    obtain ⟨json, hjson, rfl⟩ := dumps_of_model hmodel h
    rw [loads_of_model hjson, ← resolve_eq_some_iff]
    constructor
    · intro hread _
      obtain ⟨target, htarget, hread⟩ := Option.bind_eq_some_iff.mp hread
      obtain ⟨cls, hcls, hread⟩ := Option.bind_eq_some_iff.mp hread
      exact ⟨target, htarget, by rw [hcls, py.typeOf_validate hread]⟩
    · intro hfound
      obtain ⟨target, htarget, hcls⟩ := hfound rfl
      rw [htarget]
      simp [hcls, py.validate hjson]

/-- The tag says which encoding it is. -/
theorem head?_of_dumps {value : Obj} {bytes : List UInt8} (h : py.dumps value = some bytes) :
    bytes.head? = some (if py.isBaseModel value then pydanticTag else pickleTag) := by
  cases hmodel : py.isBaseModel value with
  | false =>
    obtain ⟨payload, -, rfl⟩ := dumps_of_pickled hmodel h
    rfl
  | true =>
    obtain ⟨json, -, rfl⟩ := dumps_of_model hmodel h
    rfl

/-- What the decorator may rely on: which results its serialization restores. -/
theorem restores_self_iff {value : Obj} : py.serde.Restores value value ↔
    (∃ bytes, py.dumps value = some bytes) ∧
      (py.isBaseModel value = true → py.Importable (py.typeOf value)) := by
  constructor
  · rintro ⟨bytes, hdumps, hloads⟩
    exact ⟨⟨bytes, hdumps⟩, (loads_eq_some_iff hdumps).mp hloads⟩
  · rintro ⟨⟨bytes, hdumps⟩, h⟩
    exact ⟨bytes, hdumps, (loads_eq_some_iff hdumps).mpr h⟩

/-- **A value that was written is read back, unless it is a model whose class is not found under its
own name**, as no class is that was defined inside a function. The tags tell the two encodings
apart. -/
theorem loads_dumps_iff (py : Runtime Obj Class) :
    (∀ value bytes, py.dumps value = some bytes →
      ((∃ restored, py.loads bytes = some restored ∧ py.typeOf restored = py.typeOf value ∧
          restored = value) ↔
        (py.isBaseModel value = true → py.Importable (py.typeOf value)))) ∧
    (∀ value value' bytes bytes', py.dumps value = some bytes → py.dumps value' = some bytes' →
      (bytes.head? = bytes'.head? ↔ py.isBaseModel value = py.isBaseModel value')) ∧
    ∀ cls, "<locals>" ∈ segments (py.qualnameOf cls) → ¬ py.Importable cls := by
  refine ⟨fun value bytes h => ?_, fun value value' bytes bytes' h h' => ?_,
    fun cls => not_importable_of_locals⟩
  · rw [← loads_eq_some_iff h]
    constructor
    · rintro ⟨restored, hread, -, rfl⟩
      exact hread
    · exact fun hread => ⟨value, hread, rfl, rfl⟩
  · rw [head?_of_dumps h, head?_of_dumps h']
    cases py.isBaseModel value <;> cases py.isBaseModel value' <;> decide

namespace Sample

/-- The objects of a program: its module, a function, pydantic's class, two model classes without
fields, one defined in the function and one in the module, an instance of each, and `None`. -/
inductive Thing where
  | app | function | base | model | value | topModel | topValue | none
  deriving DecidableEq

/-- Their types. -/
inductive Kind where
  | module | function | metaclass | base | model | topModel | none
  deriving DecidableEq

/-- The instances as they are dumped. -/
def emptyJson : String := "\x7b\x7d"

/-- The envelope of the instance of the function's class. -/
def envelope : Envelope := ⟨"app", "make.<locals>.Model", emptyJson⟩

/-- The envelope of the instance of the module's class. -/
def topEnvelope : Envelope := ⟨"app", "Model", emptyJson⟩

/-- The text of an envelope whose strings have nothing to escape. -/
def envelopeText (e : Envelope) : List UInt8 :=
  Core.asBytes ("\x7b\"module\": \"" ++ e.module ++ "\", \"qualname\": \"" ++ e.qualname ++
    "\", \"json\": \"" ++ e.json ++ "\"\x7d")

theorem envelopeText_ne : envelopeText topEnvelope ≠ envelopeText envelope := by decide +kernel

/-- `None`, pickled: the protocol, the value, and the end. -/
def pickledNone : List UInt8 := [0x80, 0x05, 0x4e, 0x2e]

/-- The program, of which nothing else is dumped. -/
def runtime : Runtime Thing Kind where
  typeOf
    | .app => .module
    | .function => .function
    | .base | .model | .topModel => .metaclass
    | .value => .model
    | .topValue => .topModel
    | .none => .none
  moduleOf
    | .module | .function | .none => "builtins"
    | .metaclass => "pydantic._internal._model_construction"
    | .base => "pydantic.main"
    | .model | .topModel => "app"
  qualnameOf
    | .module => "module"
    | .function => "function"
    | .metaclass => "ModelMetaclass"
    | .base => "BaseModel"
    | .model => "make.<locals>.Model"
    | .topModel => "Model"
    | .none => "NoneType"
  baseModel := some .base
  isSubclass cls cls' := cls = cls' ∨ (cls = .model ∨ cls = .topModel) ∧ cls' = .base
  importModule name := if name = "app" then some .app else none
  getattr obj name :=
    if obj = .app ∧ name = "make" then some .function
    else if obj = .app ∧ name = "Model" then some .topModel
    else none
  asModel
    | .base => some .base
    | .model => some .model
    | .topModel => some .topModel
    | _ => none
  pickleDumps obj := if obj = .none then some pickledNone else none
  pickleLoads payload := if payload = pickledNone then some .none else none
  modelDumpJson obj := if obj = .value ∨ obj = .topValue then some emptyJson else none
  modelValidateJson cls json :=
    if cls = .model ∧ json = emptyJson then some .value
    else if cls = .topModel ∧ json = emptyJson then some .topValue
    else none
  jsonDumps := envelopeText
  jsonLoads bytes :=
    if bytes = envelopeText envelope then some envelope
    else if bytes = envelopeText topEnvelope then some topEnvelope
    else none
  getattr_locals obj := by simp
  pickle h := by
    obtain ⟨rfl, rfl⟩ := by simpa using h
    rfl
  validate h := by
    obtain ⟨rfl | rfl, rfl⟩ := by simpa using h
    · rfl
    · rfl
  typeOf_validate h := by
    split at h
    · next hmodel =>
      obtain rfl := Option.some.inj h
      exact hmodel.1.symm
    · split at h
      · next htop =>
        obtain rfl := Option.some.inj h
        exact htop.1.symm
      · cases h
  envelope h := by
    obtain ⟨rfl | rfl, rfl⟩ := by simpa using h
    · exact if_pos rfl
    · exact (if_neg envelopeText_ne).trans (if_pos rfl)

/-- The module's class is found under its name. -/
theorem importable_topModel : runtime.Importable .topModel :=
  ⟨.app, .topModel, rfl, .attr rfl .here, rfl⟩

end Sample

/-- An instance of a class of the module is read back, and so is `None`, under another tag. -/
theorem loads_dumps_importable :
    (∃ restored, Sample.runtime.loads (pydanticTag :: Sample.envelopeText Sample.topEnvelope) =
        some restored ∧
      Sample.runtime.typeOf restored = .topModel ∧ restored = .topValue) ∧
    (∃ restored, Sample.runtime.loads (pickleTag :: Sample.pickledNone) = some restored ∧
      Sample.runtime.typeOf restored = .none ∧ restored = .none) ∧
    ¬ (pydanticTag :: Sample.envelopeText Sample.topEnvelope).head? =
      (pickleTag :: Sample.pickledNone).head? := by
  obtain ⟨hback, htags, -⟩ := loads_dumps_iff Sample.runtime
  refine ⟨(hback .topValue _ rfl).mpr fun _ => Sample.importable_topModel,
    (hback .none _ rfl).mpr fun hmodel => absurd hmodel (by decide), ?_⟩
  exact (htags .topValue .none _ _ rfl rfl).not.mpr (by decide)

/-- **An instance of a class that is defined in a function** is written, and reading it fails. -/
theorem loads_dumps_fails : ¬ ∀ (Obj Class : Type) (py : Runtime Obj Class) (value : Obj)
    (bytes : List UInt8), py.dumps value = some bytes → ∃ restored, py.loads bytes = some restored ∧
      py.typeOf restored = py.typeOf value ∧ restored = value := by
  intro hall
  have hnone :
      Sample.runtime.loads (pydanticTag :: Sample.envelopeText Sample.envelope) = none := by
    decide +kernel
  obtain ⟨restored, hread, -⟩ := hall _ _ Sample.runtime .value _ rfl
  exact absurd (hread.symm.trans hnone) (by simp)

end Runtime

end Semisweet.Python
