import Semisweet.Core.TurbopufferQuery
import Semisweet.Foundations.Words

/-!
# The rows of the turbopuffer store, and its filters

`TurbopufferVectorStore` (`src/backends/vector_turbopuffer.rs`) keeps an entry as a JSON row.
A query sends its filter as a JSON tree, which the service evaluates on the rows, and reads the
rows that come back into hits.

## The model

A JSON value is one of `Json`, and an object is its members in order. What the service does
with a tree is `evaluate`: `And` and `Or` of conditions, and `Contains`, of a value in the
array under a name; a query without a tree takes every row. Of the body that `upsert` sends,
only the row is here.

## What is proved

* `evaluate_filterToTp` — on the row of an entry, the tree of a filter says what the in-memory
  store's filter says of the entry.
* `parseRow_upsertRow` — a row that comes back as it was sent is read as the entry's id, entities
  and context. Entities were normalized and are normalized again; with a lowercasing that leaves
  white space, and lowercase text, as they are (`SameSpaces`), nothing changes
  (`Entity.normalize_normalize`).
-/

namespace Semisweet.Core

open Semisweet.Foundations

/-- `serde_json::Value`, of the values that occur. -/
inductive Json (R : Type) where
  | null
  | num (value : R)
  | str (value : String)
  | arr (values : List (Json R))
  | obj (members : List (String × Json R))

namespace Json

variable {R : Type}

/-- A number. -/
def asNum? : Json R → Option R
  | num value => some value
  | _ => none

/-- A string. -/
def asStr? : Json R → Option String
  | str value => some value
  | _ => none

/-- An array of strings. -/
def ofStrs (values : List String) : Json R := arr (values.map str)

/-- The strings of an array. -/
def asStrs? : Json R → Option (List String)
  | arr values => values.mapM asStr?
  | _ => none

@[simp] theorem asStrs?_ofStrs (values : List String) :
    (ofStrs values : Json R).asStrs? = some values := by
  rw [ofStrs, asStrs?, List.mapM_map]
  induction values with
  | nil => rfl
  | cons value values ih => simp [asStr?, ih]

end Json

theorem Entity.val_injective : Function.Injective Entity.val := by
  rintro ⟨a, _⟩ ⟨b, _⟩ h
  simpa using h

/-- Entities are ordered by their bytes, as keys are. -/
instance : LinearOrder Entity := LinearOrder.lift' Entity.val Entity.val_injective

/-- The entities of a set, in its order. -/
def sortedEntities (entities : Finset Entity) : List Entity := entities.sort (· ≤ ·)

@[simp] theorem mem_sortedEntities {entities : Finset Entity} {e : Entity} :
    e ∈ sortedEntities entities ↔ e ∈ entities :=
  Finset.mem_sort _

theorem toFinset_sortedEntities (entities : Finset Entity) :
    (sortedEntities entities).toFinset = entities :=
  Finset.sort_toFinset ..

namespace TurbopufferVectorStore

variable {R : Type}

/-! ### Filters -/

/-- One condition for each of the names. -/
def contains (field : String) (values : List String) : List (Json R) :=
  values.map fun value => .arr [.str field, .str "Contains", .str value]

/-- `filter_to_tp`. -/
def filterToTp (filter : Filter) : Option (Json R) :=
  let clauses := []
  let clauses :=
    if filter.keysAll = ∅ then clauses
    else
      let conds := contains "keys" ((sortedKeys filter.keysAll).map Key.asStr)
      clauses ++ [.arr [.str "And", .arr conds]]
  let clauses :=
    if filter.entitiesAny = ∅ then clauses
    else
      let conds := contains "entities" ((sortedEntities filter.entitiesAny).map Entity.val)
      clauses ++ [.arr [.str "Or", .arr conds]]
  if clauses.isEmpty then none
  else if clauses.length = 1 then clauses.getLast?
  else some (.arr [.str "And", .arr clauses])

mutual

/-- What a tree says of a row, if it is one. -/
def evaluateTree (row : List (String × Json R)) : Json R → Option Bool
  | .arr [.str "And", .arr conds] => (evaluateTrees row conds).map fun bs => bs.all id
  | .arr [.str "Or", .arr conds] => (evaluateTrees row conds).map fun bs => bs.any id
  | .arr [.str field, .str "Contains", .str value] =>
    ((row.lookup field).bind Json.asStrs?).map fun values => decide (value ∈ values)
  | _ => none

/-- What each of some trees says. -/
def evaluateTrees (row : List (String × Json R)) : List (Json R) → Option (List Bool)
  | [] => some []
  | cond :: conds => do
    let b ← evaluateTree row cond
    let bs ← evaluateTrees row conds
    some (b :: bs)

end

/-- What a query's filter says of a row. -/
def evaluate (row : List (String × Json R)) : Option (Json R) → Option Bool
  | some tree => evaluateTree row tree
  | none => some true

variable [Field R]

/-- The row that `upsert` sends. -/
def upsertRow (entry : VectorEntry R) : List (String × Json R) :=
  [("id", .str entry.id.toHex),
    ("vector", .arr (entry.vector.values.map .num)),
    ("entities", .ofStrs ((sortedEntities entry.entities).map Entity.val)),
    ("keys", .ofStrs ((sortedKeys entry.keys).map Key.asStr))] ++
  match entry.context with
  | some context => [("context", .str context.asStr)]
  | none => []

/-- The keys of a row. -/
@[simp] theorem lookup_keys (entry : VectorEntry R) : (upsertRow entry).lookup "keys" =
    some (.ofStrs ((sortedKeys entry.keys).map Key.asStr)) := by
  simp [upsertRow, List.lookup_cons]

/-- The entities of a row. -/
@[simp] theorem lookup_entities (entry : VectorEntry R) : (upsertRow entry).lookup "entities" =
    some (.ofStrs ((sortedEntities entry.entities).map Entity.val)) := by
  simp [upsertRow, List.lookup_cons]

/-- The id of a row. -/
@[simp] theorem lookup_id (entry : VectorEntry R) :
    (upsertRow entry).lookup "id" = some (.str entry.id.toHex) := by
  simp [upsertRow]

/-- The context of a row. -/
@[simp] theorem lookup_context (entry : VectorEntry R) : (upsertRow entry).lookup "context" =
    entry.context.map fun context => .str context.asStr := by
  cases h : entry.context <;> simp [upsertRow, List.lookup_cons, h]

omit [Field R] in
/-- Conditions of one array say which of the names are in it. -/
theorem evaluateTrees_contains {row : List (String × Json R)} {field : String}
    {present : List String} (h : row.lookup field = some (.ofStrs present))
    (values : List String) : evaluateTrees row (contains field values) =
      some (values.map fun value => decide (value ∈ present)) := by
  induction values with
  | nil => rfl
  | cons value values ih =>
    have hone : evaluateTree row (.arr [.str field, .str "Contains", .str value]) =
        some (decide (value ∈ present)) := by
      rw [evaluateTree, h, Option.bind_some, Json.asStrs?_ofStrs, Option.map_some]
    rw [contains, List.map_cons, evaluateTrees, hone, ← contains, ih]
    rfl

omit [Field R] in
/-- Two conditions, of which both have to hold. -/
theorem evaluateTree_and {row : List (String × Json R)} {cond cond' : Json R} {b b' : Bool}
    (h : evaluateTree row cond = some b) (h' : evaluateTree row cond' = some b') :
    evaluateTree row (.arr [.str "And", .arr [cond, cond']]) = some (b && b') := by
  rw [evaluateTree, evaluateTrees, evaluateTrees, evaluateTrees, h, h']
  simp

/-- The keys' part of a tree: all of them are the entry's. -/
theorem evaluateTree_keys (entry : VectorEntry R) (keys : Finset Key) :
    evaluateTree (upsertRow entry)
      (.arr [.str "And", .arr (contains "keys" ((sortedKeys keys).map Key.asStr))]) =
        some (decide (keys ⊆ entry.keys)) := by
  rw [evaluateTree, evaluateTrees_contains (lookup_keys entry), Option.map_some,
    Option.some.injEq, Bool.eq_iff_iff]
  simp [Finset.subset_iff, Key.asStr_injective.eq_iff]

/-- The entities' part: one of them is the entry's. -/
theorem evaluateTree_entities (entry : VectorEntry R) (entities : Finset Entity) :
    evaluateTree (upsertRow entry)
      (.arr [.str "Or", .arr (contains "entities" ((sortedEntities entities).map Entity.val))]) =
        some (!decide (Disjoint entities entry.entities)) := by
  rw [evaluateTree, evaluateTrees_contains (lookup_entities entry), Option.map_some,
    Option.some.injEq, Bool.eq_iff_iff]
  simp [Finset.not_disjoint_iff, Entity.val_injective.eq_iff]

/-- **The two stores filter alike.** On the row that is sent for an entry, the tree of a filter is
well formed, and true exactly when the in-memory store keeps the entry. -/
theorem evaluate_filterToTp (filter : Filter) (entry : VectorEntry R) :
    evaluate (upsertRow entry) (filterToTp filter) =
      some (MemoryVectorStore.keeps filter entry) := by
  have hkeys := evaluateTree_keys entry filter.keysAll
  have hentities := evaluateTree_entities entry filter.entitiesAny
  by_cases hk : filter.keysAll = ∅
  · by_cases he : filter.entitiesAny = ∅
    · simp [filterToTp, evaluate, MemoryVectorStore.keeps, hk, he]
    · simp [filterToTp, evaluate, MemoryVectorStore.keeps, hk, he, hentities,
        Finset.disjoint_iff_inter_eq_empty]
  · by_cases he : filter.entitiesAny = ∅
    · simp [filterToTp, evaluate, MemoryVectorStore.keeps, hk, he, hkeys]
    · have hboth := evaluateTree_and hkeys hentities
      simpa [filterToTp, evaluate, MemoryVectorStore.keeps, hk, he,
        Finset.disjoint_iff_inter_eq_empty] using hboth

end TurbopufferVectorStore

/-! ### Normalized entities -/

/-- Lowercasing neither creates nor removes white space: a character that is white space stays as it
is, and another one becomes one or more that are not. -/
def SameSpaces (toLowercase : String → String) : Prop :=
  ∀ s, Recased isWhitespace s.toList (toLowercase s).toList

/-- Collapse the white space. -/
def collapse (raw : String) : String := " ".intercalate (splitWhitespace raw)

theorem toList_collapse (raw : String) :
    (collapse raw).toList = [' '].intercalate (words isWhitespace raw.toList) := by
  simp [collapse, splitWhitespace, words]

/-- Collapsed text is collapsed. -/
theorem collapse_eq_self {s : String} {ws : List (List Char)} (hs : s.toList = [' '].intercalate ws)
    (hws : ∀ w ∈ ws, IsWord isWhitespace w) : collapse s = s := by
  rw [← String.toList_inj, toList_collapse, hs, words_intercalate (by decide) hws]

/-- Nothing is left of text that has no words. -/
theorem collapse_eq_empty_iff (raw : String) :
    collapse raw = "" ↔ words isWhitespace raw.toList = [] := by
  rw [← String.toList_inj, toList_collapse]
  constructor
  · intro h
    by_contra hne
    obtain ⟨c, hc, -⟩ := exists_letter_of_ne_nil (a := ' ')
      (fun w hw => isWord_of_mem_words (l := raw.toList) hw) hne
    simp [h] at hc
  · intro h
    rw [h]
    rfl

namespace Entity

variable {R : Type} {P : Platform R}

theorem normalize_eq (raw : String) : normalize P raw =
    if h : trim (P.toLowercase (collapse raw)) = "" then none
    else some ⟨P.toLowercase (collapse raw), h⟩ := rfl

theorem normalize_eq_some_iff {raw : String} {e : Entity} :
    normalize P raw = some e ↔ e.val = P.toLowercase (collapse raw) := by
  obtain ⟨v, hv⟩ := e
  by_cases h : trim (P.toLowercase (collapse raw)) = ""
  · rw [normalize_eq, dif_pos h]
    simp only [reduceCtorEq, false_iff]
    rintro rfl
    exact hv h
  · simp [normalize_eq, h, eq_comm]

/-- What the text of a normalized entity is. -/
theorem toList_lowercase_collapse (hspaces : SameSpaces P.toLowercase) (raw : String) :
    ∃ ws, (P.toLowercase (collapse raw)).toList = [' '].intercalate ws ∧
      (∀ w ∈ ws, IsWord isWhitespace w) ∧
        ws.length = (words isWhitespace raw.toList).length := by
  have h := hspaces (collapse raw)
  rw [toList_collapse] at h
  exact h.intercalate (by decide) fun w hw => isWord_of_mem_words hw

/-- **A normalized entity is normalized.** -/
theorem normalize_normalize (hspaces : SameSpaces P.toLowercase)
    (hidem : ∀ s, P.toLowercase (P.toLowercase s) = P.toLowercase s) {raw : String} {e : Entity}
    (h : normalize P raw = some e) : normalize P e.val = some e := by
  obtain ⟨ws, htext, hws, -⟩ := toList_lowercase_collapse hspaces raw
  rw [normalize_eq_some_iff] at h ⊢
  rw [h, collapse_eq_self htext hws, hidem]

/-- **Whether there is an entity shows before lowercasing**, where the code looks. -/
theorem normalize_val (hspaces : SameSpaces P.toLowercase) (raw : String) :
    (normalize P raw).map val =
      if collapse raw = "" then none else some (P.toLowercase (collapse raw)) := by
  obtain ⟨ws, htext, hws, hlen⟩ := toList_lowercase_collapse hspaces raw
  by_cases h : words isWhitespace raw.toList = []
  · obtain rfl : ws = [] := List.eq_nil_of_length_eq_zero (by rw [hlen, h, List.length_nil])
    have hblank : trim (P.toLowercase (collapse raw)) = "" := by simp [trim_eq_empty_iff, htext]
    rw [if_pos ((collapse_eq_empty_iff raw).mpr h), normalize_eq, dif_pos hblank, Option.map_none]
  · have hne : ws ≠ [] := by
      rintro rfl
      exact h (List.eq_nil_of_length_eq_zero hlen.symm)
    have hnot : trim (P.toLowercase (collapse raw)) ≠ "" := by
      rw [Ne, trim_eq_empty_iff, htext]
      obtain ⟨c, hc, hletter⟩ := exists_letter_of_ne_nil (a := ' ') hws hne
      exact fun hall => absurd ((hall c hc).symm.trans hletter) (by decide)
    rw [if_neg (mt (collapse_eq_empty_iff raw).mp h), normalize_eq, dif_neg hnot, Option.map_some]

end Entity

/-! ### The round trip -/

namespace TurbopufferVectorStore

variable {R : Type}

/-- `QueryRow`'s `Deserialize`: a missing array of entities is empty, and a missing context, or one
that is null, is none. -/
def QueryRow.deserialize (members : List (String × Json R)) : Option (QueryRow R) := do
  let id ← (← members.lookup "id").asStr?
  let dist ← (← members.lookup "$dist").asNum?
  let entities ← match members.lookup "entities" with
    | some value => value.asStrs?
    | none => some []
  let context ← match members.lookup "context" with
    | none | some .null => some none
    | some value => value.asStr?.map some
  some ⟨id, dist, entities, context⟩

/-- A row comes back with the id, the entities and the context that were sent for the entry; no
context comes back as null or not at all. -/
structure Carries [Field R] (entry : VectorEntry R) (dist : R) (members : List (String × Json R)) :
    Prop where
  /-- The id. -/
  id : members.lookup "id" = (upsertRow entry).lookup "id"
  /-- What the leg ranks by. -/
  dist : members.lookup "$dist" = some (.num dist)
  /-- The entities. -/
  entities : members.lookup "entities" = (upsertRow entry).lookup "entities"
  /-- The context. -/
  context : (members.lookup "context").getD .null =
    ((upsertRow entry).lookup "context").getD .null

/-- The row as it is read. -/
theorem deserialize_eq [Field R] {entry : VectorEntry R} {dist : R}
    {members : List (String × Json R)} (h : Carries entry dist members) :
    QueryRow.deserialize members = some ⟨entry.id.toHex, dist,
      (sortedEntities entry.entities).map Entity.val, entry.context.map Context.asStr⟩ := by
  have hcontext := h.context
  rw [lookup_context] at hcontext
  simp only [QueryRow.deserialize, h.id, h.dist, h.entities, lookup_id, lookup_entities,
    Json.asStrs?_ofStrs, Option.bind_eq_bind, Option.bind_some, Json.asStr?, Json.asNum?]
  cases hc : entry.context with
  | none =>
    rw [hc] at hcontext
    cases hm : members.lookup "context" with
    | none => rfl
    | some value =>
      rw [hm] at hcontext
      obtain rfl : value = .null := hcontext
      rfl
  | some context =>
    rw [hc] at hcontext
    cases hm : members.lookup "context" with
    | none => simp [hm] at hcontext
    | some value =>
      rw [hm] at hcontext
      obtain rfl : value = .str context.asStr := hcontext
      rfl

/-- **A row is read as the entry it was sent for**: no entity is dropped, merged or changed, and the
context is neither trimmed nor refused. -/
theorem parseRow_upsertRow [Field R] {P : Platform R} (hspaces : SameSpaces P.toLowercase)
    (hidem : ∀ s, P.toLowercase (P.toLowercase s) = P.toLowercase s) {entry : VectorEntry R}
    (hentities : ∀ e ∈ entry.entities, ∃ raw, Entity.normalize P raw = some e) {dist : R}
    {members : List (String × Json R)} (h : Carries entry dist members) :
    ∃ row, QueryRow.deserialize members = some row ∧ row.dist = dist ∧
      parseRow P row = .ok ⟨entry.id, entry.entities, entry.context⟩ := by
  refine ⟨_, deserialize_eq h, rfl, ?_⟩
  have hread : ((sortedEntities entry.entities).map Entity.val).filterMap (Entity.normalize P) =
      sortedEntities entry.entities := by
    rw [List.filterMap_map]
    refine (List.filterMap_congr fun e he => ?_).trans List.filterMap_some
    obtain ⟨raw, hraw⟩ := hentities e (mem_sortedEntities.mp he)
    rw [Function.comp_apply]
    exact Entity.normalize_normalize hspaces hidem hraw
  have hreturns : Returns (fun _ => dist) entry ⟨entry.id.toHex, dist,
      (sortedEntities entry.entities).map Entity.val, entry.context.map Context.asStr⟩ :=
    ⟨rfl, rfl, rfl⟩
  rw [parseRow_eq hreturns, hread, toFinset_sortedEntities]

namespace Sample

open Semisweet.Core.Sample

/-- An uppercase letter becomes the lowercase one, and another character stays. -/
theorem toLower_cases (c : Char) :
    ((65 ≤ c.toNat ∧ c.toNat ≤ 90) ∧ 97 ≤ c.toLower.toNat ∧ c.toLower.toNat ≤ 122) ∨
      c.toLower = c := by
  unfold Char.toLower
  split
  · rename_i h
    have hle : 65 ≤ c.toNat ∧ c.toNat ≤ 90 := h
    have hnat : (c.val + ('a'.val - 'A'.val)).toNat = c.toNat + 32 := by
      rw [UInt32.toNat_add]
      show (c.toNat + 32) % 2 ^ 32 = c.toNat + 32
      omega
    refine .inl ⟨hle, ?_⟩
    show 97 ≤ (c.val + ('a'.val - 'A'.val)).toNat ∧ (c.val + ('a'.val - 'A'.val)).toNat ≤ 122
    omega
  · exact .inr rfl

theorem isWhitespace_letter {c : Char} (h : 65 ≤ c.toNat) (h' : c.toNat ≤ 122) :
    isWhitespace c = false := by
  simp only [isWhitespace, Bool.or_eq_false_iff, Bool.and_eq_false_iff, decide_eq_false_iff_not,
    beq_eq_false_iff_ne]
  omega

theorem sameSpaces_toLower : SameSpaces String.toLower := by
  intro s
  rw [toList_toLower]
  refine Recased.map (fun c hc => ?_) (fun c hc => ?_) s.toList
  · rcases toLower_cases c with ⟨⟨h, h'⟩, -⟩ | h
    · rw [isWhitespace_letter h (by omega)] at hc
      exact absurd hc (by decide)
    · exact h
  · rcases toLower_cases c with ⟨-, h, h'⟩ | h
    · exact isWhitespace_letter (by omega) h'
    · rw [h, hc]

theorem toLower_toLower (s : String) : s.toLower.toLower = s.toLower := by
  rw [← String.toList_inj, toList_toLower, toList_toLower, List.map_map]
  refine List.map_congr_left fun c _ => ?_
  rcases toLower_cases c.toLower with ⟨h, -⟩ | h
  · rcases toLower_cases c with ⟨-, h'⟩ | h'
    · omega
    · rw [Function.comp, h', h']
  · exact h

/-- An entity of two words. -/
def aspirinDose : Entity := ⟨"aspirin dose", by decide⟩

theorem normalize_aspirinDose :
    Entity.normalize platform " Aspirin \t Dose" = some aspirinDose := by
  rw [Entity.normalize_eq_some_iff]
  decide +kernel

/-- A row with an entity and a context. -/
def described : VectorEntry ℚ := ⟨idOne, embedding, ∅, {aspirinDose}, some contextA⟩

/-- Its entity was normalized. -/
theorem normalized_described : ∀ e ∈ described.entities, ∃ raw,
    Entity.normalize platform raw = some e := by
  intro e he
  obtain rfl := Finset.mem_singleton.mp he
  exact ⟨_, normalize_aspirinDose⟩

/-- The row as it comes back, after its distance. -/
theorem carries_described :
    Carries described 0 (("$dist", .num 0) :: upsertRow described) := by
  constructor <;> simp [List.lookup_cons, upsertRow]

end Sample

/-- The row comes back. -/
theorem parseRow_upsertRow_described : ∃ row,
    QueryRow.deserialize (("$dist", .num 0) :: upsertRow Sample.described) = some row ∧
      row.dist = 0 ∧ parseRow Core.Sample.platform row =
        .ok ⟨Sample.described.id, Sample.described.entities, Sample.described.context⟩ :=
  parseRow_upsertRow Sample.sameSpaces_toLower Sample.toLower_toLower Sample.normalized_described
    Sample.carries_described

end TurbopufferVectorStore

end Semisweet.Core
