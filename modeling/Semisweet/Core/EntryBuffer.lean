import Semisweet.Core.Newtype
import Semisweet.Foundations.Delimited

/-!
# What an entry id is a hash of

`EntryId::derive` (`src/newtype.rs`) hashes a buffer with the query, the context and the
keys. Every field has its length in front of it, in eight bytes; one byte says whether there
is a context; and how many keys there are is not said.

The buffer is still that of one lookup only (`buffer_injective`). A field with its length is a
prefix-free code (`prefixFree_fieldCode`), so the query is known from the buffer, then the tag,
then the context if the tag says so, and what is left are the keys, one field after another, of
which none is empty. The keys are in their order in the set, so that the order in which they
were inserted does not show.
-/

namespace Semisweet.Core

open Semisweet.Foundations

/-! ### Fields -/

/-- The UTF-8 encoding is that of the string. -/
theorem toByteArray_asBytes (s : String) : (asBytes s).toByteArray = s.toByteArray := by
  rw [← String.utf8Encode_toList]
  rfl

/-- Different strings have different bytes. -/
theorem asBytes_injective : Function.Injective asBytes := by
  intro s t h
  apply String.toByteArray_inj.mp
  rw [← toByteArray_asBytes, ← toByteArray_asBytes, h]

@[simp] theorem length_leBytes (n : ℕ) : (leBytes n).length = 8 := by simp [leBytes]

/-- Numbers with the same digits are the same, up to the last digit. -/
theorem mod_pow_eq {b m n k : ℕ} (h : ∀ i < k, m / b ^ i % b = n / b ^ i % b) :
    m % b ^ k = n % b ^ k := by
  induction k with
  | zero => simp [Nat.mod_one]
  | succ k ih =>
    rw [Nat.mod_pow_succ, Nat.mod_pow_succ, ih fun i hi => h i (by omega), h k (by omega)]

/-- Eight bytes hold a length below `2 ^ 64`. -/
theorem leBytes_inj {m n : ℕ} (hm : m < 2 ^ 64) (hn : n < 2 ^ 64) (h : leBytes m = leBytes n) :
    m = n := by
  have hdigit : ∀ i < 8, m / 256 ^ i % 256 = n / 256 ^ i % 256 := by
    intro i hi
    have hbyte := List.map_inj_left.mp h i (List.mem_range.mpr hi)
    simpa using congrArg UInt8.toNat hbyte
  have hmod := mod_pow_eq hdigit
  have hpow : 256 ^ 8 = 2 ^ 64 := by norm_num
  rwa [hpow, Nat.mod_eq_of_lt hm, Nat.mod_eq_of_lt hn] at hmod

/-- A field as `push_field` appends it. -/
def fieldCode (field : List UInt8) : List UInt8 := leBytes field.length ++ field

theorem pushField_eq (buf field : List UInt8) : pushField buf field = buf ++ fieldCode field :=
  List.append_assoc ..

theorem fieldCode_ne_nil (field : List UInt8) : fieldCode field ≠ [] := by
  intro h
  simpa [fieldCode] using congrArg List.length h

/-- **A field with its length in front is a prefix-free code.** -/
theorem prefixFree_fieldCode :
    PrefixFree fieldCode fun field : List UInt8 => field.length < 2 ^ 64 := by
  intro a b s t ha hb h
  rw [fieldCode, fieldCode, List.append_assoc, List.append_assoc] at h
  obtain ⟨hlen, hrest⟩ := List.append_inj h (by simp)
  exact List.append_inj hrest (leBytes_inj ha hb hlen)

/-! ### The buffer -/

namespace EntryId

/-- The tag, and the context if there is one. -/
def contextCode : Option Context → List UInt8
  | some context => 1 :: fieldCode (asBytes context.asStr)
  | none => [0]

/-- The keys, as they are hashed. -/
def keysCode (keys : Finset Key) : List UInt8 :=
  (sortedKeys keys).flatMap fun key => fieldCode (asBytes key.asStr)

theorem buffer_eq (p : Parts) : buffer p =
    fieldCode (asBytes p.query.asStr) ++ (contextCode p.context ++ keysCode p.keys) := by
  obtain ⟨query, keys, context⟩ := p
  cases context <;>
    simp [buffer, pushField_eq, contextCode, keysCode, sortedKeys, List.flatMap_def]

/-- Every field is shorter than `2 ^ 64` bytes. -/
structure Short (p : Parts) : Prop where
  /-- The query is. -/
  query : (asBytes p.query.asStr).length < 2 ^ 64
  /-- The keys are. -/
  keys : ∀ key ∈ p.keys, (asBytes key.asStr).length < 2 ^ 64
  /-- The context is. -/
  context : ∀ c ∈ p.context, (asBytes c.asStr).length < 2 ^ 64

/-- The tag says whether there is a context. -/
theorem prefixFree_contextCode :
    PrefixFree contextCode fun context => ∀ c ∈ context, (asBytes c.asStr).length < 2 ^ 64 := by
  intro a b s t ha hb h
  cases a with
  | none =>
    cases b with
    | none => exact ⟨rfl, by simpa [contextCode] using h⟩
    | some c => simp [contextCode] at h
  | some c =>
    cases b with
    | none => simp [contextCode] at h
    | some c' =>
      simp only [contextCode, List.cons_append, List.cons.injEq, true_and] at h
      obtain ⟨hbytes, hrest⟩ := prefixFree_fieldCode (ha c rfl) (hb c' rfl) h
      rw [Context.asStr_injective (asBytes_injective hbytes)]
      exact ⟨rfl, hrest⟩

/-- The keys are known from their fields. -/
theorem keysCode_inj {keys keys' : Finset Key}
    (h : ∀ key ∈ keys, (asBytes key.asStr).length < 2 ^ 64)
    (h' : ∀ key ∈ keys', (asBytes key.asStr).length < 2 ^ 64)
    (heq : keysCode keys = keysCode keys') : keys = keys' := by
  have hcode : PrefixFree (fun key : Key => fieldCode (asBytes key.asStr))
      fun key => (asBytes key.asStr).length < 2 ^ 64 := by
    intro a b s t ha hb hab
    obtain ⟨hbytes, hrest⟩ := prefixFree_fieldCode ha hb hab
    exact ⟨Key.asStr_injective (asBytes_injective hbytes), hrest⟩
  have hsort := hcode.flatMap_inj (fun key => fieldCode_ne_nil _)
    (fun key hkey => h key (mem_sortedKeys.mp hkey))
    (fun key hkey => h' key (mem_sortedKeys.mp hkey)) heq
  rw [← toFinset_sortedKeys keys, hsort, toFinset_sortedKeys]

/-- **The buffer is that of one lookup only.** -/
theorem buffer_injective {p p' : Parts} (h : Short p) (h' : Short p')
    (heq : buffer p = buffer p') : p = p' := by
  obtain ⟨query, keys, context⟩ := p
  obtain ⟨query', keys', context'⟩ := p'
  rw [buffer_eq, buffer_eq] at heq
  obtain ⟨hquery, hrest⟩ := prefixFree_fieldCode h.query h'.query heq
  obtain ⟨rfl, hkeys⟩ := prefixFree_contextCode h.context h'.context hrest
  obtain rfl := QueryText.asStr_injective (asBytes_injective hquery)
  obtain rfl := keysCode_inj h.keys h'.keys hkeys
  rfl

/-- Insert keys into a `BTreeSet`, one after another. -/
def insertAll (keys : List Key) : Finset Key := keys.foldl (fun set key => insert key set) ∅

/-- The set has the keys that were inserted. -/
theorem insertAll_eq (keys : List Key) : insertAll keys = keys.toFinset := by
  have hfold (set : Finset Key) :
      keys.foldl (fun set key => insert key set) set = set ∪ keys.toFinset := by
    induction keys generalizing set with
    | nil => simp
    | cons key keys ih =>
      rw [List.foldl_cons, ih, List.toFinset_cons, Finset.insert_union, Finset.union_insert]
  rw [insertAll, hfold, Finset.empty_union]

/-- **An entry id is a hash of its query, keys and context.** Different lookups have different
buffers; the order in which the keys were inserted does not count; and among any lookups on whose
buffers the hash has no collision, no two share an id. -/
theorem buffer_spec :
    (∀ p p' : Parts, Short p → Short p' → buffer p = buffer p' →
      p.query = p'.query ∧ p.keys = p'.keys ∧ p.context = p'.context) ∧
    (∀ (query : QueryText) (context : Option Context) (keys keys' : List Key),
      (∀ key, key ∈ keys ↔ key ∈ keys') →
        buffer ⟨query, insertAll keys, context⟩ = buffer ⟨query, insertAll keys', context⟩) ∧
    ∀ (newV5 : Uuid → List UInt8 → Uuid) (lookups : Set Parts), (∀ p ∈ lookups, Short p) →
      Set.InjOn (newV5 namespaceUuid) (Set.image buffer lookups) →
        Set.InjOn (derive newV5) lookups := by
  refine ⟨fun p p' h h' heq => ?_, fun query context keys keys' hmem => ?_,
    fun newV5 lookups hshort hinj p hp p' hp' heq => ?_⟩
  · obtain rfl := buffer_injective h h' heq
    exact ⟨rfl, rfl, rfl⟩
  · have hkeys : insertAll keys = insertAll keys' := by
      rw [insertAll_eq, insertAll_eq]
      ext key
      simp [hmem key]
    rw [hkeys]
  · have hbuffer := hinj (Set.mem_image_of_mem buffer hp) (Set.mem_image_of_mem buffer hp')
      (congrArg EntryId.bytes heq)
    exact buffer_injective (hshort p hp) (hshort p' hp') hbuffer

end EntryId

end Semisweet.Core
