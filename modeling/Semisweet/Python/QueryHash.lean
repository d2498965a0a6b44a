import Semisweet.Python.CacheQuery
import Semisweet.Foundations.Delimited
import Semisweet.Foundations.Loops
import Mathlib.Data.List.Sort

/-!
# Equality and hash of a cache query

Two `CacheQuery` objects (`src/python.rs`) are equal when their query, their context and the
sets of their keys are. The hash of one is that of its text (`__repr__`), in which the keys stand
sorted.

Equality is what it should be: equal objects are the requests that the daemon reconstructs into
the same lookup (`eq_iff_reconstruct`). The hash is not consistent with it. The text has each
trimmed key as often as the object names it, which a set does not, so that `{"a"}` and `{"a", " a"}`
are equal and hash differently (`hash_ne`). What decides is therefore the multiset of the trimmed
keys (`trimmed`); only quotes in a key can make two of these the same text.

`DefaultHasher` hashes a string with SipHash-1-3 under the key 0 (`defaultHash`); its algorithm is
not promised, so what holds of the hash is said for any.
-/

namespace Semisweet.Python

open Semisweet.Core Semisweet.Protocol Semisweet.Foundations

/-! ### Rendering -/

/-- A value in quotes. -/
def quote (value : String) : String := "'" ++ value ++ "'"

/-- `render_opt_str`. -/
def renderOptStr : Option String → String
  | some value => quote value
  | none => "None"

/-- `render_str_set`. -/
def renderStrSet (values : List String) : String :=
  if values.isEmpty then "set()"
  else "\x7b" ++ ", ".intercalate ((values.insertionSort (· ≤ ·)).map quote) ++ "\x7d"

namespace PyCacheQuery

/-- `__repr__`. -/
def repr (self : PyCacheQuery) : String :=
  "CacheQuery(query='" ++ self.query ++ "', keys=" ++ renderStrSet self.keys ++ ", context=" ++
    renderOptStr self.context ++ ")"

/-- `__eq__`. -/
def eq (self other : PyCacheQuery) : Bool :=
  self.query == other.query && self.context == other.context &&
    decide (self.keys.toFinset = other.keys.toFinset)

/-- `__hash__`, with the hash of a string that `hash_str` takes. -/
def hash (hashStr : String → UInt64) (self : PyCacheQuery) : Int64 := (hashStr self.repr).toInt64

end PyCacheQuery

/-! ### The hash of a string -/

/-- The state of SipHash. -/
structure SipState where
  /-- The four words. -/
  (v0 v1 v2 v3 : UInt64)

namespace SipState

/-- Rotate to the left. -/
def rotl (x : UInt64) (n : UInt64) : UInt64 := (x <<< n) ||| (x >>> (64 - n))

/-- One round. -/
def round (s : SipState) : SipState :=
  let v0 := s.v0 + s.v1
  let v1 := rotl s.v1 13 ^^^ v0
  let v0 := rotl v0 32
  let v2 := s.v2 + s.v3
  let v3 := rotl s.v3 16 ^^^ v2
  let v0 := v0 + v3
  let v3 := rotl v3 21 ^^^ v0
  let v2 := v2 + v1
  let v1 := rotl v1 17 ^^^ v2
  ⟨v0, v1, rotl v2 32, v3⟩

/-- Take in a word. -/
def compress (s : SipState) (m : UInt64) : SipState :=
  let s := round { s with v3 := s.v3 ^^^ m }
  { s with v0 := s.v0 ^^^ m }

/-- The last three rounds. -/
def finish (s : SipState) : UInt64 :=
  let s := round (round (round { s with v2 := s.v2 ^^^ 0xff }))
  s.v0 ^^^ s.v1 ^^^ s.v2 ^^^ s.v3

end SipState

/-- The number of some bytes, the first the least. -/
def leWord (bytes : List UInt8) : UInt64 := bytes.foldr (fun byte n => byte.toUInt64 + 256 * n) 0

/-- The first words of a message, eight bytes each. -/
def sipWords : ℕ → List UInt8 → List UInt64
  | 0, _ => []
  | n + 1, bytes => leWord (bytes.take 8) :: sipWords n (bytes.drop 8)

/-- The last word: the bytes that are left, and the length. -/
def sipLast (bytes : List UInt8) : UInt64 :=
  leWord (bytes.drop (bytes.length / 8 * 8)) + (UInt64.ofNat bytes.length <<< 56)

/-- `DefaultHasher` of a string: SipHash-1-3 of its bytes and a byte that no string has. -/
def defaultHash (value : String) : UInt64 :=
  let bytes := asBytes value ++ [0xff]
  ((sipWords (bytes.length / 8) bytes ++ [sipLast bytes]).foldl SipState.compress
    ⟨0x736f6d6570736575, 0x646f72616e646f6d, 0x6c7967656e657261, 0x7465646279746573⟩).finish

/-! ### Equality -/

namespace PyCacheQuery

variable {query query' : String} {keys keys' : Option (List String)}
  {context context' : Option String} {a b : PyCacheQuery}

/-- The keys that were validated are keys. -/
theorem exists_key_of_mapM {values validated : List String}
    (h : values.mapM (fun value => Key.asStr <$> Key.new value) = .ok validated) :
    ∀ text ∈ validated, ∃ key, Key.new text = .ok key := by
  induction values generalizing validated with
  | nil =>
    obtain rfl : [] = validated := by simpa [pure, Except.pure] using h
    simp
  | cons value values ih =>
    simp only [List.mapM_cons, bind_eq_ok, pure, Except.pure, Except.ok.injEq] at h
    obtain ⟨text, htext, rest, hrest, rfl⟩ := h
    obtain ⟨key, -, rfl⟩ := map_eq_ok.mp htext
    exact List.forall_mem_cons.mpr ⟨⟨key, key.new_asStr⟩, ih hrest⟩

/-- **A query object is a lookup**: the daemon reconstructs it, with the same text. -/
theorem exists_reconstruct (h : new query keys context = .ok a) :
    ∃ parts, reconstruct a.query a.keys a.context = .ok parts ∧ parts.query.asStr = a.query ∧
      parts.keys.image Key.asStr = a.keys.toFinset ∧
        parts.context.map Context.asStr = a.context := by
  have hkeys : a.keys.map trim = a.keys := by
    rw [keys_of_new h, List.map_map]
    exact List.map_congr_left fun key _ => trim_trim key
  simp only [new, bind_eq_ok, Except.ok.injEq] at h
  obtain ⟨text, hq, validated, hv, c, hc, rfl⟩ := h
  obtain ⟨q, -, rfl⟩ := map_eq_ok.mp hq
  obtain ⟨set, hset, -⟩ : ∃ set, keySet validated = .ok set ∧ True := by
    refine foldlM_inv (I := fun _ _ => True) (fun _ text set htext _ => ?_) [] trivial
    obtain ⟨key, hkey⟩ := exists_key_of_mapM hv text htext
    exact ⟨insert key set, by rw [hkey]; rfl, trivial⟩
  obtain ⟨stored, rfl⟩ : ∃ stored : Option Context, stored.map Context.asStr = c := by
    cases context with
    | none => exact ⟨none, by simpa [pure, Except.pure] using hc⟩
    | some value =>
      obtain ⟨text, htext, rfl⟩ := map_eq_ok.mp hc
      obtain ⟨stored, -, rfl⟩ := map_eq_ok.mp htext
      exact ⟨some stored, rfl⟩
  have hparts : reconstruct q.asStr validated (stored.map Context.asStr) =
      .ok ⟨q, set, stored⟩ := by
    simp only [reconstruct, bind_eq_ok, mapError_eq_ok]
    exact ⟨q, q.new_asStr, set, hset, stored, Context.mapM_new_asStr stored, rfl⟩
  exact ⟨_, hparts, rfl, by rw [keys_of_reconstruct hparts, hkeys], rfl⟩

/-- **Equal objects are the requests of one lookup.** -/
theorem eq_iff_reconstruct (ha : new query keys context = .ok a)
    (hb : new query' keys' context' = .ok b) :
    ∃ parts parts', reconstruct a.query a.keys a.context = .ok parts ∧
      reconstruct b.query b.keys b.context = .ok parts' ∧ (a.eq b = true ↔ parts = parts') := by
  obtain ⟨⟨q, k, c⟩, hparts, hq, hk, hc⟩ := exists_reconstruct ha
  obtain ⟨⟨q', k', c'⟩, hparts', hq', hk', hc'⟩ := exists_reconstruct hb
  refine ⟨_, _, hparts, hparts', ?_⟩
  simp only [eq, Bool.and_eq_true, beq_iff_eq, decide_eq_true_eq, Parts.mk.injEq]
  rw [← hq, ← hq', ← hk, ← hk', ← hc, ← hc', QueryText.asStr_injective.eq_iff,
    (Finset.image_injective Key.asStr_injective).eq_iff,
    (Option.map_injective Context.asStr_injective).eq_iff, and_assoc]
  exact and_congr_right fun _ => and_comm

/-! ### The hash -/

/-- The keys of a call once they are trimmed, each as often as it was given. -/
def trimmed (keys : Option (List String)) : Multiset String := (keys.getD []).map trim

/-- A key of a call has a quote in it. -/
def Quoted (keys : Option (List String)) : Prop := ∃ key ∈ trimmed keys, '\x27' ∈ key.toList

/-- The keys of a call as they are written: trimmed, sorted, and in quotes. -/
def written (keys : Option (List String)) : String :=
  ", ".intercalate ((((keys.getD []).map trim).insertionSort (· ≤ ·)).map quote)

/-- Two calls with the same text and the same keys, once trimmed. -/
def SameLookup (query query' : String) (keys keys' : Option (List String))
    (context context' : Option String) : Prop :=
  trim query = trim query' ∧ context.map trim = context'.map trim ∧
    ((keys.getD []).map trim).toFinset = ((keys'.getD []).map trim).toFinset

/-- The query of a query object is the given one, trimmed. -/
theorem query_of_new (h : new query keys context = .ok a) : a.query = trim query := by
  simp only [new, bind_eq_ok, Except.ok.injEq] at h
  obtain ⟨text, hq, -, -, -, -, rfl⟩ := h
  obtain ⟨q, hnew, rfl⟩ := map_eq_ok.mp hq
  obtain ⟨t, ht, rfl⟩ := map_eq_ok.mp hnew
  exact NonBlank.new_eq_ok_iff.mp ht

/-- So is its context. -/
theorem context_of_new (h : new query keys context = .ok a) : a.context = context.map trim := by
  simp only [new, bind_eq_ok, Except.ok.injEq] at h
  obtain ⟨-, -, -, -, c, hc, rfl⟩ := h
  cases context with
  | none =>
    obtain rfl : none = c := by simpa [pure, Except.pure] using hc
    rfl
  | some value =>
    obtain ⟨text, htext, rfl⟩ := map_eq_ok.mp hc
    obtain ⟨stored, hnew, rfl⟩ := map_eq_ok.mp htext
    obtain ⟨t, ht, rfl⟩ := map_eq_ok.mp hnew
    exact congrArg some (NonBlank.new_eq_ok_iff.mp ht)

theorem eq_iff_sameLookup (ha : new query keys context = .ok a)
    (hb : new query' keys' context' = .ok b) :
    a.eq b = true ↔ SameLookup query query' keys keys' context context' := by
  simp only [eq, Bool.and_eq_true, beq_iff_eq, decide_eq_true_eq, SameLookup, query_of_new ha,
    query_of_new hb, keys_of_new ha, keys_of_new hb, context_of_new ha, context_of_new hb,
    and_assoc]

/-- Two sets are rendered alike when their items, sorted and in quotes, are. -/
theorem renderStrSet_eq_iff {values values' : List String} (h : values = [] ↔ values' = []) :
    renderStrSet values = renderStrSet values' ↔
      ", ".intercalate ((values.insertionSort (· ≤ ·)).map quote) =
        ", ".intercalate ((values'.insertionSort (· ≤ ·)).map quote) := by
  cases values with
  | nil =>
    rw [h.mp rfl]
    simp
  | cons value values =>
    cases values' with
    | nil => simp at h
    | cons value' values' =>
      simp only [renderStrSet, List.isEmpty_cons, Bool.false_eq_true, if_false,
        String.append_left_inj, String.append_right_inj]

theorem repr_eq_iff_renderStrSet (hquery : a.query = b.query) (hcontext : a.context = b.context) :
    a.repr = b.repr ↔ renderStrSet a.keys = renderStrSet b.keys := by
  obtain ⟨q, k, c⟩ := a
  obtain ⟨q', k', c'⟩ := b
  obtain rfl : q = q' := hquery
  obtain rfl : c = c' := hcontext
  exact (String.append_left_inj _).trans ((String.append_left_inj _).trans
    ((String.append_left_inj _).trans (String.append_right_inj _)))

/-- Equal objects have the same text when their keys are written alike. -/
theorem repr_eq_iff (ha : new query keys context = .ok a) (hb : new query' keys' context' = .ok b)
    (h : a.eq b = true) : a.repr = b.repr ↔ written keys = written keys' := by
  obtain ⟨hq, hc, hk⟩ := (eq_iff_sameLookup ha hb).mp h
  have hempty : (keys.getD []).map trim = [] ↔ (keys'.getD []).map trim = [] := by
    rw [← List.toFinset_eq_empty_iff, hk, List.toFinset_eq_empty_iff]
  have hrender := renderStrSet_eq_iff hempty
  have hquery : a.query = b.query := by rw [query_of_new ha, query_of_new hb, hq]
  have hcontext : a.context = b.context := by rw [context_of_new ha, context_of_new hb, hc]
  rw [repr_eq_iff_renderStrSet hquery hcontext, keys_of_new ha, keys_of_new hb]
  exact hrender

/-- A hash of the text tells different texts apart, for some hash of strings. -/
theorem forall_hash_eq_iff (a b : PyCacheQuery) :
    (∀ hashStr, a.hash hashStr = b.hash hashStr) ↔ a.repr = b.repr := by
  constructor
  · intro h
    by_contra hne
    have := h fun text => if text = a.repr then 0 else 1
    rw [hash, hash, if_pos rfl, if_neg (Ne.symm hne)] at this
    exact absurd this (by decide)
  · intro h hashStr
    rw [hash, hash, h]

/-- Keys that are named equally often are written alike, in whatever order they were given. -/
theorem written_eq_of_trimmed (h : trimmed keys = trimmed keys') :
    written keys = written keys' := by
  have hperm : ((keys.getD []).map trim).Perm ((keys'.getD []).map trim) := Multiset.coe_eq_coe.mp h
  have hsort : ((keys.getD []).map trim).insertionSort (· ≤ ·) =
      ((keys'.getD []).map trim).insertionSort (· ≤ ·) :=
    List.Perm.eq_of_sortedLE List.sortedLE_insertionSort List.sortedLE_insertionSort
      ((List.perm_insertionSort _ _).trans (hperm.trans (List.perm_insertionSort _ _).symm))
  rw [written, written, hsort]

/-- Without quotes in them, keys that are written alike are named equally often. -/
theorem trimmed_eq_of_written (hk : ¬ Quoted keys) (hk' : ¬ Quoted keys')
    (h : written keys = written keys') : trimmed keys = trimmed keys' := by
  have hcode : PrefixFree (fun key => (quote key).toList) fun key => '\x27' ∉ key.toList := by
    intro x y s t hx hy heq
    simp only [quote, String.toList_append, List.append_assoc] at heq
    obtain ⟨hxy, hst⟩ := prefixFree_snoc '\x27' hx hy
      (by simpa using List.append_cancel_left heq)
    exact ⟨String.toList_inj.mp hxy, hst⟩
  have hjoin := congrArg String.toList h
  simp only [written, String.toList_intercalate, List.map_map] at hjoin
  have hsort := hcode.intercalate_inj (fun key => by simp [quote]) _
    (fun key hkey hquote => hk ⟨key, (List.mem_insertionSort _).mp hkey, hquote⟩)
    (fun key hkey hquote => hk' ⟨key, (List.mem_insertionSort _).mp hkey, hquote⟩) hjoin
  have hperm := List.perm_insertionSort (· ≤ ·) ((keys.getD []).map trim)
  rw [hsort] at hperm
  exact Multiset.coe_eq_coe.mpr (hperm.symm.trans (List.perm_insertionSort _ _))

/-- **Which keys are written alike**: those that are named equally often, and, of those with quotes
in them, some others. -/
theorem written_eq_iff : written keys = written keys' ↔
    trimmed keys = trimmed keys' ∨ (Quoted keys ∨ Quoted keys') ∧ written keys = written keys' := by
  constructor
  · intro h
    by_cases hquoted : Quoted keys ∨ Quoted keys'
    · exact .inr ⟨hquoted, h⟩
    · rw [not_or] at hquoted
      exact .inl (trimmed_eq_of_written hquoted.1 hquoted.2 h)
  · rintro (h | ⟨-, h⟩)
    · exact written_eq_of_trimmed h
    · exact h

/-- **The hash is consistent with equality when equal sets of keys are named equally often**, and
equality is that of lookups. So it is whenever the multisets of trimmed keys are equal, and if
no key has a quote in it, for no others; keys with quotes may be written alike all the same. -/
theorem hash_spec (ha : new query keys context = .ok a) (hb : new query' keys' context' = .ok b) :
    (((∀ hashStr, a.eq b = true → a.hash hashStr = b.hash hashStr) ∧
      ∃ parts parts', reconstruct a.query a.keys a.context = .ok parts ∧
        reconstruct b.query b.keys b.context = .ok parts' ∧ (a.eq b = true ↔ parts = parts')) ↔
      (SameLookup query query' keys keys' context context' → trimmed keys = trimmed keys' ∨
        (Quoted keys ∨ Quoted keys') ∧ written keys = written keys')) ∧
    (trimmed keys = trimmed keys' → written keys = written keys') ∧
    (¬ Quoted keys → ¬ Quoted keys' → written keys = written keys' →
      trimmed keys = trimmed keys') := by
  have hlookup := eq_iff_sameLookup ha hb
  refine ⟨?_, written_eq_of_trimmed, trimmed_eq_of_written⟩
  rw [← written_eq_iff]
  constructor
  · rintro ⟨hhash, -⟩ hsame
    have heq := hlookup.mpr hsame
    rw [← repr_eq_iff ha hb heq, ← forall_hash_eq_iff]
    exact fun hashStr => hhash hashStr heq
  · refine fun hwritten => ⟨fun hashStr heq => ?_, eq_iff_reconstruct ha hb⟩
    exact (forall_hash_eq_iff a b).mpr ((repr_eq_iff ha hb heq).mpr (hwritten (hlookup.mp heq)))
      hashStr

namespace Sample

/-- The query under a key. -/
def plain : PyCacheQuery := ⟨"q", ["a"], none⟩

/-- The query under a set of two keys that trim to one. -/
def doubled : PyCacheQuery := ⟨"q", ["a", "a"], none⟩

theorem new_plain : new "q" (some ["a"]) none = .ok plain := by decide +kernel

theorem new_doubled : new "q" (some ["a", " a"]) none = .ok doubled := by decide +kernel

end Sample

/-- The two objects: a consistent hash would need their keys to be named equally often. -/
theorem hash_spec_doubled :
    ((∀ hashStr, Sample.doubled.eq Sample.plain = true →
        Sample.doubled.hash hashStr = Sample.plain.hash hashStr) ∧
      ∃ parts parts', reconstruct "q" ["a", "a"] none = .ok parts ∧
        reconstruct "q" ["a"] none = .ok parts' ∧
          (Sample.doubled.eq Sample.plain = true ↔ parts = parts')) ↔
      (SameLookup "q" "q" (some ["a", " a"]) (some ["a"]) none none →
        trimmed (some ["a", " a"]) = trimmed (some ["a"]) ∨
          (Quoted (some ["a", " a"]) ∨ Quoted (some ["a"])) ∧
            written (some ["a", " a"]) = written (some ["a"])) :=
  (hash_spec Sample.new_doubled Sample.new_plain).1

/-- **Equal objects with different hashes.** -/
theorem hash_ne : ¬ ∀ (query query' : String) (keys keys' : Option (List String))
    (context context' : Option String) (a b : PyCacheQuery), new query keys context = .ok a →
      new query' keys' context' = .ok b → a.eq b = true →
        a.hash defaultHash = b.hash defaultHash := by
  intro hall
  exact absurd (hall _ _ _ _ _ _ _ _ Sample.new_doubled Sample.new_plain (by decide +kernel))
    (by decide +kernel)

end PyCacheQuery

end Semisweet.Python
