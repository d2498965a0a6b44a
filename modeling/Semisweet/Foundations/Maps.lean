import Mathlib.Data.List.Nodup
import Mathlib.Logic.Function.Basic

/-!
# Finite maps and their iteration orders

A map is a function to `Option`, changed by `Function.update`. Going through a hash map
visits its entries in an order nothing is promised about: `Enumerates l m` says that `l`
lists the entries of `m` in some order, each once.
-/

namespace Semisweet.Foundations

universe u v

variable {K : Type u} {V : Type v}

/-- `l` lists the entries of `m`, each once, in some order. -/
structure Enumerates (l : List (K × V)) (m : K → Option V) : Prop where
  /-- No key is visited twice. -/
  nodup : (l.map Prod.fst).Nodup
  /-- Exactly the entries of `m` are visited. -/
  mem_iff : ∀ k v, (k, v) ∈ l ↔ m k = some v

/-- A call on a map that may have been carried out or not: a key has what it had, or it is the key
of the call, and has what the call gives it. -/
theorem update_if_cases [DecidableEq K] (applied : Bool) (m : K → V) (k : K) (v : V) (k' : K) :
    (if applied then Function.update m k v else m) k' = m k' ∨
      k' = k ∧ (if applied then Function.update m k v else m) k' = v := by
  by_cases hk : k' = k
  · subst hk
    cases applied with
    | false => exact .inl rfl
    | true => exact .inr ⟨rfl, Function.update_self _ _ _⟩
  · cases applied with
    | false => exact .inl rfl
    | true => exact .inl (Function.update_of_ne hk _ _)

namespace Enumerates

variable {l l' : List (K × V)} {m : K → Option V}

/-- Any reordering of an iteration order is one. -/
theorem perm (h : Enumerates l m) (hp : l'.Perm l) : Enumerates l' m where
  nodup := ((hp.map Prod.fst).nodup_iff).mpr h.nodup
  mem_iff k v := hp.mem_iff.trans (h.mem_iff k v)

/-- Two iteration orders of one map are reorderings of each other. -/
theorem perm_of (h : Enumerates l m) (h' : Enumerates l' m) : l'.Perm l :=
  (List.perm_ext_iff_of_nodup (List.Nodup.of_map _ h'.nodup)
    (List.Nodup.of_map _ h.nodup)).mpr fun ⟨k, v⟩ =>
    (h'.mem_iff k v).trans (h.mem_iff k v).symm

/-- The empty map is gone through in no steps. -/
theorem empty : Enumerates ([] : List (K × V)) (fun _ => none) := ⟨by simp, by simp⟩

/-- A map with one more entry is gone through with that entry first. -/
theorem insert [DecidableEq K] (h : Enumerates l m) {k : K} (hk : m k = none) (v : V) :
    Enumerates ((k, v) :: l) (Function.update m k (some v)) where
  nodup := by
    refine List.nodup_cons.mpr ⟨fun hmem => ?_, h.nodup⟩
    obtain ⟨⟨k', v'⟩, hm, hk'⟩ := List.mem_map.mp hmem
    obtain rfl : k' = k := hk'
    rw [(h.mem_iff k' v').mp hm] at hk
    cases hk
  mem_iff k' v' := by
    by_cases hkk : k' = k
    · subst hkk
      have hno : (k', v') ∉ l := fun hm => by
        rw [(h.mem_iff k' v').mp hm] at hk
        cases hk
      simp [hno, eq_comm]
    · simp [hkk, h.mem_iff]

/-- A map with one entry less is gone through without it. -/
theorem erase [DecidableEq K] (h : Enumerates l m) (k : K) :
    Enumerates (l.filter fun p => p.1 ≠ k) (Function.update m k none) where
  nodup := h.nodup.sublist (List.filter_sublist.map Prod.fst)
  mem_iff k' v' := by
    by_cases hkk : k' = k
    · simp [hkk]
    · simp [hkk, h.mem_iff]

/-- A changed map can still be gone through. -/
theorem exists_update [DecidableEq K] (h : Enumerates l m) (k : K) (v : Option V) :
    ∃ l', Enumerates l' (Function.update m k v) := by
  cases v with
  | none => exact ⟨_, h.erase k⟩
  | some v =>
    have hnew := (h.erase k).insert (k := k) (Function.update_self _ _ _) v
    rw [Function.update_idem] at hnew
    exact ⟨_, hnew⟩

end Enumerates

end Semisweet.Foundations
