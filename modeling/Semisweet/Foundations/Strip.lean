import Mathlib.Data.List.DropRight

/-!
# Stripping a list at both ends

`strip p l` drops the longest run of items satisfying `p` from the front of `l` and from
the back of what is left. Nothing is left to strip from a stripped list (`strip_strip`).
-/

namespace Semisweet.Foundations

universe u

variable {α : Type u} (p : α → Bool)

/-- Drop the items satisfying `p` from both ends. -/
def strip (l : List α) : List α := (l.dropWhile p).rdropWhile p

/-- A list whose first item is kept still has nothing to drop in front once its back is dropped. -/
theorem dropWhile_rdropWhile {l : List α} (h : l.dropWhile p = l) :
    (l.rdropWhile p).dropWhile p = l.rdropWhile p := by
  rw [List.dropWhile_eq_self_iff] at h ⊢
  intro hl
  have hp := List.rdropWhile_prefix p l
  have hlen : 0 < l.length := lt_of_lt_of_le hl hp.length_le
  rw [hp.getElem hl]
  exact h hlen

/-- A stripped list is stripped. -/
theorem strip_strip (l : List α) : strip p (strip p l) = strip p l := by
  unfold strip
  rw [dropWhile_rdropWhile p (List.dropWhile_idempotent p l), List.rdropWhile_idempotent]

/-- Nothing is left of a list when all its items are dropped. -/
theorem strip_eq_nil_iff {l : List α} : strip p l = [] ↔ ∀ a ∈ l, p a = true := by
  rw [strip, List.rdropWhile_eq_nil_iff]
  constructor
  · intro h a ha
    rw [← List.takeWhile_append_dropWhile (p := p) (l := l), List.mem_append] at ha
    exact ha.elim (fun ha => List.mem_takeWhile_imp ha) (h a)
  · exact fun h a ha => h a (List.dropWhile_suffix p |>.subset ha)

/-- Dropping in front stops at an item that is kept. -/
theorem dropWhile_append_cons {a : α} (ha : p a = false) (l m : List α) :
    (l ++ a :: m).dropWhile p = l.dropWhile p ++ a :: m := by
  induction l with
  | nil => exact List.dropWhile_cons_of_neg (by simp [ha])
  | cons b l ih =>
    by_cases hb : p b = true
    · rw [List.cons_append, List.dropWhile_cons_of_pos hb, List.dropWhile_cons_of_pos hb, ih]
    · rw [List.cons_append, List.dropWhile_cons_of_neg hb, List.dropWhile_cons_of_neg hb,
        List.cons_append]

/-- Dropping at the back stops there too. -/
theorem rdropWhile_append_cons {a : α} (ha : p a = false) (l m : List α) :
    (l ++ a :: m).rdropWhile p = l ++ a :: m.rdropWhile p := by
  rw [List.rdropWhile, List.reverse_append, List.reverse_cons, List.append_assoc,
    List.singleton_append, dropWhile_append_cons p ha]
  simp [List.rdropWhile]

/-- **Stripping around a middle that begins and ends with items that are kept** strips what is
before it in front and what is after it at the back. -/
theorem strip_append {a b : α} (ha : p a = false) (hb : p b = false) (l m r : List α) :
    strip p (l ++ a :: (m ++ b :: r)) = l.dropWhile p ++ a :: (m ++ b :: r.rdropWhile p) := by
  rw [strip, dropWhile_append_cons p ha, ← List.cons_append, ← List.append_assoc,
    rdropWhile_append_cons p hb]
  simp

end Semisweet.Foundations
