import Mathlib.Data.List.TakeDrop
import Mathlib.Tactic.Common

/-!
# Self-delimiting codes on a stream

A reader takes some items off the front of a stream and returns a value or an error. A code
is self-delimiting for it (`Delimits`) when the reader takes exactly the code of a value and
none of what follows, and answers every proper beginning of a code with the same error.

Values coded one after another are then read back one after another (`readMany_flatMap`),
and from a stream that is cut anywhere the whole codes before the cut are read, and after
them the error (`readMany_take`).

What is only hashed and never read back has no reader. There a code is prefix-free
(`PrefixFree`) when two values whose codes begin alike are the same one, and then values
coded one after another are known from the whole (`PrefixFree.flatMap_inj`).
-/

namespace Semisweet.Foundations

universe u v w

/-- What a reader of a stream returns: a value or an error, and the rest of the stream. -/
abbrev Reader (β : Type u) (ε : Type v) (α : Type w) := List β → Except ε α × List β

variable {α : Type w} {β : Type u} {ε : Type v}

/-- Read several values in succession, up to the first error. -/
def readMany (read : Reader β ε α) : ℕ → Reader β ε (List α)
  | 0, s => (.ok [], s)
  | n + 1, s =>
    match read s with
    | (.error e, s) => (.error e, s)
    | (.ok a, s) =>
      match readMany read n s with
      | (.error e, s) => (.error e, s)
      | (.ok as, s) => (.ok (a :: as), s)

/-- `code` is self-delimiting for `read`, on the values that are `good`. -/
structure Delimits (read : Reader β ε α) (code : α → List β) (good : α → Prop) (eof : ε) :
    Prop where
  /-- The reader takes a whole code, and nothing after it. -/
  whole {a : α} (tail : List β) : good a → read (code a ++ tail) = (.ok a, tail)
  /-- It does not take part of one. -/
  cut {a : α} {n : ℕ} : good a → n < (code a).length → (read ((code a).take n)).1 = .error eof
  /-- There is nothing to read at the end of the stream. -/
  empty : (read []).1 = .error eof

namespace Delimits

variable {read : Reader β ε α} {code : α → List β} {good : α → Prop} {eof : ε}

/-- **The round trip**: values coded in succession are read back in succession, and what follows
is left. -/
theorem readMany_flatMap (hd : Delimits read code good eof) {as : List α} (tail : List β)
    (hgood : ∀ a ∈ as, good a) :
    readMany read as.length (as.flatMap code ++ tail) = (.ok as, tail) := by
  induction as with
  | nil => rfl
  | cons a as ih =>
    have hrest := ih fun b hb => hgood b (List.mem_cons_of_mem _ hb)
    rw [List.flatMap_cons, List.append_assoc, List.length_cons, readMany,
      hd.whole _ (hgood a List.mem_cons_self)]
    simp only [hrest]

/-- **The round trip of a cut stream**: the values whose codes lie before the cut are read back, and
the next read is an error. -/
theorem readMany_take (hd : Delimits read code good eof) {as : List α} (hgood : ∀ a ∈ as, good a)
    (n : ℕ) :
    ∃ complete rest left, as = complete ++ rest ∧
      readMany read complete.length ((as.flatMap code).take n) = (.ok complete, left) ∧
      (read left).1 = .error eof ∧ (complete.flatMap code).length ≤ n ∧
        ∀ a ∈ rest.head?, n < ((complete ++ [a]).flatMap code).length := by
  induction as generalizing n with
  | nil => exact ⟨[], [], [], rfl, by simp [readMany], hd.empty, by simp, by simp⟩
  | cons a as ih =>
    have ha := hgood a List.mem_cons_self
    by_cases hn : n < (code a).length
    · -- The cut is inside the first code.
      refine ⟨[], a :: as, (code a).take n, rfl, ?_, hd.cut ha hn, by simp, by simpa using hn⟩
      rw [List.flatMap_cons, List.take_append_of_le_length (Nat.le_of_lt hn)]
      rfl
    · rw [Nat.not_lt] at hn
      obtain ⟨complete, rest, left, rfl, hread, heof, hle, hnext⟩ :=
        ih (fun b hb => hgood b (List.mem_cons_of_mem _ hb)) (n - (code a).length)
      refine ⟨a :: complete, rest, left, rfl, ?_, heof, ?_, ?_⟩
      · rw [List.flatMap_cons, List.take_append, List.take_of_length_le hn, List.length_cons,
          readMany, hd.whole _ ha]
        simp only [hread]
      · rw [List.flatMap_cons, List.length_append]
        omega
      · intro b hb
        have := hnext b hb
        rw [List.cons_append, List.flatMap_cons, List.length_append]
        omega

end Delimits

/-- `code` is prefix-free, on the values that are `good`: what begins with the codes of two values
begins with the code of one. -/
def PrefixFree (code : α → List β) (good : α → Prop) : Prop :=
  ∀ ⦃a b : α⦄ ⦃s t : List β⦄, good a → good b → code a ++ s = code b ++ t → a = b ∧ s = t

/-- A code that ends with an item of its own is prefix-free. -/
theorem prefixFree_snoc (b : β) : PrefixFree (fun w : List β => w ++ [b]) (b ∉ ·) := by
  intro w v s t hw hv h
  induction w generalizing v with
  | nil =>
    cases v with
    | nil => exact ⟨rfl, by simpa using h⟩
    | cons c v => exact absurd (List.cons.inj h).1 (List.ne_of_not_mem_cons hv)
  | cons a w ih =>
    cases v with
    | nil => exact absurd (List.cons.inj h).1.symm (List.ne_of_not_mem_cons hw)
    | cons c v =>
      obtain ⟨rfl, hrest⟩ := List.cons.inj h
      obtain ⟨rfl, hst⟩ :=
        ih (List.not_mem_of_not_mem_cons hw) (List.not_mem_of_not_mem_cons hv) hrest
      exact ⟨rfl, hst⟩

/-- **Values coded in succession are known from the whole**, if no code is empty. -/
theorem PrefixFree.flatMap_inj {code : α → List β} {good : α → Prop} (h : PrefixFree code good)
    (hne : ∀ a, code a ≠ []) {as bs : List α} (has : ∀ a ∈ as, good a) (hbs : ∀ b ∈ bs, good b)
    (heq : as.flatMap code = bs.flatMap code) : as = bs := by
  induction as generalizing bs with
  | nil =>
    cases bs with
    | nil => rfl
    | cons b bs => simp [hne b] at heq
  | cons a as ih =>
    cases bs with
    | nil => simp [hne a] at heq
    | cons b bs =>
      rw [List.flatMap_cons, List.flatMap_cons] at heq
      obtain ⟨rfl, hrest⟩ := h (has a List.mem_cons_self) (hbs b List.mem_cons_self) heq
      rw [ih (fun a ha => has a (List.mem_cons_of_mem _ ha))
        (fun b hb => hbs b (List.mem_cons_of_mem _ hb)) hrest]

/-- What stands in front of every code changes nothing. -/
theorem PrefixFree.append_left {code : α → List β} {good : α → Prop} (h : PrefixFree code good)
    (sep : List β) : PrefixFree (fun a => sep ++ code a) good := by
  intro a b s t ha hb heq
  rw [List.append_assoc, List.append_assoc] at heq
  exact h ha hb (List.append_cancel_left heq)

theorem intercalate_cons_eq (sep x : List β) (xs : List (List β)) :
    sep.intercalate (x :: xs) = x ++ xs.flatMap (sep ++ ·) := by
  induction xs generalizing x with
  | nil => simp
  | cons y ys ih => rw [List.intercalate_cons_cons, ih, List.flatMap_cons, List.append_assoc,
      List.append_assoc]

/-- **Values coded with something between them are known from the whole**, too. -/
theorem PrefixFree.intercalate_inj {code : α → List β} {good : α → Prop} (h : PrefixFree code good)
    (hne : ∀ a, code a ≠ []) (sep : List β) {as bs : List α} (has : ∀ a ∈ as, good a)
    (hbs : ∀ b ∈ bs, good b)
    (heq : sep.intercalate (as.map code) = sep.intercalate (bs.map code)) : as = bs := by
  cases as with
  | nil =>
    cases bs with
    | nil => rfl
    | cons b bs => simp [intercalate_cons_eq, hne b] at heq
  | cons a as =>
    cases bs with
    | nil => simp [intercalate_cons_eq, hne a] at heq
    | cons b bs =>
      rw [List.map_cons, List.map_cons, intercalate_cons_eq, intercalate_cons_eq,
        List.flatMap_map, List.flatMap_map] at heq
      obtain ⟨rfl, hrest⟩ := h (has a List.mem_cons_self) (hbs b List.mem_cons_self) heq
      rw [(h.append_left sep).flatMap_inj (fun a => by simp [hne a])
        (fun a ha => has a (List.mem_cons_of_mem _ ha))
        (fun b hb => hbs b (List.mem_cons_of_mem _ hb)) hrest]

end Semisweet.Foundations
