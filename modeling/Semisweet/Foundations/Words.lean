import Mathlib.Tactic.Common

/-!
# Words

A list is cut into its words at the items satisfying `p` (`words`). Words that are joined with
such an item are cut again into the same words (`words_intercalate`), so joining the words of a
list a second time changes nothing.

`Recased p l m` says that `m` is `l` with the items of its words replaced by others, each by one
or more, and all else left: as when a text is brought to another case. Joined words stay joined
words then (`Recased.intercalate`).
-/

namespace Semisweet.Foundations

universe u

variable {α : Type u} {p : α → Bool} {a : α}

/-- A word: some items, of which none is a gap. -/
structure IsWord (p : α → Bool) (w : List α) : Prop where
  /-- There are items. -/
  nonempty : w ≠ []
  /-- None is a gap. -/
  gapless : ∀ x ∈ w, p x = false

/-- The words of a list. -/
def words (p : α → Bool) (l : List α) : List (List α) :=
  (l.splitOnP p).filter fun w => !w.isEmpty

/-- No piece of a list that was cut at its gaps has a gap. -/
theorem mem_splitOnP {l w : List α} (h : w ∈ l.splitOnP p) : ∀ x ∈ w, p x = false := by
  induction l generalizing w with
  | nil =>
    obtain rfl : w = [] := by simpa using h
    simp
  | cons b l ih =>
    rw [List.splitOnP_cons_eq_if_modifyHead] at h
    split at h
    · rcases List.mem_cons.mp h with rfl | h
      · simp
      · exact ih h
    · rename_i hb
      cases hs : l.splitOnP p with
      | nil => exact absurd hs (List.splitOnP_ne_nil p l)
      | cons v vs =>
        rw [hs] at h ih
        rcases List.mem_cons.mp h with rfl | h
        · intro x hx
          rcases List.mem_cons.mp hx with rfl | hx
          · simpa using hb
          · exact ih List.mem_cons_self x hx
        · exact ih (List.mem_cons_of_mem _ h)

theorem isWord_of_mem_words {l w : List α} (h : w ∈ words p l) : IsWord p w := by
  obtain ⟨hmem, hne⟩ := List.mem_filter.mp h
  exact ⟨by simpa using hne, mem_splitOnP hmem⟩

/-- A list has no words when all of it is gap. -/
theorem words_eq_nil_iff {l : List α} : words p l = [] ↔ ∀ x ∈ l, p x = true := by
  induction l with
  | nil => simp [words]
  | cons b l ih =>
    rw [List.forall_mem_cons]
    cases hb : p b with
    | true =>
      have hgap : words p (b :: l) = words p l := by
        simp [words, List.splitOnP_cons_eq_if_modifyHead, hb]
      rw [hgap, ih]
      simp
    | false =>
      -- the first item begins a word
      obtain ⟨w, ws, hs⟩ := List.exists_cons_of_ne_nil (List.splitOnP_ne_nil p l)
      simp [words, List.splitOnP_cons_eq_if_modifyHead, hb, hs]

/-- **Words that are joined are cut again.** -/
theorem words_intercalate (ha : p a = true) {ws : List (List α)} (h : ∀ w ∈ ws, IsWord p w) :
    words p ([a].intercalate ws) = ws := by
  have hall : ws.filter (fun w => !w.isEmpty) = ws :=
    List.filter_eq_self.mpr fun w hw => by simpa using (h w hw).nonempty
  cases ws with
  | nil => simp [words]
  | cons w ws =>
    have hsplit : ([a].intercalate (w :: ws)).splitOnP p = w :: ws := by
      clear hall
      induction ws generalizing w with
      | nil => simpa using List.splitOnP_eq_singleton (h w List.mem_cons_self).gapless
      | cons w' ws ih =>
        rw [List.intercalate_cons_cons, List.append_assoc, List.singleton_append,
          List.splitOnP_append_cons_of_forall_mem (h w List.mem_cons_self).gapless a ha,
          ih w' fun v hv => h v (List.mem_cons_of_mem _ hv)]
    rw [words, hsplit, hall]

/-- Joined words are not all gap, if there are any. -/
theorem exists_letter_of_ne_nil {ws : List (List α)} (h : ∀ w ∈ ws, IsWord p w) (hne : ws ≠ []) :
    ∃ x ∈ [a].intercalate ws, p x = false := by
  cases ws with
  | nil => exact absurd rfl hne
  | cons w ws =>
    have hw := h w List.mem_cons_self
    obtain ⟨x, hx⟩ := List.exists_mem_of_ne_nil w hw.nonempty
    refine ⟨x, ?_, hw.gapless x hx⟩
    cases ws <;> simp [hx]

/-- The items of the words are replaced, each by one or more, and the gaps are left. -/
inductive Recased (p : α → Bool) : List α → List α → Prop where
  /-- Nothing. -/
  | nil : Recased p [] []
  /-- A gap is left. -/
  | gap {x : α} {l m : List α} : p x = true → Recased p l m → Recased p (x :: l) (x :: m)
  /-- Another item is replaced. -/
  | letter {x : α} {l w m : List α} :
    p x = false → IsWord p w → Recased p l m → Recased p (x :: l) (w ++ m)

namespace Recased

/-- Items are replaced one by one. -/
theorem map {f : α → α} (hgap : ∀ x, p x = true → f x = x)
    (hletter : ∀ x, p x = false → p (f x) = false) (l : List α) : Recased p l (l.map f) := by
  induction l with
  | nil => exact .nil
  | cons x l ih =>
    cases hx : p x with
    | true =>
      rw [List.map_cons, hgap x hx]
      exact .gap hx ih
    | false => exact .letter (w := [f x]) hx ⟨by simp, by simp [hletter x hx]⟩ ih

/-- What comes of a list comes of its parts. -/
theorem append {l l' r : List α} (h : Recased p (l ++ l') r) :
    ∃ m m', r = m ++ m' ∧ Recased p l m ∧ Recased p l' m' := by
  induction l generalizing r with
  | nil => exact ⟨[], r, rfl, .nil, h⟩
  | cons x l ih =>
    cases h with
    | gap hx h =>
      obtain ⟨m, m', rfl, hm, hm'⟩ := ih h
      exact ⟨x :: m, m', rfl, .gap hx hm, hm'⟩
    | @letter _ _ w _ hx hw h =>
      obtain ⟨m, m', rfl, hm, hm'⟩ := ih h
      exact ⟨w ++ m, m', (List.append_assoc ..).symm, .letter hx hw hm, hm'⟩

/-- What comes of no gap has none. -/
theorem gapless {l m : List α} (h : Recased p l m) (hl : ∀ x ∈ l, p x = false) :
    ∀ x ∈ m, p x = false := by
  induction h with
  | nil => simp
  | gap hx _ _ => simp [hl _ List.mem_cons_self] at hx
  | letter _ hw _ ih =>
    intro y hy
    rcases List.mem_append.mp hy with hy | hy
    · exact hw.gapless y hy
    · exact ih (fun z hz => hl z (List.mem_cons_of_mem _ hz)) y hy

/-- A word becomes a word. -/
theorem isWord {w v : List α} (h : Recased p w v) (hw : IsWord p w) : IsWord p v := by
  refine ⟨?_, h.gapless hw.gapless⟩
  cases h with
  | nil => exact absurd rfl hw.nonempty
  | gap _ _ => simp
  | letter _ hv _ => simp [hv.nonempty]

/-- **Joined words become joined words**, as many as there were. -/
theorem intercalate (ha : p a = true) {ws : List (List α)} {r : List α}
    (h : Recased p ([a].intercalate ws) r) (hws : ∀ w ∈ ws, IsWord p w) :
    ∃ vs, r = [a].intercalate vs ∧ (∀ v ∈ vs, IsWord p v) ∧ vs.length = ws.length := by
  induction ws generalizing r with
  | nil =>
    rw [List.intercalate_nil] at h
    cases h
    exact ⟨[], rfl, by simp, rfl⟩
  | cons w ws ih =>
    cases ws with
    | nil =>
      rw [List.intercalate_singleton] at h
      have hr := h.isWord (hws w List.mem_cons_self)
      exact ⟨[r], by simp, by simpa using hr, rfl⟩
    | cons w' ws =>
      rw [List.intercalate_cons_cons, List.append_assoc, List.singleton_append] at h
      obtain ⟨v, rest, rfl, hv, hrest⟩ := h.append
      cases hrest with
      | letter hx _ _ => simp [ha] at hx
      | gap _ hrest =>
        obtain ⟨vs, rfl, hvs, hlen⟩ := ih hrest fun u hu => hws u (List.mem_cons_of_mem _ hu)
        have hne : vs ≠ [] := List.ne_nil_of_length_pos (by simp [hlen])
        refine ⟨v :: vs, ?_, List.forall_mem_cons.mpr ⟨hv.isWord (hws w List.mem_cons_self), hvs⟩,
          by simp [hlen]⟩
        rw [List.intercalate_cons_of_ne_nil hne, List.append_assoc, List.singleton_append]

end Recased

end Semisweet.Foundations
