import Semisweet.Core.Bm25Rebuild
import Mathlib.Analysis.SpecialFunctions.Log.Basic

/-!
# The bounds of a BM25 score

`Bm25Index::score` (`src/backends/vector_memory.rs`) divides by the average length, by a
denominator for each term, and by the upper bound of the query, "the score a document saturated
in every query term would earn"; `idf` takes a logarithm; and the quotient is clamped to 0 and 1.

In exact arithmetic none of this needs a guard, in whatever index calls have led to, as long as
no text that was inserted is blank: no divisor is zero, the logarithms are of numbers above 1,
and the quotient is at least 0 and less than 1 already. Each term of the query adds less to the
score than to the bound, since its count is divided by more than itself.

## What is proved

* `numerator_lt_upperBound` — the score's two sums, term by term.
* `score_well_defined` — every number on the way to a score, and when the score is 0.
-/

namespace Semisweet.Core.Bm25Index

open Semisweet.Foundations

variable {R : Type} (P : Platform R) [Field R] (self : Bm25Index)

/-! ### The numbers on the way -/

/-- `average_length`. -/
def averageLength : R := self.totalLength / self.documentCount

/-- `tf`. -/
def tf (counts : TermCounts) (term : String) : R := ((counts.lookup term).getD 0 : ℕ)

/-- `denominator`. -/
def denominator (counts : TermCounts) (length : ℕ) (term : String) : R :=
  tf counts term + k1 * (1 - b + b * length / self.averageLength)

/-- `upper_bound`. -/
def upperBound (queryTerms : Finset String) : R := ∑ term ∈ queryTerms, self.idf P term * (k1 + 1)

variable [LinearOrder R]

/-- What a term adds to `numerator`. -/
def summand (counts : TermCounts) (length : ℕ) (term : String) : R :=
  if tf counts term > (0 : R) then
    self.idf P term * (tf counts term * (k1 + 1)) / self.denominator counts length term
  else 0

/-- `numerator`. -/
def numerator (counts : TermCounts) (length : ℕ) (queryTerms : Finset String) : R :=
  ∑ term ∈ queryTerms, self.summand P counts length term

/-- **What `score` computes of them.** -/
theorem scoreDocument_eq (counts : TermCounts) (length : ℕ) (queryTerms : Finset String) :
    self.scoreDocument P counts length queryTerms =
      if self.documentCount = 0 ∨ queryTerms = ∅ then (0 : R)
      else if self.upperBound P queryTerms ≤ 0 then 0
      else max 0 (min 1 (self.numerator P counts length queryTerms / self.upperBound P queryTerms)) :=
  rfl

/-! ### Their bounds -/

section Bounds

variable [IsStrictOrderedRing R] {P self} {docs : EntryId → Option (List String)}
  {ids : Finset EntryId} {counts : TermCounts} {length : ℕ} {term : String}
  {queryTerms : Finset String} {id : EntryId} {tokens : List String}

omit [LinearOrder R] [IsStrictOrderedRing R] in
/-- The denominator is the count and the length penalty. -/
theorem denominator_eq (self : Bm25Index) (counts : TermCounts) (length : ℕ) (term : String) :
    (self.denominator counts length term : R) = tf counts term + self.lengthPenalty length :=
  rfl

theorem tf_nonneg (counts : TermCounts) (term : String) : (0 : R) ≤ tf counts term :=
  Nat.cast_nonneg _

/-- **No denominator is zero**, as the length penalty is positive. -/
theorem denominator_pos (self : Bm25Index) (counts : TermCounts) (length : ℕ) (term : String) :
    (0 : R) < self.denominator counts length term := by
  have hpenalty := lengthPenalty_pos (R := R) self length
  rw [denominator_eq]
  exact add_pos_of_nonneg_of_pos (tf_nonneg counts term) hpenalty

/-- A summand is the term's weight times a share of 1. -/
theorem summand_eq (self : Bm25Index) (counts : TermCounts) (length : ℕ) (term : String) :
    self.summand P counts length term =
      self.idf P term * (k1 + 1) * (tf counts term / self.denominator counts length term) := by
  unfold summand
  split
  · ring
  · rename_i hno
    have hzero : (tf counts term : R) = 0 := le_antisymm (not_lt.mp hno) (tf_nonneg counts term)
    rw [hzero, zero_div, mul_zero]

/-- **The average length is positive** when no document is empty, whenever there is a document to
score. -/
theorem averageLength_pos (h : Represents self docs ids) (hcount : self.documentCount ≠ 0)
    (hne : ∀ id tokens, docs id = some tokens → tokens ≠ []) : (0 : R) < self.averageLength := by
  obtain ⟨id, hid⟩ := Finset.card_ne_zero.mp (h.documentCount ▸ hcount)
  obtain ⟨tokens, hdoc⟩ := Option.ne_none_iff_exists'.mp ((h.mem_ids id).mp hid)
  obtain ⟨hdocs, htotal⟩ := h.pos hdoc (hne id tokens hdoc)
  exact div_pos (by exact_mod_cast htotal) (by exact_mod_cast hdocs)

omit [Field R] [LinearOrder R] [IsStrictOrderedRing R] in
/-- With a document, there is one. -/
theorem documentCount_ne_zero (h : Represents self docs ids) (hdoc : docs id = some tokens) :
    self.documentCount ≠ 0 := by
  rw [h.documentCount]
  exact Finset.card_ne_zero_of_mem ((h.mem_ids id).mpr (by simp [hdoc]))

/-! ### The numbers of a document and a query -/

section Weighted

variable (hln : ∀ x : R, 1 < x → 0 < P.ln x) (h : Represents self docs ids)

include hln h

/-- It is not negative. -/
theorem summand_nonneg : 0 ≤ self.summand P counts length term := by
  rw [summand_eq]
  exact mul_nonneg (weight_pos hln h term).le
    (div_nonneg (tf_nonneg counts term) (denominator_pos self counts length term).le)

/-- **It is less than the weight**, as the denominator is more than the count. -/
theorem summand_lt : self.summand P counts length term < self.idf P term * (k1 + 1) := by
  have hshare : tf counts term / self.denominator counts length term < (1 : R) := by
    rw [div_lt_one (denominator_pos self counts length term), denominator_eq]
    exact lt_add_of_pos_right _ (lengthPenalty_pos self length)
  rw [summand_eq]
  exact mul_lt_of_lt_one_right (weight_pos hln h term) hshare

/-- It is zero when the document does not have the term. -/
theorem summand_eq_zero_iff :
    self.summand P counts length term = 0 ↔ (counts.lookup term).getD 0 = 0 := by
  rw [summand_eq, mul_eq_zero_iff_left (weight_pos hln h term).ne', div_eq_zero_iff,
    or_iff_left (denominator_pos self counts length term).ne', tf, Nat.cast_eq_zero]

theorem upperBound_pos (hne : queryTerms ≠ ∅) : 0 < self.upperBound P queryTerms :=
  Finset.sum_pos (fun t _ => weight_pos hln h t) (Finset.nonempty_iff_ne_empty.mpr hne)

theorem numerator_nonneg : 0 ≤ self.numerator P counts length queryTerms :=
  Finset.sum_nonneg fun _ _ => summand_nonneg hln h

/-- **The numerator stays below the bound**, term by term. -/
theorem numerator_lt_upperBound (hne : queryTerms ≠ ∅) :
    self.numerator P counts length queryTerms < self.upperBound P queryTerms :=
  Finset.sum_lt_sum_of_nonempty (Finset.nonempty_iff_ne_empty.mpr hne) fun _ _ => summand_lt hln h

theorem numerator_eq_zero_iff :
    self.numerator P counts length queryTerms = 0 ↔
      ∀ term ∈ queryTerms, (counts.lookup term).getD 0 = 0 := by
  rw [numerator, Finset.sum_eq_zero_iff_of_nonneg fun _ _ => summand_nonneg hln h]
  simp only [summand_eq_zero_iff hln h]

/-- **The clamp changes nothing.** -/
theorem scoreDocument_eq_div (hcount : self.documentCount ≠ 0) (hne : queryTerms ≠ ∅) :
    self.scoreDocument P counts length queryTerms =
      self.numerator P counts length queryTerms / self.upperBound P queryTerms := by
  have hupper := upperBound_pos hln h hne
  have hnonneg : 0 ≤ self.numerator P counts length queryTerms / self.upperBound P queryTerms :=
    div_nonneg (numerator_nonneg hln h) hupper.le
  have hlt : self.numerator P counts length queryTerms / self.upperBound P queryTerms < 1 :=
    (div_lt_one hupper).mpr (numerator_lt_upperBound hln h hne)
  rw [scoreDocument_eq, if_neg (not_or.mpr ⟨hcount, hne⟩), if_neg (not_le.mpr hupper),
    min_eq_right hlt.le, max_eq_right hnonneg]

/-! ### The score of a document -/

/-- **The score of a document** is the numerator over the bound. -/
theorem score_eq_div (hdoc : docs id = some tokens) (hne : queryTerms ≠ ∅) :
    self.score P id queryTerms = self.numerator P (termCounts tokens) tokens.length queryTerms /
      self.upperBound P queryTerms := by
  rw [score, h.termFrequency, h.documentLength, hdoc]
  exact scoreDocument_eq_div hln h (documentCount_ne_zero h hdoc) hne

theorem score_mem_Ico (hdoc : docs id = some tokens) (hne : queryTerms ≠ ∅) :
    0 ≤ self.score P id queryTerms ∧ self.score P id queryTerms < 1 := by
  have hupper := upperBound_pos hln h hne
  rw [score_eq_div hln h hdoc hne, div_lt_one hupper]
  exact ⟨div_nonneg (numerator_nonneg hln h) hupper.le, numerator_lt_upperBound hln h hne⟩

/-- It is zero when the document shares no term with the query. -/
theorem score_eq_zero_iff (hdoc : docs id = some tokens) (hne : queryTerms ≠ ∅) :
    self.score P id queryTerms = 0 ↔ ∀ term ∈ queryTerms, term ∉ tokens := by
  rw [score_eq_div hln h hdoc hne, div_eq_zero_iff, or_iff_left (upperBound_pos hln h hne).ne',
    numerator_eq_zero_iff hln h]
  simp only [lookup_termCounts, List.count_eq_zero]

end Weighted

omit [IsStrictOrderedRing R] in
/-- A document that is absent scores 0. -/
theorem score_absent (h : Represents self docs ids) (hdoc : docs id = none) :
    self.score P id queryTerms = 0 := by
  rw [score, h.termFrequency, hdoc]
  rfl

end Bounds

/-! ### After any calls -/

/-- A live text was inserted. -/
theorem mem_of_live {calls : List Call} {id : EntryId} {text : String}
    (h : live calls id = some text) : .insert id text ∈ calls := by
  induction calls using List.reverseRecOn with
  | nil => simp [live] at h
  | append_singleton calls call ih =>
    rw [live_snoc] at h
    rw [List.mem_append, List.mem_singleton]
    cases call with
    | insert id' text' =>
      simp only [Call.onTexts, Function.update_apply] at h
      split at h
      · rename_i heq
        obtain rfl := Option.some.inj h
        exact .inr (heq ▸ rfl)
      · exact .inl (ih h)
    | remove id' =>
      simp only [Call.onTexts, Function.update_apply] at h
      split at h
      · cases h
      · exact .inl (ih h)

/-- **A score is well defined without the clamp**, in an index that any calls led to that inserted
no blank text. -/
theorem score_well_defined (P : Platform ℝ) (hln : P.ln = Real.log) (calls : List Call)
    (htexts : ∀ id text, Call.insert id text ∈ calls → trim text ≠ "") :
    let index := after P calls
    (∀ term, (index.documentFrequency term).getD 0 ≤ index.documentCount ∧
      (1 : ℝ) < index.idfArgument term) ∧
    (index.documentCount ≠ 0 → (0 : ℝ) < index.averageLength) ∧
    ∀ queryTerms, queryTerms ≠ ∅ →
      0 < index.upperBound P queryTerms ∧
      ∀ id,
        (∀ counts, index.termFrequency id = some counts →
          let length := (index.documentLength id).getD 0
          let numerator := index.numerator P counts length queryTerms
          index.documentCount ≠ 0 ∧
          (∀ term, (0 : ℝ) < index.denominator counts length term) ∧
          0 ≤ numerator ∧ numerator < index.upperBound P queryTerms ∧
          index.score P id queryTerms = numerator / index.upperBound P queryTerms) ∧
        0 ≤ index.score P id queryTerms ∧ index.score P id queryTerms < 1 ∧
        (index.score P id queryTerms = 0 ↔ ∀ text, live calls id = some text →
          ∀ term ∈ queryTerms, term ∉ tokenize P text) := by
  intro index
  obtain ⟨⟨ids, h⟩, -⟩ := represents_after_calls P calls
  have hlog : ∀ x : ℝ, 1 < x → 0 < P.ln x := fun x hx => hln ▸ Real.log_pos hx
  have hdocs : ∀ id tokens, corpus P (live calls) id = some tokens → tokens ≠ [] := by
    intro id tokens hdoc
    obtain ⟨text, htext, rfl⟩ := Option.map_eq_some_iff.mp hdoc
    exact tokenize_ne_nil_of_nonblank P (htexts id text (mem_of_live htext))
  refine ⟨fun term => ⟨h.documentFrequency_le term, one_lt_idfArgument h term⟩,
    fun hcount => averageLength_pos h hcount hdocs, fun queryTerms hne =>
      ⟨upperBound_pos hlog h hne, fun id => ?_⟩⟩
  have hcorpus : corpus P (live calls) id = (live calls id).map (tokenize P) := rfl
  cases hlive : live calls id with
  | none =>
    rw [hlive, Option.map_none] at hcorpus
    simp [index, score_absent h hcorpus, h.termFrequency, hcorpus]
  | some text =>
    rw [hlive, Option.map_some] at hcorpus
    have hbounds := score_mem_Ico hlog h hcorpus hne
    refine ⟨fun counts hcounts => ?_, hbounds.1, hbounds.2, ?_⟩
    · rw [h.termFrequency, hcorpus, Option.map_some, Option.some.injEq] at hcounts
      subst hcounts
      simp only [index, h.documentLength, hcorpus, Option.map_some, Option.getD_some]
      exact ⟨documentCount_ne_zero h hcorpus, denominator_pos _ _ _, numerator_nonneg hlog h,
        numerator_lt_upperBound hlog h hne, score_eq_div hlog h hcorpus hne⟩
    · rw [score_eq_zero_iff hlog h hcorpus hne]
      simp only [Option.some.injEq, forall_eq']

namespace Sample

/-- The real numbers. No id is derived, so nothing is hashed. -/
noncomputable def reals : Platform ℝ := ⟨Real.log, String.toLower, fun _ _ => Vector.replicate 16 0⟩

/-- A document that is inserted, replaced and removed, and another one. -/
def calls : List Call :=
  [.insert ⟨Vector.replicate 16 0⟩ "a", .insert ⟨Vector.replicate 16 0⟩ "b a b",
    .insert ⟨Vector.replicate 16 1⟩ "b c", .remove ⟨Vector.replicate 16 0⟩]

theorem nonblank_calls : ∀ id text, Call.insert id text ∈ calls → trim text ≠ "" := by
  intro id text h
  simp only [calls, List.mem_cons, Call.insert.injEq, reduceCtorEq, List.not_mem_nil,
    or_false] at h
  rcases h with ⟨-, rfl⟩ | ⟨-, rfl⟩ | ⟨-, rfl⟩ <;> decide

end Sample

/-- The document that is left is scored within bounds. -/
theorem score_well_defined_left :
    0 ≤ (after Sample.reals Sample.calls).score Sample.reals ⟨Vector.replicate 16 1⟩ {"b", "d"} ∧
      (after Sample.reals Sample.calls).score Sample.reals ⟨Vector.replicate 16 1⟩ {"b", "d"} < 1 :=
  have h := (score_well_defined Sample.reals rfl Sample.calls Sample.nonblank_calls).2.2 {"b", "d"}
    (by simp)
  ⟨(h.2 _).2.1, (h.2 _).2.2.1⟩

end Semisweet.Core.Bm25Index
