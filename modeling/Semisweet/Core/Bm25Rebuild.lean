import Semisweet.Core.Bm25

/-!
# The BM25 statistics, rebuilt

The numbers of a `Bm25Index` are adjusted by every `insert` and `remove`
(`src/backends/vector_memory.rs`). A number that is off by one stays off, and shifts the
weights and the average length of every later score.

What the calls leave alive is a text for each id, the last one inserted and not removed
since (`live`). The statistics of a corpus determine the index, once no frequency is kept
at zero (`Represents.eq`), so the index that any calls lead to is the one into which the
live texts are inserted afresh.

`remove` takes from unsigned counters. The checked calls refuse to take more than there is;
they never do (`runChecked_eq`), which is a fact about the index they run on.

## What is proved

* `rebuild_spec` — the index after any calls is the rebuilt one, its numbers are those of
  the live texts, and no subtraction goes below zero.
-/

namespace Semisweet.Core.Bm25Index

open Semisweet.Foundations

variable {R : Type} (P : Platform R)

/-! ### Calls -/

/-- A call on an index. -/
inductive Call where
  /-- `Bm25Index::insert`. -/
  | insert (id : EntryId) (text : String)
  /-- `Bm25Index::remove`. -/
  | remove (id : EntryId)

/-- The call on an index. -/
def Call.run (index : Bm25Index) : Call → Bm25Index
  | .insert id text => index.insert P id text
  | .remove id => index.remove id

/-- The call on the live texts. -/
def Call.onTexts (texts : EntryId → Option String) : Call → EntryId → Option String
  | .insert id text => Function.update texts id (some text)
  | .remove id => Function.update texts id none

/-- The index that calls lead to from a new one. -/
def after (calls : List Call) : Bm25Index := calls.foldl (Call.run P) new

/-- **The live documents**: the text last inserted under each id, unless it was removed since. -/
def live (calls : List Call) : EntryId → Option String := calls.foldl Call.onTexts fun _ => none

/-- A new index into which documents are inserted. -/
def rebuild (docs : List (EntryId × String)) : Bm25Index :=
  docs.foldl (fun index doc => index.insert P doc.1 doc.2) new

/-! ### Checked subtraction -/

/-- `usize::checked_sub`. -/
def checkedSub (a b : ℕ) : Option ℕ := if b ≤ a then some (a - b) else none

/-- `dropTerm`, where the counter must not go below zero. -/
def dropTermChecked (df : String → Option ℕ) (term : String) : Option (String → Option ℕ) :=
  match df term with
  | some count =>
    (checkedSub count 1).map fun count =>
      if count = 0 then Function.update df term none else Function.update df term (some count)
  | none => some df

/-- `Bm25Index::remove`, where no subtraction must go below zero. -/
def removeChecked (self : Bm25Index) (id : EntryId) : Option Bm25Index :=
  match self.termFrequency id with
  | none => some self
  | some counts => do
    let documentFrequency ← counts.keys.foldlM dropTermChecked self.documentFrequency
    let totalLength ← checkedSub self.totalLength ((self.documentLength id).getD 0)
    let documentCount ← checkedSub self.documentCount 1
    some
      { documentFrequency := documentFrequency
        termFrequency := Function.update self.termFrequency id none
        documentLength := Function.update self.documentLength id none
        totalLength := totalLength
        documentCount := documentCount }

/-- What `insert` does once the id has no document. -/
def insertNew (self : Bm25Index) (id : EntryId) (text : String) : Bm25Index :=
  let tokens := tokenize P text
  let counts := termCounts tokens
  { documentFrequency := counts.keys.foldl addTerm self.documentFrequency
    termFrequency := Function.update self.termFrequency id (some counts)
    documentLength := Function.update self.documentLength id (some tokens.length)
    totalLength := self.totalLength + tokens.length
    documentCount := self.documentCount + 1 }

theorem insert_eq_insertNew (self : Bm25Index) (id : EntryId) (text : String) :
    self.insert P id text = (self.remove id).insertNew P id text :=
  rfl

/-- The call with checked subtractions. -/
def Call.runChecked (index : Bm25Index) : Call → Option Bm25Index
  | .insert id text => (index.removeChecked id).map fun index => index.insertNew P id text
  | .remove id => index.removeChecked id

/-! ### No frequency is kept at zero -/

/-- A term that no document has is not kept. -/
def NoZero (df : String → Option ℕ) : Prop := ∀ term, df term ≠ some 0

theorem noZero_addTerm {df : String → Option ℕ} (h : NoZero df) (t : String) :
    NoZero (addTerm df t) := by
  intro term
  by_cases ht : term = t
  · subst ht
    simp [addTerm]
  · simpa [addTerm, ht] using h term

theorem noZero_dropTerm {df : String → Option ℕ} (h : NoZero df) (t : String) :
    NoZero (dropTerm df t) := by
  intro term
  unfold dropTerm
  cases hd : df t with
  | none => exact h term
  | some count =>
    dsimp only
    by_cases ht : term = t
    · subst ht
      split <;> simp_all
    · split <;> simpa [ht] using h term

theorem noZero_foldl {f : (String → Option ℕ) → String → String → Option ℕ}
    (hf : ∀ df t, NoZero df → NoZero (f df t)) (terms : List String) {df : String → Option ℕ}
    (h : NoZero df) : NoZero (terms.foldl f df) := by
  induction terms generalizing df with
  | nil => exact h
  | cons t terms ih => exact ih (hf df t h)

theorem noZero_remove {index : Bm25Index} (h : NoZero index.documentFrequency) (id : EntryId) :
    NoZero (index.remove id).documentFrequency := by
  unfold remove
  cases index.termFrequency id with
  | none => exact h
  | some counts => exact noZero_foldl (fun _ t h => noZero_dropTerm h t) _ h

theorem noZero_insert {index : Bm25Index} (h : NoZero index.documentFrequency) (id : EntryId)
    (text : String) : NoZero (index.insert P id text).documentFrequency :=
  noZero_foldl (fun _ t h => noZero_addTerm h t) _ (noZero_remove h id)

/-! ### The statistics determine the index -/

section Represents

variable {P} {index index' : Bm25Index} {docs : EntryId → Option (List String)}
  {ids ids' : Finset EntryId}

/-- **A corpus has one index**, if no frequency is kept at zero. -/
theorem Represents.eq (h : Represents index docs ids) (h' : Represents index' docs ids')
    (hz : NoZero index.documentFrequency) (hz' : NoZero index'.documentFrequency) :
    index = index' := by
  obtain rfl : ids = ids' := by
    ext id
    rw [h.mem_ids, h'.mem_ids]
  have hfrequency : index.documentFrequency = index'.documentFrequency := by
    funext term
    have hget := (h.documentFrequency term).trans (h'.documentFrequency term).symm
    have hne := hz term
    have hne' := hz' term
    cases hd : index.documentFrequency term <;> cases hd' : index'.documentFrequency term <;>
      simp_all
  have hterms : index.termFrequency = index'.termFrequency := by
    funext id
    rw [h.termFrequency, h'.termFrequency]
  have hlengths : index.documentLength = index'.documentLength := by
    funext id
    rw [h.documentLength, h'.documentLength]
  have htotal := h.totalLength.trans h'.totalLength.symm
  have hcount := h.documentCount.trans h'.documentCount.symm
  cases index
  cases index'
  simp only at hfrequency hterms hlengths htotal hcount
  rw [hfrequency, hterms, hlengths, htotal, hcount]

/-- The terms of a document are dropped without going below zero. -/
theorem foldlM_dropTermChecked {df : String → Option ℕ} (h : NoZero df) (terms : List String) :
    terms.foldlM dropTermChecked df = some (terms.foldl dropTerm df) := by
  induction terms generalizing df with
  | nil => rfl
  | cons t terms ih =>
    have hstep : dropTermChecked df t = some (dropTerm df t) := by
      unfold dropTermChecked dropTerm
      cases hd : df t with
      | none => rfl
      | some count =>
        have hpos : 1 ≤ count := Nat.one_le_iff_ne_zero.mpr fun hzero => h t (hzero ▸ hd)
        simp [checkedSub, hpos]
    rw [List.foldlM_cons, hstep]
    exact ih (noZero_dropTerm h t)

/-- **A removal never takes more than there is.** -/
theorem removeChecked_eq (h : Represents index docs ids) (hz : NoZero index.documentFrequency)
    (id : EntryId) : index.removeChecked id = some (index.remove id) := by
  unfold removeChecked remove
  cases hterms : index.termFrequency id with
  | none => rfl
  | some counts =>
    have hmem : id ∈ ids := by
      rw [h.mem_ids]
      intro hnone
      simp [h.termFrequency, hnone] at hterms
    have hlength : (index.documentLength id).getD 0 = (tokensOf docs id).length := by
      rw [h.documentLength, tokensOf]
      cases docs id <;> rfl
    have htotal : (index.documentLength id).getD 0 ≤ index.totalLength := by
      rw [hlength, h.totalLength]
      exact Finset.single_le_sum (f := fun id => (tokensOf docs id).length)
        (fun _ _ => Nat.zero_le _) hmem
    have hcount : 1 ≤ index.documentCount := by
      rw [h.documentCount]
      exact Finset.card_pos.mpr ⟨id, hmem⟩
    simp only [foldlM_dropTermChecked hz, checkedSub, if_pos htotal, if_pos hcount]
    rfl

end Represents

/-! ### Runs of calls -/

/-- The corpus of some texts. -/
def corpus (texts : EntryId → Option String) : EntryId → Option (List String) :=
  Option.map (tokenize P) ∘ texts

theorem corpus_update (texts : EntryId → Option String) (id : EntryId) (text : Option String) :
    corpus P (Function.update texts id text) =
      Function.update (corpus P texts) id (text.map (tokenize P)) :=
  Function.comp_update _ _ _ _

@[simp] theorem after_snoc (calls : List Call) (call : Call) :
    after P (calls ++ [call]) = call.run P (after P calls) := by
  simp [after]

@[simp] theorem live_snoc (calls : List Call) (call : Call) :
    live (calls ++ [call]) = call.onTexts (live calls) := by
  simp [live]

/-- A call keeps the statistics those of the live texts. -/
theorem represents_run {index : Bm25Index} {texts : EntryId → Option String} {ids : Finset EntryId}
    (h : Represents index (corpus P texts) ids) (call : Call) :
    ∃ ids', Represents (call.run P index) (corpus P (call.onTexts texts)) ids' := by
  cases call with
  | insert id text =>
    simp only [Call.run, Call.onTexts, corpus_update, Option.map_some]
    exact ⟨_, represents_insert P h id text⟩
  | remove id =>
    simp only [Call.run, Call.onTexts, corpus_update, Option.map_none]
    exact ⟨_, represents_remove h id⟩

theorem noZero_run {index : Bm25Index} (h : NoZero index.documentFrequency) (call : Call) :
    NoZero (call.run P index).documentFrequency := by
  cases call with
  | insert id text => exact noZero_insert P h id text
  | remove id => exact noZero_remove h id

/-- A call with checked subtractions does what the call does. -/
theorem runChecked_eq {index : Bm25Index} {docs : EntryId → Option (List String)}
    {ids : Finset EntryId} (h : Represents index docs ids) (hz : NoZero index.documentFrequency)
    (call : Call) : call.runChecked P index = some (call.run P index) := by
  cases call with
  | insert id text =>
    rw [Call.runChecked, removeChecked_eq h hz, Option.map_some, Call.run, insert_eq_insertNew]
  | remove id => exact removeChecked_eq h hz id

/-- **The index that calls lead to holds the statistics of the live texts.** -/
theorem represents_after_calls (calls : List Call) :
    (∃ ids, Represents (after P calls) (corpus P (live calls)) ids) ∧
      NoZero (after P calls).documentFrequency := by
  induction calls using List.reverseRecOn with
  | nil => exact ⟨⟨∅, represents_new⟩, fun term => by simp [after, new]⟩
  | append_singleton calls call ih =>
    obtain ⟨⟨ids, h⟩, hz⟩ := ih
    rw [after_snoc, live_snoc]
    exact ⟨represents_run P h call, noZero_run P hz call⟩

/-- **Calls with checked subtractions never fail.** -/
theorem foldlM_runChecked (calls : List Call) :
    calls.foldlM (Call.runChecked P) new = some (after P calls) := by
  induction calls using List.reverseRecOn with
  | nil => rfl
  | append_singleton calls call ih =>
    obtain ⟨⟨ids, h⟩, hz⟩ := represents_after_calls P calls
    rw [List.foldlM_append, ih, after_snoc]
    simp only [Option.bind_eq_bind, Option.bind_some, List.foldlM_cons, List.foldlM_nil,
      runChecked_eq P h hz call]
    rfl

/-- Calls that leave the same texts lead to the same index. -/
theorem after_eq_of_live_eq {calls calls' : List Call} (h : live calls = live calls') :
    after P calls = after P calls' := by
  obtain ⟨⟨ids, hr⟩, hz⟩ := represents_after_calls P calls
  obtain ⟨⟨ids', hr'⟩, hz'⟩ := represents_after_calls P calls'
  rw [← h] at hr'
  exact hr.eq hr' hz hz'

/-- Documents of different ids that are inserted are all live. -/
theorem live_inserts_iff {docs : List (EntryId × String)} (hnodup : (docs.map Prod.fst).Nodup)
    {id : EntryId} {text : String} :
    live (docs.map fun doc => .insert doc.1 doc.2) id = some text ↔ (id, text) ∈ docs := by
  induction docs using List.reverseRecOn with
  | nil => simp [live]
  | append_singleton docs doc ih =>
    rw [List.map_append, List.nodup_append'] at hnodup
    obtain ⟨hdocs, -, hnew⟩ := hnodup
    rw [List.map_append, List.map_singleton, live_snoc, Call.onTexts, List.mem_append,
      List.mem_singleton]
    obtain ⟨id', text'⟩ := doc
    dsimp only at hnew ⊢
    by_cases hid : id = id'
    · subst hid
      have hno : (id, text) ∉ docs := fun hmem =>
        hnew (List.mem_map_of_mem hmem) (by simp)
      simp [hno, eq_comm]
    · rw [Function.update_of_ne hid, ih hdocs]
      simp [hid]

/-- The live texts can be gone through. -/
theorem exists_enumerates_live (calls : List Call) : ∃ docs, Enumerates docs (live calls) := by
  induction calls using List.reverseRecOn with
  | nil => exact ⟨[], .empty⟩
  | append_singleton calls call ih =>
    obtain ⟨docs, h⟩ := ih
    rw [live_snoc]
    cases call with
    | insert id text => exact h.exists_update id (some text)
    | remove id => exact h.exists_update id none

/-! ### The numbers -/

section Numbers

variable {P} {index : Bm25Index} {texts : EntryId → Option String} {ids : Finset EntryId}
  {docs : List (EntryId × String)}

theorem tokensOf_corpus (hdocs : Enumerates docs texts) {doc : EntryId × String}
    (hdoc : doc ∈ docs) : tokensOf (corpus P texts) doc.1 = tokenize P doc.2 := by
  rw [tokensOf, corpus, Function.comp_apply, (hdocs.mem_iff doc.1 doc.2).mp hdoc]
  rfl

theorem Represents.ids_eq (h : Represents index (corpus P texts) ids)
    (hdocs : Enumerates docs texts) : ids = (docs.map Prod.fst).toFinset := by
  ext id
  rw [h.mem_ids, corpus, Function.comp_apply, List.mem_toFinset, List.mem_map]
  cases ht : texts id with
  | none =>
    simp only [Option.map_none, ne_eq, not_true_eq_false, false_iff]
    rintro ⟨doc, hdoc, rfl⟩
    rw [(hdocs.mem_iff doc.1 doc.2).mp hdoc] at ht
    cases ht
  | some text =>
    simp only [Option.map_some, ne_eq, reduceCtorEq, not_false_eq_true, true_iff]
    exact ⟨(id, text), (hdocs.mem_iff id text).mpr ht, rfl⟩

/-- The number of documents is the number of live texts. -/
theorem Represents.documentCount_eq (h : Represents index (corpus P texts) ids)
    (hdocs : Enumerates docs texts) : index.documentCount = docs.length := by
  rw [h.documentCount, h.ids_eq hdocs, List.toFinset_card_of_nodup hdocs.nodup, List.length_map]

/-- The length of the corpus is the sum of the lengths. -/
theorem Represents.totalLength_eq (h : Represents index (corpus P texts) ids)
    (hdocs : Enumerates docs texts) :
    index.totalLength = (docs.map fun doc => (tokenize P doc.2).length).sum := by
  rw [h.totalLength, h.ids_eq hdocs, List.sum_toFinset _ hdocs.nodup, List.map_map]
  congr 1
  refine List.map_congr_left fun doc hdoc => ?_
  rw [Function.comp_apply, tokensOf_corpus hdocs hdoc]

/-- The frequency of a term is in how many live texts it occurs, and is not kept if it occurs in
none. -/
theorem Represents.documentFrequency_eq (h : Represents index (corpus P texts) ids)
    (hz : NoZero index.documentFrequency) (hdocs : Enumerates docs texts) (term : String) :
    index.documentFrequency term =
      let count := docs.countP fun doc => decide (term ∈ tokenize P doc.2)
      if count = 0 then none else some count := by
  have hcount : (index.documentFrequency term).getD 0 =
      docs.countP fun doc => decide (term ∈ tokenize P doc.2) := by
    have hset : ids.filter (fun id => term ∈ tokensOf (corpus P texts) id) =
        ((docs.filter fun doc => decide (term ∈ tokenize P doc.2)).map Prod.fst).toFinset := by
      ext id
      simp only [h.ids_eq hdocs, Finset.mem_filter, List.mem_toFinset, List.mem_map,
        List.mem_filter, decide_eq_true_eq]
      constructor
      · rintro ⟨⟨doc, hdoc, rfl⟩, hterm⟩
        exact ⟨doc, ⟨hdoc, tokensOf_corpus hdocs hdoc ▸ hterm⟩, rfl⟩
      · rintro ⟨doc, ⟨hdoc, hterm⟩, rfl⟩
        exact ⟨⟨doc, hdoc, rfl⟩, tokensOf_corpus hdocs hdoc ▸ hterm⟩
    rw [h.documentFrequency, hset,
      List.toFinset_card_of_nodup (hdocs.nodup.sublist (List.filter_sublist.map _)),
      List.length_map, List.countP_eq_length_filter]
  have hne := hz term
  cases hd : index.documentFrequency term with
  | none => simp_all
  | some count =>
    rw [hd, Option.getD_some] at hcount
    subst hcount
    simp_all

end Numbers

/-- **Incremental statistics equal a rebuild**: any calls lead to the index into which the live
documents are inserted afresh, in whatever order; its numbers are those of these documents; and
no subtraction goes below zero on the way. -/
theorem rebuild_spec (calls : List Call) :
    (∃ docs, Enumerates docs (live calls)) ∧
      calls.foldlM (Call.runChecked P) new = some (after P calls) ∧
        ∀ docs, Enumerates docs (live calls) →
          after P calls = rebuild P docs ∧
          (∀ term, (after P calls).documentFrequency term =
            let count := docs.countP fun doc => decide (term ∈ tokenize P doc.2)
            if count = 0 then none else some count) ∧
          (∀ id, (after P calls).termFrequency id =
            (live calls id).map fun text => termCounts (tokenize P text)) ∧
          (∀ id, (after P calls).documentLength id =
            (live calls id).map fun text => (tokenize P text).length) ∧
          (after P calls).totalLength = (docs.map fun doc => (tokenize P doc.2).length).sum ∧
          (after P calls).documentCount = docs.length := by
  obtain ⟨⟨ids, h⟩, hz⟩ := represents_after_calls P calls
  refine ⟨exists_enumerates_live calls, foldlM_runChecked P calls, fun docs hdocs =>
    ⟨?_, h.documentFrequency_eq hz hdocs, fun id => ?_, fun id => ?_, h.totalLength_eq hdocs,
      h.documentCount_eq hdocs⟩⟩
  · have hlive : live (docs.map fun doc => .insert doc.1 doc.2) = live calls := by
      funext id
      refine Option.ext fun text => ?_
      rw [live_inserts_iff hdocs.nodup, hdocs.mem_iff]
    rw [← after_eq_of_live_eq P hlive, after, rebuild, List.foldl_map]
    rfl
  · rw [h.termFrequency, corpus, Function.comp_apply, Option.map_map]
    rfl
  · rw [h.documentLength, corpus, Function.comp_apply, Option.map_map]
    rfl

end Semisweet.Core.Bm25Index
