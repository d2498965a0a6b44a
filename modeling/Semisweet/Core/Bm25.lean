import Semisweet.Core.VectorMemory
import Semisweet.Foundations.Words
import Mathlib.Algebra.BigOperators.Ring.Finset
import Mathlib.Algebra.Order.BigOperators.Group.Finset
import Mathlib.Tactic.Positivity
import Mathlib.Tactic.FieldSimp

/-!
# The BM25 index and its corpus

`Bm25Index` (`src/backends/vector_memory.rs`) keeps statistics of a corpus: in how many
documents a term occurs, the term counts and the length of each document, how many
documents there are and how long they are together. It never sees the corpus again; an
insertion and a removal adjust the numbers.

Here the corpus is given as a map from ids to the tokens of the documents, and
`Represents` says that an index holds its statistics. `represents_insert` and
`represents_remove` say that the adjustments are right, whatever was there before.
-/

namespace Semisweet.Core.Bm25Index

open Semisweet.Foundations

variable {R : Type} (P : Platform R)

/-! ### Counting tokens -/

theorem lookup_countToken (counts : TermCounts) (token term : String) :
    ((countToken counts token).lookup term).getD 0 =
      (counts.lookup term).getD 0 + if token = term then 1 else 0 := by
  unfold countToken
  by_cases h : token = term
  · subst h
    rw [AList.lookup_insert]
    simp
  · rw [AList.lookup_insert_ne (Ne.symm h)]
    simp [h]

/-- The count of a term over a fold of its tokens. -/
theorem lookup_foldl_countToken (tokens : List String) (counts : TermCounts) (term : String) :
    ((tokens.foldl countToken counts).lookup term).getD 0 =
      (counts.lookup term).getD 0 + tokens.count term := by
  induction tokens generalizing counts with
  | nil => simp
  | cons token tokens ih =>
    rw [List.foldl_cons, ih, lookup_countToken, List.count_cons]
    by_cases h : token = term
    · simp [h]
      omega
    · simp [h]

/-- **The term counts count the tokens.** -/
theorem lookup_termCounts (tokens : List String) (term : String) :
    ((termCounts tokens).lookup term).getD 0 = tokens.count term := by
  rw [termCounts, lookup_foldl_countToken]
  simp

theorem mem_keys_foldl_countToken (tokens : List String) (counts : TermCounts) (term : String) :
    term ∈ (tokens.foldl countToken counts).keys ↔ term ∈ counts.keys ∨ term ∈ tokens := by
  induction tokens generalizing counts with
  | nil => simp
  | cons token tokens ih =>
    rw [List.foldl_cons, ih, countToken, ← AList.mem_keys, AList.mem_insert, ← AList.mem_keys,
      List.mem_cons]
    tauto

/-- The terms counted are the tokens. -/
theorem mem_keys_termCounts (tokens : List String) (term : String) :
    term ∈ (termCounts tokens).keys ↔ term ∈ tokens := by
  rw [termCounts, mem_keys_foldl_countToken]
  simp

/-! ### Document frequencies -/

theorem foldl_addTerm {terms : List String} (hnodup : terms.Nodup) (df : String → Option ℕ)
    (term : String) :
    ((terms.foldl addTerm df) term).getD 0 = (df term).getD 0 + if term ∈ terms then 1 else 0 := by
  induction terms generalizing df with
  | nil => simp
  | cons t terms ih =>
    obtain ⟨ht, hrest⟩ := List.nodup_cons.mp hnodup
    rw [List.foldl_cons, ih hrest, addTerm]
    by_cases h : term = t
    · subst h
      simp [ht]
    · simp [h]

theorem dropTerm_getD (df : String → Option ℕ) (t term : String) :
    (dropTerm df t term).getD 0 = (df term).getD 0 - if term = t then 1 else 0 := by
  unfold dropTerm
  by_cases h : term = t
  · subst h
    cases hd : df term with
    | none => simp [hd]
    | some count =>
      simp only
      split
      · rename_i hzero
        simp [hzero]
      · simp
  · cases hd : df t with
    | none => simp [h]
    | some count =>
      simp only
      split <;> simp [h]

theorem foldl_dropTerm {terms : List String} (hnodup : terms.Nodup) (df : String → Option ℕ)
    (term : String) :
    ((terms.foldl dropTerm df) term).getD 0 = (df term).getD 0 - if term ∈ terms then 1 else 0 := by
  induction terms generalizing df with
  | nil => simp
  | cons t terms ih =>
    obtain ⟨ht, hrest⟩ := List.nodup_cons.mp hnodup
    rw [List.foldl_cons, ih hrest, dropTerm_getD]
    by_cases h : term = t
    · subst h
      simp [ht]
    · simp [h]

/-! ### The corpus -/

/-- The tokens of a document, if there is one. -/
def tokensOf (docs : EntryId → Option (List String)) (id : EntryId) : List String :=
  (docs id).getD []

/-- The index holds the statistics of the corpus `docs`, whose documents are `ids`. -/
structure Represents (index : Bm25Index) (docs : EntryId → Option (List String))
    (ids : Finset EntryId) : Prop where
  /-- The documents of the corpus. -/
  mem_ids : ∀ id, id ∈ ids ↔ docs id ≠ none
  /-- Each document has its term counts. -/
  termFrequency : ∀ id, index.termFrequency id = (docs id).map termCounts
  /-- Each document has its length. -/
  documentLength : ∀ id, index.documentLength id = (docs id).map List.length
  /-- The number of documents. -/
  documentCount : index.documentCount = ids.card
  /-- The sum of their lengths. -/
  totalLength : index.totalLength = ∑ id ∈ ids, (tokensOf docs id).length
  /-- In how many of them a term occurs. -/
  documentFrequency : ∀ term, (index.documentFrequency term).getD 0 =
    (ids.filter fun id => term ∈ tokensOf docs id).card

theorem represents_new : Represents new (fun _ => none) ∅ := by
  constructor <;> simp [new]

variable {index : Bm25Index} {docs : EntryId → Option (List String)} {ids : Finset EntryId}

/-- Dropping a document from the corpus leaves the others. -/
theorem tokensOf_update_of_ne {id id' : EntryId} (h : id' ≠ id) (doc : Option (List String)) :
    tokensOf (Function.update docs id doc) id' = tokensOf docs id' := by
  rw [tokensOf, Function.update_of_ne h, tokensOf]

/-- **A removal takes a document out of the corpus.** -/
theorem represents_remove (h : Represents index docs ids) (id : EntryId) :
    Represents (index.remove id) (Function.update docs id none) (ids.erase id) := by
  unfold remove
  cases hd : docs id with
  | none =>
    have hno : id ∉ ids := fun hmem => (h.mem_ids id).mp hmem hd
    simp only [h.termFrequency id, hd, Option.map_none]
    rw [← hd, Function.update_eq_self, Finset.erase_eq_of_notMem hno]
    exact h
  | some tokens =>
    have hmem : id ∈ ids := (h.mem_ids id).mpr (by simp [hd])
    have htokens : tokensOf docs id = tokens := by rw [tokensOf, hd, Option.getD_some]
    -- The other documents are as they were.
    have hrest : ∀ id' ∈ ids.erase id,
        tokensOf (Function.update docs id none) id' = tokensOf docs id' :=
      fun id' hid' => tokensOf_update_of_ne (Finset.ne_of_mem_erase hid') none
    simp only [h.termFrequency id, hd, Option.map_some]
    constructor
    · intro id'
      by_cases hid : id' = id <;> simp [hid, h.mem_ids]
    · intro id'
      by_cases hid : id' = id <;> simp [hid, h.termFrequency]
    · intro id'
      by_cases hid : id' = id <;> simp [hid, h.documentLength]
    · rw [h.documentCount, Finset.card_erase_of_mem hmem]
    · rw [h.totalLength, h.documentLength, hd, Finset.sum_congr rfl fun id' hid' =>
        congrArg List.length (hrest id' hid'), ← Finset.add_sum_erase ids _ hmem, htokens]
      simp
    · intro term
      have hfilter : ((ids.erase id).filter fun id' =>
          term ∈ tokensOf (Function.update docs id none) id') =
            (ids.filter fun id' => term ∈ tokensOf docs id').erase id := by
        rw [← Finset.filter_erase]
        exact Finset.filter_congr fun id' hid' => by rw [hrest id' hid']
      rw [foldl_dropTerm (AList.keys_nodup _), h.documentFrequency, hfilter]
      simp only [mem_keys_termCounts]
      split
      · rename_i hterm
        rw [Finset.card_erase_of_mem]
        simp [hmem, htokens, hterm]
      · rename_i hterm
        rw [Finset.erase_eq_of_notMem, Nat.sub_zero]
        simp [htokens, hterm]

/-- **An insertion puts a document into the corpus**, in place of the one it has, if any. -/
theorem represents_insert (h : Represents index docs ids) (id : EntryId) (text : String) :
    Represents (index.insert P id text) (Function.update docs id (some (tokenize P text)))
      (Insert.insert id (ids.erase id)) := by
  have hr := represents_remove h id
  have hno : id ∉ ids.erase id := Finset.notMem_erase id ids
  have htokens : tokensOf (Function.update docs id (some (tokenize P text))) id =
      tokenize P text := by
    rw [tokensOf, Function.update_self, Option.getD_some]
  have hrest : ∀ id' ∈ ids.erase id,
      tokensOf (Function.update docs id (some (tokenize P text))) id' =
        tokensOf (Function.update docs id none) id' := fun id' hid' => by
    rw [tokensOf_update_of_ne (Finset.ne_of_mem_erase hid'),
      tokensOf_update_of_ne (Finset.ne_of_mem_erase hid')]
  constructor
  · intro id'
    by_cases hid : id' = id <;> simp [hid, h.mem_ids]
  · intro id'
    by_cases hid : id' = id <;> simp [insert, hid, hr.termFrequency]
  · intro id'
    by_cases hid : id' = id <;> simp [insert, hid, hr.documentLength]
  · simp only [insert]
    rw [hr.documentCount, Finset.card_insert_of_notMem hno]
  · simp only [insert]
    rw [hr.totalLength, Finset.sum_insert hno, htokens, Finset.sum_congr rfl fun id' hid' =>
      congrArg List.length (hrest id' hid'), Nat.add_comm]
  · intro term
    simp only [insert]
    have hfilter : ((ids.erase id).filter fun id' =>
        term ∈ tokensOf (Function.update docs id (some (tokenize P text))) id') =
          (ids.erase id).filter fun id' => term ∈ tokensOf (Function.update docs id none) id' :=
      Finset.filter_congr fun id' hid' => by rw [hrest id' hid']
    rw [foldl_addTerm (AList.keys_nodup _), hr.documentFrequency, Finset.filter_insert, hfilter,
      htokens]
    simp only [mem_keys_termCounts]
    split
    · rename_i hterm
      rw [Finset.card_insert_of_notMem]
      simp
    · rfl

/-! ### Tokens of a context -/

/-- Text that is not blank has a token. -/
theorem tokenize_ne_nil_of_nonblank {text : String} (h : trim text ≠ "") : tokenize P text ≠ [] := by
  intro hnil
  rw [tokenize, List.map_eq_nil_iff, splitWhitespace, List.map_eq_nil_iff] at hnil
  exact h (trim_eq_empty_iff.mpr (words_eq_nil_iff.mp hnil))

/-- A context has a token. -/
theorem tokenize_ne_nil (context : Context) : tokenize P context.asStr ≠ [] := by
  refine tokenize_ne_nil_of_nonblank P ?_
  rw [Context.asStr, context.text.trimmed]
  exact context.text.nonempty

/-- The corpus of the contexts that are stored. -/
def documents (contexts : EntryId → Option Context) : EntryId → Option (List String) :=
  Option.map (fun c => tokenize P c.asStr) ∘ contexts

theorem documents_update (contexts : EntryId → Option Context) (id : EntryId)
    (context : Option Context) :
    documents P (Function.update contexts id context) =
      Function.update (documents P contexts) id (context.map fun c => tokenize P c.asStr) :=
  Function.comp_update _ _ _ _

/-! ### The score of a document against its own terms -/

variable [Field R] [LinearOrder R] [IsStrictOrderedRing R]

/-- What a document's length adds to the count of each of its terms:
`k1 (1 - b + b length / average)`. -/
def lengthPenalty (index : Bm25Index) (length : ℕ) : R :=
  k1 * (1 - b + b * length / (index.totalLength / index.documentCount))

omit [LinearOrder R] [IsStrictOrderedRing R] in
theorem idf_eq (index : Bm25Index) (term : String) :
    index.idf P term = P.ln (index.idfArgument term) :=
  rfl

section OwnScore

variable {P} {id : EntryId} {tokens : List String}

omit [Field R] [LinearOrder R] [IsStrictOrderedRing R] in
/-- A corpus with a document that is not empty has a length. -/
theorem Represents.pos (h : Represents index docs ids) (hdoc : docs id = some tokens)
    (hne : tokens ≠ []) : 0 < index.documentCount ∧ 0 < index.totalLength := by
  have hmem : id ∈ ids := (h.mem_ids id).mpr (by simp [hdoc])
  have hlen : 0 < (tokensOf docs id).length := by
    rw [tokensOf, hdoc, Option.getD_some]
    exact List.length_pos_iff.mpr hne
  constructor
  · rw [h.documentCount]
    exact Finset.card_pos.mpr ⟨id, hmem⟩
  · rw [h.totalLength]
    exact hlen.trans_le
      (Finset.single_le_sum (f := fun i => (tokensOf docs i).length)
        (fun _ _ => Nat.zero_le _) hmem)

omit [Field R] [LinearOrder R] [IsStrictOrderedRing R] in
/-- No more documents have a term than there are. -/
theorem Represents.documentFrequency_le (h : Represents index docs ids) (term : String) :
    (index.documentFrequency term).getD 0 ≤ index.documentCount := by
  rw [h.documentFrequency, h.documentCount]
  exact Finset.card_filter_le _ _

/-- So the logarithm is of a number above 1. -/
theorem one_lt_idfArgument (h : Represents index docs ids) (term : String) :
    (1 : R) < index.idfArgument term := by
  have hle : (((index.documentFrequency term).getD 0 : ℕ) : R) ≤ index.documentCount := by
    exact_mod_cast h.documentFrequency_le term
  have hnum : (0 : R) < index.documentCount - ((index.documentFrequency term).getD 0 : ℕ) + 1 / 2 :=
    by linarith [one_half_pos (α := R)]
  have hden : (0 : R) < ((index.documentFrequency term).getD 0 : ℕ) + 1 / 2 := by positivity
  rw [idfArgument]
  linarith [div_pos hnum hden]

/-- **Every term has a positive weight.** -/
theorem idf_pos (hln : ∀ x : R, 1 < x → 0 < P.ln x) (h : Represents index docs ids)
    (term : String) :
    0 < index.idf P term := by
  rw [idf_eq]
  exact hln _ (one_lt_idfArgument h term)

/-- The length of a document adds something to each count. -/
theorem lengthPenalty_pos (index : Bm25Index) (length : ℕ) :
    (0 : R) < index.lengthPenalty length := by
  have hb : (0 : R) < 1 - b := by
    unfold b
    norm_num
  have hk : (0 : R) < k1 := by
    unfold k1
    norm_num
  have hrest : (0 : R) ≤ b * length / (index.totalLength / index.documentCount) := by
    unfold b
    positivity
  exact mul_pos hk (by linarith)

/-- **The own score** is a mean of `count / (count + penalty)` over the terms, with weights. -/
theorem score_own (h : Represents index docs ids) (hdoc : docs id = some tokens)
    (hne : tokens ≠ []) (hpos : 0 < ∑ t ∈ tokens.toFinset, index.idf P t * (k1 + 1)) :
    index.score P id tokens.toFinset =
      max 0 (min 1 ((∑ t ∈ tokens.toFinset, index.idf P t * (tokens.count t * (k1 + 1)) /
        (tokens.count t + index.lengthPenalty tokens.length)) /
          ∑ t ∈ tokens.toFinset, index.idf P t * (k1 + 1))) := by
  have hcount : index.documentCount ≠ 0 := Nat.ne_of_gt (h.pos hdoc hne).1
  have hterms : tokens.toFinset ≠ ∅ := by simpa using hne
  have hsum : ∀ t ∈ tokens.toFinset, (0 : R) < tokens.count t := by
    intro t ht
    exact_mod_cast List.count_pos_iff.mpr (List.mem_toFinset.mp ht)
  rw [score, h.termFrequency, hdoc, h.documentLength, hdoc]
  simp only [Option.map_some, Option.getD_some, scoreDocument, hcount, hterms, or_self, if_false,
    lookup_termCounts, if_neg (not_le.mpr hpos)]
  rw [Finset.sum_congr rfl fun t ht => if_pos (hsum t ht)]
  rfl

theorem weight_pos (hln : ∀ x : R, 1 < x → 0 < P.ln x) (h : Represents index docs ids)
    (t : String) : 0 < index.idf P t * (k1 + 1) := by
  have hk : (0 : R) < k1 + 1 := by
    unfold k1
    positivity
  exact mul_pos (idf_pos hln h t) hk

/-- The weights of a document's terms add up to something. -/
theorem sum_weights_pos (hln : ∀ x : R, 1 < x → 0 < P.ln x) (h : Represents index docs ids)
    (hne : tokens ≠ []) : 0 < ∑ t ∈ tokens.toFinset, index.idf P t * (k1 + 1) :=
  Finset.sum_pos (fun t _ => weight_pos hln h t) (List.toFinset_nonempty_iff tokens |>.mpr hne)

theorem share_pos (hln : ∀ x : R, 1 < x → 0 < P.ln x) (h : Represents index docs ids) (t : String)
    (length count : ℕ) :
    0 < index.idf P t * (k1 + 1) / (count + index.lengthPenalty length) := by
  have hpenalty := lengthPenalty_pos (R := R) index length
  exact div_pos (weight_pos hln h t) (by positivity)

/-- What a term adds to the own score, against its weight times `g`. -/
theorem term_sub (index : Bm25Index) (g : R) (t : String) (length count : ℕ) :
    index.idf P t * (count * (k1 + 1)) / (count + index.lengthPenalty length) -
        g * (index.idf P t * (k1 + 1)) =
      index.idf P t * (k1 + 1) / (count + index.lengthPenalty length) *
        (count - g * (count + index.lengthPenalty length)) := by
  have hden : (count : R) + index.lengthPenalty length ≠ 0 := by
    have := lengthPenalty_pos (R := R) index length
    positivity
  field_simp

/-- **A document whose terms all occur often enough for its length** scores at least `g` against
its own terms. -/
theorem le_score_own (hln : ∀ x : R, 1 < x → 0 < P.ln x) (h : Represents index docs ids)
    (hdoc : docs id = some tokens) (hne : tokens ≠ []) {g : R} (hg : g ≤ 1)
    (hoften : ∀ t ∈ tokens,
      g * (tokens.count t + index.lengthPenalty tokens.length) ≤ tokens.count t) :
    g ≤ index.score P id tokens.toFinset := by
  have hpos := sum_weights_pos hln h hne
  rw [score_own h hdoc hne hpos]
  refine le_max_of_le_right (le_min hg ?_)
  rw [le_div_iff₀ hpos, Finset.mul_sum]
  refine Finset.sum_le_sum fun t ht => ?_
  have hsub := term_sub (P := P) index g t tokens.length (tokens.count t)
  have hshare := share_pos hln h t tokens.length (tokens.count t)
  have hle := hoften t (List.mem_toFinset.mp ht)
  linarith [mul_nonneg (le_of_lt hshare) (sub_nonneg.mpr hle)]

/-- **A document whose terms all occur too rarely for its length** scores less than `g` against its
own terms. -/
theorem score_own_lt (hln : ∀ x : R, 1 < x → 0 < P.ln x) (h : Represents index docs ids)
    (hdoc : docs id = some tokens) (hne : tokens ≠ []) {g : R} (hg : 0 < g)
    (hrare : ∀ t ∈ tokens,
      (tokens.count t : R) < g * (tokens.count t + index.lengthPenalty tokens.length)) :
    index.score P id tokens.toFinset < g := by
  have hpos := sum_weights_pos hln h hne
  rw [score_own h hdoc hne hpos]
  refine max_lt hg (lt_of_le_of_lt (min_le_right _ _) ?_)
  rw [div_lt_iff₀ hpos, Finset.mul_sum]
  refine Finset.sum_lt_sum_of_nonempty (List.toFinset_nonempty_iff tokens |>.mpr hne) fun t ht => ?_
  have hsub := term_sub (P := P) index g t tokens.length (tokens.count t)
  have hshare := share_pos hln h t tokens.length (tokens.count t)
  have hlt := hrare t (List.mem_toFinset.mp ht)
  linarith [mul_neg_of_pos_of_neg hshare (sub_neg.mpr hlt)]

end OwnScore

end Semisweet.Core.Bm25Index
