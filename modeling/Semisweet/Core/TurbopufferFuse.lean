import Semisweet.Core.TurbopufferQuery
import Semisweet.Foundations.Loops

/-!
# Fusing two legs of any rows

`fuse_multi_query` (`src/backends/vector_turbopuffer.rs`) does not know that a leg has no id
twice. Of any two legs it makes one hit for each id: the first leg's loop overwrites the hit of an
earlier row, the second's keeps it and changes its score, and both append an id to the order
only if it is new.

Here the fused hits are given from the legs alone (`IsFused`), by the last and the first row
under an id (`lastUnder`, `firstUnder`). `Fuses` is the invariant of the two loops, of the rows
gone through so far, and `fuseMultiQuery_spec` what it comes to at their end.
-/

namespace Semisweet.Core.TurbopufferVectorStore

open Semisweet.Foundations

variable {R : Type} [Field R] {P : Platform R}

/-! ### Rows that are read -/

/-- A row whose id is no id, or whose context is blank. -/
def Unreadable (row : QueryRow R) : Prop :=
  EntryId.fromHex row.id = none ∨ ∃ context, row.context = some context ∧ trim context = ""

omit [Field R] in
/-- What a row is read as. -/
theorem parseRow_eq_ok_iff {row : QueryRow R} {parsed : ParsedRow} :
    parseRow P row = .ok parsed ↔ EntryId.fromHex row.id = some parsed.id ∧
      row.context.mapM Context.new = .ok parsed.context ∧
        (row.entities.filterMap (Entity.normalize P)).toFinset = parsed.entities := by
  obtain ⟨id, entities, context⟩ := parsed
  cases hid : EntryId.fromHex row.id with
  | none => simp [parseRow, hid, bind, Except.bind]
  | some id' =>
    cases hc : row.context.mapM Context.new with
    | error e => simp [parseRow, hid, hc, bind, Except.bind]
    | ok context' =>
      simp only [parseRow, hid, hc, bind, Except.bind, Except.ok.injEq, ParsedRow.mk.injEq,
        Option.some.injEq]
      tauto

omit [Field R] in
/-- A context is read unless it is blank. -/
theorem mapM_context_isOk_iff (context : Option String) :
    (∃ c, context.mapM Context.new = .ok c) ↔
      ¬ ∃ value, context = some value ∧ trim value = "" := by
  cases context with
  | none => simp [pure, Except.pure]
  | some value =>
    by_cases h : trim value = ""
    · simp [Context.new, NonBlank.new, h]
    · simp [Context.new, NonBlank.new, h]

omit [Field R] in
/-- **A row is read unless it is unreadable.** -/
theorem parseRow_isOk_iff {row : QueryRow R} :
    (∃ parsed, parseRow P row = .ok parsed) ↔ ¬ Unreadable row := by
  rw [Unreadable, not_or, ← mapM_context_isOk_iff, ← Ne, Option.ne_none_iff_exists']
  constructor
  · rintro ⟨parsed, h⟩
    obtain ⟨hid, hcontext, -⟩ := parseRow_eq_ok_iff.mp h
    exact ⟨⟨_, hid⟩, ⟨_, hcontext⟩⟩
  · rintro ⟨⟨id, hid⟩, ⟨context, hcontext⟩⟩
    exact ⟨⟨id, _, context⟩, parseRow_eq_ok_iff.mpr ⟨hid, hcontext, rfl⟩⟩

/-! ### Rows under an id -/

/-- The ids of a leg. -/
def ids (rows : List (QueryRow R)) : List EntryId :=
  rows.filterMap fun row => EntryId.fromHex row.id

/-- The rows of a leg under an id. -/
def rowsUnder (rows : List (QueryRow R)) (id : EntryId) : List (QueryRow R) :=
  rows.filter fun row => EntryId.fromHex row.id = some id

/-- The last of them. -/
def lastUnder (rows : List (QueryRow R)) (id : EntryId) : Option (QueryRow R) :=
  (rowsUnder rows id).getLast?

/-- The first of them. -/
def firstUnder (rows : List (QueryRow R)) (id : EntryId) : Option (QueryRow R) :=
  (rowsUnder rows id).head?

/-- What the hit of an id is, from the legs. -/
structure IsFused (P : Platform R) (ann bm25 : List (QueryRow R)) (hit : ScoredHit R) : Prop where
  /-- If the first leg has the id, the last row there gives the dense score and the metadata. -/
  dense : ∀ row, lastUnder ann hit.id = some row →
    hit.denseScore = 1 - row.dist ∧ parseRow P row = .ok ⟨hit.id, hit.entities, hit.context⟩
  /-- If not, the dense score is 0, and the second leg's first row gives the metadata. -/
  tail : lastUnder ann hit.id = none → hit.denseScore = 0 ∧ ∃ row,
    firstUnder bm25 hit.id = some row ∧ parseRow P row = .ok ⟨hit.id, hit.entities, hit.context⟩
  /-- The sparse score is that of the second leg's last row, or 0. -/
  sparse : hit.sparseScore = ((lastUnder bm25 hit.id).map fun row => squashBm25 row.dist).getD 0

section Snoc

variable {rows : List (QueryRow R)} {row : QueryRow R} {id id' : EntryId}

omit [Field R]

theorem ids_nil : ids ([] : List (QueryRow R)) = [] := rfl

theorem mem_ids : id ∈ ids rows ↔ rowsUnder rows id ≠ [] := by
  simp [ids, rowsUnder]

theorem ids_snoc (h : EntryId.fromHex row.id = some id) :
    ids (rows ++ [row]) = ids rows ++ [id] := by
  simp [ids, h]

theorem rowsUnder_snoc_self (h : EntryId.fromHex row.id = some id) :
    rowsUnder (rows ++ [row]) id = rowsUnder rows id ++ [row] := by
  simp [rowsUnder, h]

theorem rowsUnder_snoc_of_ne (h : EntryId.fromHex row.id = some id) (hne : id' ≠ id) :
    rowsUnder (rows ++ [row]) id' = rowsUnder rows id' := by
  simp [rowsUnder, h, Ne.symm hne]

theorem lastUnder_snoc_self (h : EntryId.fromHex row.id = some id) :
    lastUnder (rows ++ [row]) id = some row := by
  rw [lastUnder, rowsUnder_snoc_self h, List.getLast?_concat]

theorem firstUnder_snoc_self (h : EntryId.fromHex row.id = some id) :
    firstUnder (rows ++ [row]) id = (firstUnder rows id).or (some row) := by
  rw [firstUnder, rowsUnder_snoc_self h, List.head?_append, firstUnder]
  rfl

theorem lastUnder_eq_none_iff : lastUnder rows id = none ↔ id ∉ ids rows := by
  rw [mem_ids, lastUnder, List.getLast?_eq_none_iff, not_not]

theorem firstUnder_eq_none_iff : firstUnder rows id = none ↔ id ∉ ids rows := by
  rw [mem_ids, firstUnder, List.head?_eq_none_iff, not_not]

end Snoc

/-! ### One row -/

namespace Fusion

variable (self : Fusion R) (row : ParsedRow) (dist : R) {id : EntryId}

@[simp] theorem addAnn_hits_self : (self.addAnn row dist).hits row.id =
    some ⟨row.id, 1 - dist, 0, row.entities, row.context⟩ := by
  simp [addAnn]

theorem addAnn_hits_of_ne (h : id ≠ row.id) : (self.addAnn row dist).hits id = self.hits id := by
  simp [addAnn, h]

/-- The row changes the score of a hit that is there, and else adds one. -/
@[simp] theorem addBm25_hits_self : (self.addBm25 row dist).hits row.id =
    some (match self.hits row.id with
      | some hit => { hit with sparseScore := squashBm25 dist }
      | none => ⟨row.id, 0, squashBm25 dist, row.entities, row.context⟩) := by
  unfold addBm25
  cases self.hits row.id <;> simp

theorem addBm25_hits_of_ne (h : id ≠ row.id) :
    (self.addBm25 row dist).hits id = self.hits id := by
  unfold addBm25
  cases self.hits row.id <;> simp [h]

/-- Both loops append an id that is new. -/
theorem addAnn_order : (self.addAnn row dist).order =
    if (self.hits row.id).isSome then self.order else self.order ++ [row.id] := rfl

theorem addBm25_order : (self.addBm25 row dist).order =
    if (self.hits row.id).isSome then self.order else self.order ++ [row.id] := by
  unfold addBm25
  cases self.hits row.id <;> simp

end Fusion

/-! ### The loops -/

/-- **The invariant of the two loops**, of the rows gone through. -/
structure Fuses (P : Platform R) (ann bm25 : List (QueryRow R)) (fusion : Fusion R) : Prop where
  /-- Hits and order agree. -/
  valid : fusion.Valid
  /-- The ids came in this order. -/
  order : fusion.order = (ids ann ++ ids bm25).eraseDups
  /-- The hits are those of the legs. -/
  hit : ∀ hit, fusion.hits hit.id = some hit → IsFused P ann bm25 hit

variable {ann bm25 : List (QueryRow R)} {row : QueryRow R} {parsed : ParsedRow} {hit : ScoredHit R}
  {fusion : Fusion R}

namespace Fuses

theorem hits_eq_none_iff (h : Fuses P ann bm25 fusion) (id : EntryId) :
    fusion.hits id = none ↔ id ∉ ids ann ++ ids bm25 := by
  rw [← not_iff_not, ← Ne, ← h.valid.mem_order, h.order, List.mem_eraseDups, not_not]

/-- What appending an id that is new does to the order. -/
theorem order_snoc (h : Fuses P ann bm25 fusion) (id : EntryId) :
    (if (fusion.hits id).isSome then fusion.order else fusion.order ++ [id]) =
      (ids ann ++ ids bm25 ++ [id]).eraseDups := by
  have hnone := h.hits_eq_none_iff id
  rw [eraseDups_snoc, ← h.order]
  cases hh : fusion.hits id with
  | none => rw [if_neg (hnone.mp hh), if_neg (by simp)]
  | some hit =>
    have hmem : id ∈ ids ann ++ ids bm25 := by
      by_contra hnot
      simp [hnone.mpr hnot] at hh
    rw [if_pos hmem, if_pos (by simp)]

end Fuses

/-- A row of the first leg under another id changes nothing. -/
theorem IsFused.ann_snoc (h : IsFused P ann bm25 hit)
    (hid : EntryId.fromHex row.id = some parsed.id) (hne : hit.id ≠ parsed.id) :
    IsFused P (ann ++ [row]) bm25 hit := by
  have hlast : lastUnder (ann ++ [row]) hit.id = lastUnder ann hit.id := by
    rw [lastUnder, rowsUnder_snoc_of_ne hid hne, lastUnder]
  exact ⟨by rw [hlast]; exact h.dense, by rw [hlast]; exact h.tail, h.sparse⟩

/-- Nor does one of the second leg. -/
theorem IsFused.bm25_snoc (h : IsFused P ann bm25 hit)
    (hid : EntryId.fromHex row.id = some parsed.id) (hne : hit.id ≠ parsed.id) :
    IsFused P ann (bm25 ++ [row]) hit := by
  have hunder : rowsUnder (bm25 ++ [row]) hit.id = rowsUnder bm25 hit.id :=
    rowsUnder_snoc_of_ne hid hne
  refine ⟨h.dense, ?_, ?_⟩
  · rw [firstUnder, hunder]
    exact h.tail
  · rw [lastUnder, hunder]
    exact h.sparse

namespace Fuses

/-- One more row of the first leg. -/
theorem addAnn (h : Fuses P ann [] fusion) (hrow : parseRow P row = .ok parsed) :
    Fuses P (ann ++ [row]) [] (fusion.addAnn parsed row.dist) := by
  have hid := (parseRow_eq_ok_iff.mp hrow).1
  have hlast : lastUnder (ann ++ [row]) parsed.id = some row := lastUnder_snoc_self hid
  refine ⟨Fusion.valid_addAnn h.valid parsed row.dist, ?_, fun hit hhit => ?_⟩
  · rw [Fusion.addAnn_order, h.order_snoc, ids_snoc hid, ids_nil, List.append_nil, List.append_nil]
  · by_cases heq : hit.id = parsed.id
    · rw [heq, Fusion.addAnn_hits_self, Option.some.injEq] at hhit
      subst hhit
      refine ⟨fun row' hrow' => ?_, fun hnone => ?_, rfl⟩
      · obtain rfl := Option.some.inj (hlast.symm.trans hrow')
        exact ⟨rfl, hrow⟩
      · exact absurd (hlast.symm.trans hnone) (by simp)
    · rw [Fusion.addAnn_hits_of_ne _ _ _ heq] at hhit
      exact (h.hit hit hhit).ann_snoc hid heq

/-- One more row of the second leg. -/
theorem addBm25 (h : Fuses P ann bm25 fusion) (hrow : parseRow P row = .ok parsed) :
    Fuses P ann (bm25 ++ [row]) (fusion.addBm25 parsed row.dist) := by
  have hid := (parseRow_eq_ok_iff.mp hrow).1
  have hlast : lastUnder (bm25 ++ [row]) parsed.id = some row := lastUnder_snoc_self hid
  refine ⟨Fusion.valid_addBm25 h.valid parsed row.dist, ?_, fun hit hhit => ?_⟩
  · rw [Fusion.addBm25_order, h.order_snoc, ids_snoc hid, List.append_assoc]
  · by_cases heq : hit.id = parsed.id
    · rw [heq, Fusion.addBm25_hits_self, Option.some.injEq] at hhit
      subst hhit
      cases hh : fusion.hits parsed.id with
      | none =>
        -- The id is new: it is in neither leg so far.
        have hnew := (h.hits_eq_none_iff parsed.id).mp hh
        rw [List.mem_append, not_or] at hnew
        refine ⟨fun row' hrow' => ?_, fun _ => ⟨rfl, row, ?_, hrow⟩, ?_⟩
        · exact absurd ((lastUnder_eq_none_iff.mpr hnew.1).symm.trans hrow') (by simp)
        · rw [firstUnder_snoc_self hid, firstUnder_eq_none_iff.mpr hnew.2]
          rfl
        · rw [hlast]
          rfl
      | some hit =>
        have hsame : hit.id = parsed.id := h.valid.id_eq _ _ hh
        have hfused := h.hit hit (by rw [hsame]; exact hh)
        refine ⟨hfused.dense, fun hnone => ?_, ?_⟩
        · obtain ⟨hzero, row', hfirst, hparse⟩ := hfused.tail hnone
          refine ⟨hzero, row', ?_, hparse⟩
          rw [hsame] at hfirst ⊢
          rw [firstUnder_snoc_self hid, hfirst]
          rfl
        · rw [hsame, hlast]
          rfl
    · rw [Fusion.addBm25_hits_of_ne _ _ _ heq] at hhit
      exact (h.hit hit hhit).bm25_snoc hid heq

/-- What is taken out at the end: the hits of the ids, in their order. -/
theorem drain_spec (h : Fuses P ann bm25 fusion) :
    (Fusion.drain fusion.hits fusion.order).map ScoredHit.id = (ids ann ++ ids bm25).eraseDups ∧
      ∀ hit ∈ Fusion.drain fusion.hits fusion.order, IsFused P ann bm25 hit := by
  refine ⟨?_, fun hit hmem => h.hit hit ((Fusion.mem_drain h.valid).mp hmem)⟩
  rw [Fusion.drain_eq h.valid.nodup, List.map_filterMap, ← h.order]
  refine (List.filterMap_congr fun id hid => ?_).trans List.filterMap_some
  obtain ⟨hit, hhit⟩ := Option.ne_none_iff_exists'.mp ((h.valid.mem_order id).mp hid)
  rw [hhit, Option.map_some, h.valid.id_eq id hit hhit]

end Fuses

/-! ### The result -/

/-- The first loop goes through rows that are read. -/
theorem fuseAnn_eq_ok (hann : ∀ row ∈ ann, ¬ Unreadable row) {before : List (QueryRow R)}
    (h : Fuses P before [] fusion) :
    ∃ fusion', fuseAnn P ann fusion = .ok fusion' ∧ Fuses P (before ++ ann) [] fusion' := by
  unfold fuseAnn
  refine foldlM_inv (I := fun rows => Fuses P rows []) (fun before row fusion hrow h => ?_) before h
  obtain ⟨parsed, hparsed⟩ := parseRow_isOk_iff.mpr (hann row hrow)
  exact ⟨fusion.addAnn parsed row.dist, by rw [hparsed]; rfl, h.addAnn hparsed⟩

/-- So does the second. -/
theorem fuseBm25_eq_ok (hbm25 : ∀ row ∈ bm25, ¬ Unreadable row) {before : List (QueryRow R)}
    (h : Fuses P ann before fusion) :
    ∃ fusion', fuseBm25 P bm25 fusion = .ok fusion' ∧ Fuses P ann (before ++ bm25) fusion' := by
  unfold fuseBm25
  refine foldlM_inv (I := Fuses P ann) (fun before row fusion hrow h => ?_) before h
  obtain ⟨parsed, hparsed⟩ := parseRow_isOk_iff.mpr (hbm25 row hrow)
  exact ⟨fusion.addBm25 parsed row.dist, by rw [hparsed]; rfl, h.addBm25 hparsed⟩

omit [Field R] in
/-- An unreadable row ends either loop. -/
theorem fuse_eq_error {rows : List (QueryRow R)} (hrow : row ∈ rows) (h : Unreadable row)
    (add : Fusion R → ParsedRow → R → Fusion R) (fusion : Fusion R) :
    ∃ e, rows.foldlM (fun fusion row => do .ok (add fusion (← parseRow P row) row.dist)) fusion =
      Except.error e := by
  refine foldlM_error hrow (fun s => ?_) fusion
  cases hparse : parseRow P row with
  | error e => exact ⟨e, rfl⟩
  | ok parsed => exact absurd h (parseRow_isOk_iff.mp ⟨parsed, hparse⟩)

/-- **Fusing two legs loses and duplicates nothing.** It fails if a row of either leg cannot be
read; else it has one hit for each id, in the order of the first leg and then of what is only in
the second, and every hit is that of the legs. Further legs are not read. -/
theorem fuseMultiQuery_spec (P : Platform R) (results : List (List (QueryRow R))) :
    ((∃ row ∈ results.getD 0 [] ++ results.getD 1 [], Unreadable row) →
      ∃ e, fuseMultiQuery P results = .error e) ∧
    ((∀ row ∈ results.getD 0 [] ++ results.getD 1 [], ¬ Unreadable row) →
      ∃ hits, fuseMultiQuery P results = .ok hits ∧
        (hits.map ScoredHit.id).Nodup ∧
        hits.map ScoredHit.id = (ids (results.getD 0 [])).eraseDups ++
          ((ids (results.getD 1 [])).filter (· ∉ ids (results.getD 0 []))).eraseDups ∧
        ∀ hit ∈ hits, IsFused P (results.getD 0 []) (results.getD 1 []) hit) ∧
    fuseMultiQuery P results = fuseMultiQuery P (results.take 2) := by
  set ann := results.getD 0 []
  set bm25 := results.getD 1 []
  refine ⟨?_, fun hall => ?_, ?_⟩
  · rintro ⟨row, hrow, h⟩
    cases hres : fuseMultiQuery P results with
    | error e => exact ⟨e, rfl⟩
    | ok hits =>
      rw [fuseMultiQuery, bind_eq_ok] at hres
      obtain ⟨first, hfirst, hres⟩ := hres
      obtain ⟨second, hsecond, -⟩ := bind_eq_ok.mp hres
      rcases List.mem_append.mp hrow with hrow | hrow
      · obtain ⟨e, he⟩ := fuse_eq_error hrow h Fusion.addAnn ⟨fun _ => none, []⟩
        exact absurd (hfirst.symm.trans he) (by simp)
      · obtain ⟨e, he⟩ := fuse_eq_error hrow h Fusion.addBm25 first
        exact absurd (hsecond.symm.trans he) (by simp)
  · have hempty : Fuses P [] [] (⟨fun _ => none, []⟩ : Fusion R) :=
      ⟨⟨by simp, by simp, by simp⟩, rfl, by simp⟩
    obtain ⟨first, hfirst, hinv⟩ :=
      fuseAnn_eq_ok (fun row hrow => hall row (List.mem_append_left _ hrow)) hempty
    obtain ⟨second, hsecond, hfuses⟩ :=
      fuseBm25_eq_ok (fun row hrow => hall row (List.mem_append_right _ hrow)) hinv
    obtain ⟨hids, hhits⟩ := hfuses.drain_spec
    refine ⟨Fusion.drain second.hits second.order, ?_, ?_, ?_, hhits⟩
    · rw [fuseMultiQuery, bind_eq_ok]
      exact ⟨first, hfirst, bind_eq_ok.mpr ⟨second, hsecond, rfl⟩⟩
    · rw [hids, ← hfuses.order]
      exact hfuses.valid.nodup
    · rw [hids, List.nil_append, List.nil_append, List.eraseDups_append, List.removeAll]
      simp
  · simp [fuseMultiQuery]

end Semisweet.Core.TurbopufferVectorStore
