import Semisweet.Core.EntryHex

/-!
# The paths of the disk store

`DiskObjectStore` (`src/backends/object_disk.rs`) keeps the payload of an entry in the file
`root/ns/id`, and writes it first to a file of the same directory, `id.tmp.pid.counter`. A
path is text, joined as `Path::join` joins it on Unix, and two paths lead to one file when
they are the same text.

## What is proved

* `FileOf.directlyIn` — every file of an entry lies directly inside its namespace's directory, and
  that directory inside the root.
* `FileOf.pair_eq` — no file belongs to two entries.
* `tempPath_ne_objectPath`, `tempPath_inj` — a temporary file is no entry's own, and its number is
  in its name.
-/

namespace Semisweet.Core

/-- `Path::join`: a relative path goes behind a separator, unless there is one already, or nothing
to separate it from; an absolute path stands alone. -/
def join (path other : String) : String :=
  if other.toList.head? = some '/' then other
  else if path = "" ∨ path.toList.getLast? = some '/' then path ++ other
  else path ++ "/" ++ other

/-- What an object is stored under: a namespace, and an entry of it. -/
structure Pair where
  /-- The namespace. -/
  ns : Namespace
  /-- The entry. -/
  id : EntryId
  deriving DecidableEq

section Paths

variable (root : String)

/-- `DiskObjectStore::namespace_dir`. -/
def namespaceDir (ns : Namespace) : String := join root ns.val

/-- `DiskObjectStore::object_path`. -/
def objectPath (p : Pair) : String := join (namespaceDir root p.ns) p.id.toHex

/-- The file `put` writes to before it renames it. -/
def tempPath (p : Pair) (pid : UInt32) (counter : UInt64) : String :=
  join (namespaceDir root p.ns) s!"{p.id.toHex}.tmp.{pid}.{counter}"

/-- The files of an object. -/
inductive FileOf (p : Pair) : String → Prop
  /-- Its own. -/
  | object : FileOf p (objectPath root p)
  /-- Those it is written to first. -/
  | temp (pid : UInt32) (counter : UInt64) : FileOf p (tempPath root p pid counter)

end Paths

/-- A name of a directory's entry: one segment, and not the directory or its parent. -/
structure IsSegment (name : String) : Prop where
  /-- There is something. -/
  nonempty : name ≠ ""
  /-- It is one segment. -/
  single : '/' ∉ name.toList
  /-- It is not the directory. -/
  notDot : name ≠ "."
  /-- It is not the parent. -/
  notDots : name ≠ ".."

/-- The path lies directly inside the directory. -/
def DirectlyIn (dir path : String) : Prop := ∃ name, IsSegment name ∧ path = join dir name

/-! ### Segments -/

/-- Text with a separator in it, and none after it, has one last part. -/
theorem append_cons_inj {α : Type} {c : α} {x x' y y' : List α} (hy : c ∉ y) (hy' : c ∉ y')
    (h : x ++ c :: y = x' ++ c :: y') : x = x' ∧ y = y' := by
  obtain ⟨z, rfl, hz⟩ | ⟨z, rfl, hz⟩ := List.append_eq_append_iff.mp h
  · cases z with
    | nil => simpa using hz
    | cons d z =>
      rw [List.cons_append, List.cons.injEq] at hz
      exact absurd (by simp [hz.2]) hy
  · cases z with
    | nil => simpa [eq_comm] using hz
    | cons d z =>
      rw [List.cons_append, List.cons.injEq] at hz
      exact absurd (by simp [hz.2]) hy'

theorem head?_ne_of_notMem {c : Char} {name : String} (h : c ∉ name.toList) :
    name.toList.head? ≠ some c :=
  fun hh => h (List.mem_of_mem_head? hh)

/-- A namespace is a segment. -/
theorem Namespace.isSegment (ns : Namespace) : IsSegment ns.val where
  nonempty := ns.nonempty
  single := by
    intro h
    have hs := List.any_eq_false.mp ns.safe '/' h
    exact hs rfl
  notDot := ns.notDots.1
  notDots := ns.notDots.2

/-- The directory of a namespace is not empty, and ends in the namespace. -/
theorem namespaceDir_getLast? (root : String) (ns : Namespace) :
    namespaceDir root ns ≠ "" ∧ (namespaceDir root ns).toList.getLast? ≠ some '/' := by
  have hne : ns.val.toList ≠ [] := by simpa using ns.nonempty
  have hlast : ns.val.toList.getLast? ≠ some '/' :=
    fun h => ns.isSegment.single (List.mem_of_getLast? h)
  unfold namespaceDir join
  rw [if_neg (head?_ne_of_notMem ns.isSegment.single)]
  split
  · refine ⟨?_, ?_⟩
    · simp [ns.nonempty]
    · rwa [String.toList_append, List.getLast?_append_of_ne_nil _ hne]
  · refine ⟨?_, ?_⟩
    · simp [ns.nonempty]
    · rwa [String.toList_append, List.getLast?_append_of_ne_nil _ hne]

/-- A file in the directory of a namespace. -/
theorem toList_join_namespaceDir (root : String) (ns : Namespace) {name : String}
    (h : '/' ∉ name.toList) :
    (join (namespaceDir root ns) name).toList =
      (namespaceDir root ns).toList ++ '/' :: name.toList := by
  obtain ⟨hne, hlast⟩ := namespaceDir_getLast? root ns
  rw [join, if_neg (head?_ne_of_notMem h), if_neg (by simp [hne, hlast])]
  simp

/-- Different namespaces have different directories. -/
theorem namespaceDir_injective (root : String) : Function.Injective (namespaceDir root) := by
  intro a b h
  have hval : a.val = b.val := by
    unfold namespaceDir join at h
    rw [if_neg (head?_ne_of_notMem a.isSegment.single),
      if_neg (head?_ne_of_notMem b.isSegment.single)] at h
    split at h
    · exact (String.append_right_inj _).mp h
    · exact (String.append_right_inj _).mp h
  cases a
  cases b
  simpa using hval

/-- **A file has one namespace and one name.** -/
theorem join_namespaceDir_inj {root : String} {a b : Namespace} {x y : String}
    (hx : '/' ∉ x.toList) (hy : '/' ∉ y.toList)
    (h : join (namespaceDir root a) x = join (namespaceDir root b) y) : a = b ∧ x = y := by
  have hl := congrArg String.toList h
  rw [toList_join_namespaceDir root a hx, toList_join_namespaceDir root b hy] at hl
  obtain ⟨hdir, hname⟩ := append_cons_inj hx hy hl
  exact ⟨namespaceDir_injective root (String.toList_inj.mp hdir), String.toList_inj.mp hname⟩

/-! ### The names of the files -/

/-- A hex digit is no separator. -/
theorem EntryId.notMem_toHex {c : Char} (h : ∀ n < 16, c ≠ Nat.digitChar n) (id : EntryId) :
    c ∉ id.toHex.toList := by
  intro hc
  obtain ⟨n, hn, rfl⟩ := mem_toHex hc
  exact h n hn rfl

theorem EntryId.length_toHex (id : EntryId) : id.toHex.toList.length = 32 := by
  simp [toHex, hexDigits, List.length_flatMap]

theorem EntryId.slash_notMem_toHex (id : EntryId) : '/' ∉ id.toHex.toList :=
  notMem_toHex (by decide) id

theorem EntryId.dot_notMem_toHex (id : EntryId) : '.' ∉ id.toHex.toList :=
  notMem_toHex (by decide) id

/-- The digits of a number are no separators. -/
theorem notMem_toString {c : Char} (hc : c.isDigit = false) (n : ℕ) :
    c ∉ (toString n).toList := by
  intro h
  have hd : c ∈ Nat.toDigits 10 n := by simpa [Nat.repr_eq_ofList_toDigits] using h
  rw [Nat.isDigit_of_mem_toDigits (by decide) (by decide) hd] at hc
  cases hc

theorem toString_inj {m n : ℕ} (h : (toString m).toList = (toString n).toList) : m = n := by
  have hd : Nat.toDigits 10 m = Nat.toDigits 10 n := by
    simpa [Nat.repr_eq_ofList_toDigits] using h
  rw [← Nat.ofDigitChars_toDigits (b := 10) (n := m) (by decide) (by decide), hd,
    Nat.ofDigitChars_toDigits (by decide) (by decide)]

/-- What stands behind the id in the name of a temporary file. -/
def tempSuffix (pid : UInt32) (counter : UInt64) : List Char :=
  "tmp.".toList ++ ((toString pid.toNat).toList ++ '.' :: (toString counter.toNat).toList)

theorem toList_tempName (id : EntryId) (pid : UInt32) (counter : UInt64) :
    s!"{id.toHex}.tmp.{pid}.{counter}".toList =
      id.toHex.toList ++ '.' :: tempSuffix pid counter := by
  simp [tempSuffix, toString]

theorem slash_notMem_tempName (id : EntryId) (pid : UInt32) (counter : UInt64) :
    '/' ∉ s!"{id.toHex}.tmp.{pid}.{counter}".toList := by
  have hpid := notMem_toString (c := '/') (by decide) pid.toNat
  have hcounter := notMem_toString (c := '/') (by decide) counter.toNat
  rw [toList_tempName, tempSuffix]
  simp only [List.mem_append, List.mem_cons, not_or]
  exact ⟨id.slash_notMem_toHex, by decide, by decide, hpid, by decide, hcounter⟩

/-- The number is in the suffix. -/
theorem tempSuffix_inj {pid pid' : UInt32} {counter counter' : UInt64}
    (h : tempSuffix pid counter = tempSuffix pid' counter') : pid = pid' ∧ counter = counter' := by
  have hdot := fun n => notMem_toString (c := '.') (by decide) n
  obtain ⟨hp, hc⟩ := append_cons_inj (hdot _) (hdot _) (List.append_cancel_left h)
  exact ⟨UInt32.toNat_inj.mp (toString_inj hp), UInt64.toNat_inj.mp (toString_inj hc)⟩

variable {root : String} {p q : Pair} {path : String}

/-- A file of an object: its directory, and its name. -/
theorem FileOf.exists_name (h : FileOf root p path) :
    ∃ name, '/' ∉ name.toList ∧ path = join (namespaceDir root p.ns) name ∧
      ((name = p.id.toHex) ∨ ∃ rest, name.toList = p.id.toHex.toList ++ '.' :: rest) := by
  cases h with
  | object => exact ⟨_, p.id.slash_notMem_toHex, rfl, .inl rfl⟩
  | temp pid counter =>
    exact ⟨_, slash_notMem_tempName p.id pid counter, rfl,
      .inr ⟨_, toList_tempName p.id pid counter⟩⟩

/-- Two names with one id each, and nothing or a dot behind it, have one id. -/
theorem id_eq_of_name {a b : EntryId} {name : String}
    (ha : name = a.toHex ∨ ∃ rest, name.toList = a.toHex.toList ++ '.' :: rest)
    (hb : name = b.toHex ∨ ∃ rest, name.toList = b.toHex.toList ++ '.' :: rest) : a = b := by
  have hstem : ∀ c : EntryId,
      (name = c.toHex ∨ ∃ rest, name.toList = c.toHex.toList ++ '.' :: rest) →
        name.toList.takeWhile (· ≠ '.') = c.toHex.toList := by
    rintro c (rfl | ⟨rest, hrest⟩)
    · rw [List.takeWhile_eq_self_iff]
      intro d hd
      simpa using fun hdot : d = '.' => c.dot_notMem_toHex (hdot ▸ hd)
    · rw [hrest, List.takeWhile_append_of_pos, List.takeWhile_cons_of_neg (by simp),
        List.append_nil]
      intro d hd
      simpa using fun hdot : d = '.' => c.dot_notMem_toHex (hdot ▸ hd)
  have hab := (hstem a ha).symm.trans (hstem b hb)
  exact EntryId.toHex_injective (String.toList_inj.mp hab)

/-- **No file belongs to two objects.** -/
theorem FileOf.pair_eq (hp : FileOf root p path) (hq : FileOf root q path) : p = q := by
  obtain ⟨x, hx, hpath, hpx⟩ := hp.exists_name
  obtain ⟨y, hy, hpath', hqy⟩ := hq.exists_name
  obtain ⟨hns, rfl⟩ := join_namespaceDir_inj hx hy (hpath.symm.trans hpath')
  have hid := id_eq_of_name hpx hqy
  cases p
  cases q
  simp_all

/-- A temporary file is not the object's own. -/
theorem tempPath_ne_objectPath (pid : UInt32) (counter : UInt64) :
    tempPath root p pid counter ≠ objectPath root q := by
  intro h
  obtain ⟨-, hname⟩ := join_namespaceDir_inj (slash_notMem_tempName p.id pid counter)
    q.id.slash_notMem_toHex h
  have hdot : '.' ∈ q.id.toHex.toList := by
    rw [← hname, toList_tempName]
    simp
  exact q.id.dot_notMem_toHex hdot

/-- Temporary files of different numbers are different. -/
theorem tempPath_inj {pid pid' : UInt32} {counter counter' : UInt64}
    (h : tempPath root p pid counter = tempPath root q pid' counter') :
    pid = pid' ∧ counter = counter' := by
  have hq : FileOf root q (tempPath root p pid counter) := by
    rw [h]
    exact .temp pid' counter'
  obtain rfl := FileOf.pair_eq (.temp pid counter) hq
  obtain ⟨-, hname⟩ := join_namespaceDir_inj (slash_notMem_tempName p.id pid counter)
    (slash_notMem_tempName p.id pid' counter') h
  have hl := congrArg String.toList hname
  rw [toList_tempName, toList_tempName] at hl
  have hsuffix := List.append_cancel_left hl
  rw [List.cons.injEq] at hsuffix
  exact tempSuffix_inj hsuffix.2

/-- Different objects have different files of their own. -/
theorem objectPath_injective (root : String) : Function.Injective (objectPath root) := by
  intro p q h
  have hq : FileOf root q (objectPath root p) := by
    rw [h]
    exact .object
  exact FileOf.pair_eq .object hq

/-- **Every file lies directly inside the directory of its namespace**, and that directory directly
inside the root. -/
theorem FileOf.directlyIn (h : FileOf root p path) :
    DirectlyIn (namespaceDir root p.ns) path ∧ DirectlyIn root (namespaceDir root p.ns) := by
  refine ⟨?_, p.ns.val, p.ns.isSegment, rfl⟩
  obtain ⟨name, hslash, rfl, hname⟩ := h.exists_name
  have hlong : 32 ≤ name.toList.length := by
    obtain rfl | ⟨rest, hrest⟩ := hname
    · rw [EntryId.length_toHex]
    · rw [hrest, List.length_append, EntryId.length_toHex]
      omega
  refine ⟨name, ⟨?_, hslash, ?_, ?_⟩, rfl⟩
  all_goals
    rintro rfl
    exact absurd hlong (by decide)

end Semisweet.Core
