import Mathlib.Logic.Function.Basic
import Mathlib.Order.Lattice

/-!
# Files

A file system as its users see it: a path leads to a file, and a file has bytes. A process
that has a file open holds the file, not its path, so that it keeps the bytes when the path
is given to another file or to none. No file has two paths.

`create` opens a path for writing, and leaves an empty file there; `write` puts bytes at an
offset of an open file; `rename` and `remove` change what paths lead to, in one step. Each is
described by what it does to `content`, the bytes a path leads to.
-/

namespace Semisweet.Foundations

universe u

/-- Files and the paths that lead to them. -/
structure Files (P : Type u) where
  /-- The file a path leads to. -/
  entry : P → Option ℕ
  /-- The bytes of a file. -/
  data : ℕ → List UInt8
  /-- The next file to be made. -/
  next : ℕ
  /-- A path leads to a file that was made. -/
  fresh : ∀ {path : P} {i : ℕ}, entry path = some i → i < next
  /-- One path leads to a file. -/
  single : ∀ {path path' : P} {i : ℕ}, entry path = some i → entry path' = some i → path = path'

namespace Files

variable {P : Type u} (f : Files P)

/-- What a path leads to: the bytes of its file. -/
def content (path : P) : Option (List UInt8) := (f.entry path).map f.data

/-- The file that opening a path for writing gives: the one that is there, or a new one. -/
def opened (path : P) : ℕ := (f.entry path).getD f.next

/-- Bytes put at an offset, over what is there; a gap before it is filled with zeros. -/
def overwrite (old : List UInt8) (offset : ℕ) (chunk : List UInt8) : List UInt8 :=
  old.take offset ++ List.replicate (offset - old.length) 0 ++ chunk ++
    old.drop (offset + chunk.length)

/-- At the end they are appended. -/
@[simp] theorem overwrite_length (old chunk : List UInt8) :
    overwrite old old.length chunk = old ++ chunk := by
  simp [overwrite]

theorem eq_opened {path : P} {i : ℕ} (h : f.entry path = some i) : f.opened path = i := by
  rw [opened, h, Option.getD_some]

theorem opened_cases (path : P) :
    f.entry path = some (f.opened path) ∨ f.entry path = none ∧ f.opened path = f.next := by
  cases h : f.entry path with
  | none =>
    right
    exact ⟨rfl, by rw [opened, h, Option.getD_none]⟩
  | some i =>
    left
    rw [f.eq_opened h]

/-- A file that is opened for writing has no other path. -/
theorem path_eq_of_opened {path path' : P} (h : f.entry path' = some (f.opened path)) :
    path' = path := by
  obtain ho | ⟨-, ho⟩ := f.opened_cases path
  · exact f.single h ho
  · have hlt := f.fresh h
    omega

variable [DecidableEq P]

/-- Open a path for writing: the file there is emptied, and made first if there is none. -/
def create (path : P) : Files P where
  entry := Function.update f.entry path (some (f.opened path))
  data := Function.update f.data (f.opened path) []
  next := max f.next (f.opened path + 1)
  fresh := by
    intro p i h
    obtain rfl | hp := eq_or_ne p path
    · rw [Function.update_self, Option.some.injEq] at h
      omega
    · rw [Function.update_of_ne hp] at h
      have hlt := f.fresh h
      omega
  single := by
    intro p p' i h h'
    rw [Function.update_apply] at h h'
    split at h <;> split at h' <;> rename_i hp hp'
    · rw [hp, hp']
    · rw [Option.some.injEq] at h
      rw [← h] at h'
      rw [hp, f.path_eq_of_opened h']
    · rw [Option.some.injEq] at h'
      rw [← h'] at h
      rw [hp', f.path_eq_of_opened h]
    · exact f.single h h'

omit [DecidableEq P] in
/-- Put bytes into an open file. -/
def write (i offset : ℕ) (chunk : List UInt8) : Files P :=
  { f with data := Function.update f.data i (overwrite (f.data i) offset chunk) }

/-- Give the file at `source` the path `target`, and no other. -/
def rename (source target : P) : Files P where
  entry := Function.update (Function.update f.entry source none) target (f.entry source)
  data := f.data
  next := f.next
  fresh := by
    intro p i h
    simp only [Function.update_apply] at h
    split at h
    · exact f.fresh h
    · split at h
      · cases h
      · exact f.fresh h
  single := by
    intro p p' i h h'
    simp only [Function.update_apply] at h h'
    grind [f.single]

/-- Take the path away from its file. -/
def remove (path : P) : Files P where
  entry := Function.update f.entry path none
  data := f.data
  next := f.next
  fresh := by
    intro p i h
    rw [Function.update_apply] at h
    split at h
    · cases h
    · exact f.fresh h
  single := by
    intro p p' i h h'
    rw [Function.update_apply] at h h'
    split at h
    · cases h
    · split at h'
      · cases h'
      · exact f.single h h'

section Fields

variable (path path' : P) (i offset : ℕ) (chunk : List UInt8)

@[simp] theorem entry_create :
    (f.create path).entry = Function.update f.entry path (some (f.opened path)) := rfl

@[simp] theorem data_create :
    (f.create path).data = Function.update f.data (f.opened path) [] := rfl

@[simp] theorem next_create : (f.create path).next = max f.next (f.opened path + 1) := rfl

omit [DecidableEq P] in
@[simp] theorem entry_write : (f.write i offset chunk).entry = f.entry := rfl

omit [DecidableEq P] in
@[simp] theorem data_write : (f.write i offset chunk).data =
    Function.update f.data i (overwrite (f.data i) offset chunk) := rfl

@[simp] theorem entry_rename : (f.rename path path').entry =
    Function.update (Function.update f.entry path none) path' (f.entry path) := rfl

@[simp] theorem entry_remove :
    (f.remove path).entry = Function.update f.entry path none := rfl

end Fields

/-! ### What becomes of the contents -/

theorem content_create (path : P) :
    (f.create path).content = Function.update f.content path (some []) := by
  funext p
  obtain rfl | hp := eq_or_ne p path
  · simp [content, create]
  · simp only [content, create, Function.update_of_ne hp]
    cases h : f.entry p with
    | none => rfl
    | some i =>
      have hi : i ≠ f.opened path := by
        rintro rfl
        exact hp (f.path_eq_of_opened h)
      simp [hi]

omit [DecidableEq P] in
theorem content_write_of_ne {i : ℕ} {path : P} (h : f.entry path ≠ some i) (offset : ℕ)
    (chunk : List UInt8) : (f.write i offset chunk).content path = f.content path := by
  simp only [content, write]
  cases hp : f.entry path with
  | none => rfl
  | some j =>
    have hj : j ≠ i := by
      rintro rfl
      exact h hp
    simp [hj]

theorem content_rename (source target : P) : (f.rename source target).content =
    Function.update (Function.update f.content source none) target (f.content source) := by
  funext p
  simp only [content, rename, Function.update_apply]
  split
  · rfl
  · split <;> rfl

theorem content_remove (path : P) :
    (f.remove path).content = Function.update f.content path none := by
  funext p
  simp only [content, remove, Function.update_apply]
  split <;> rfl

end Files

end Semisweet.Foundations
