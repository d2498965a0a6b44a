import Semisweet.Core.Cache
import Semisweet.Core.DiskPath
import Semisweet.Foundations.Files
import Semisweet.Foundations.Runs

/-!
# The disk store

`DiskObjectStore` (`src/backends/object_disk.rs`) under any number of threads, in any number
of processes, on one root: `put` writes the value to a temporary file and renames it over the
object's own, `get` reads that file, and `delete` removes it.

## The model

A step is one call on the file system, or a part of one. `create_dir_all`, `rename` and
`remove_file` are one step each. `fs::write` opens the temporary file, which empties it, and
writes the value a chunk at a time; `fs::read` opens the object's file and reads it a chunk at
a time, to its end. Any call may fail, and then the operation returns; a crash ends any threads at
any point, and leaves the files. A file that is open is read and written whatever has become of
its path (`Semisweet.Foundations.Files`).

The number of a temporary file is a process's id and a counter of the process. No two threads that
are in a `put` have the same one (`Unique`); a thread that is gone may have left a file with it.

## What is proved

* `settled` — the map of objects that the completed renames and removes stand for: it is the
  `ObjectStore` the cache is modelled over.
* `inv_run` — in every run a thread writes to a file of its own, a reader's file is not written to,
  and every object's file has what the map has.
* `atomic_register` — a `get` answers what the map had when it looked, and no operation reads or
  changes a file of another object, or one that is not directly inside its namespace's directory.
-/

namespace Semisweet.Core

open Semisweet.Foundations

namespace DiskObjectStore

/-- Where a thread is in a call of the store. -/
inductive Phase where
  /-- In none. -/
  | idle
  /-- `put`, before `create_dir_all`. -/
  | putDir (p : Pair) (value : List UInt8)
  /-- `put`, before `fetch_add`. -/
  | putNumber (p : Pair) (value : List UInt8)
  /-- `put`, before the temporary file is opened. -/
  | putTemp (p : Pair) (value : List UInt8) (pid : UInt32) (counter : UInt64)
  /-- `put`, with the temporary file open and so much of the value written. -/
  | putWrite (p : Pair) (value : List UInt8) (pid : UInt32) (counter : UInt64) (file : ℕ)
      (written : List UInt8)
  /-- `get`, before the file is opened. -/
  | getOpen (p : Pair)
  /-- `get`, with the file open and so much of it read. -/
  | getRead (p : Pair) (file : ℕ) (taken : List UInt8)
  /-- `delete`, before `remove_file`. -/
  | deleteFile (p : Pair)

/-- The number of the temporary file. -/
def Phase.number : Phase → Option (UInt32 × UInt64)
  | .putTemp _ _ pid counter | .putWrite _ _ pid counter _ _ => some (pid, counter)
  | _ => none

/-- What is being put. -/
def Phase.putting : Phase → Option (Pair × List UInt8)
  | .putDir p value | .putNumber p value | .putTemp p value _ _ | .putWrite p value _ _ _ _ =>
    some (p, value)
  | _ => none

/-- The file that is open, and the object it is opened for. -/
def Phase.holds : Phase → Option (Pair × ℕ)
  | .putWrite p _ _ _ file _ | .getRead p file _ => some (p, file)
  | _ => none

/-- The disk, and the threads. -/
structure Volume where
  /-- The files. -/
  files : Files String
  /-- Which namespaces have their directory. -/
  dirs : Namespace → Bool
  /-- The threads. -/
  task : ℕ → Phase

/-- Thread `t` goes on to `phase`. -/
def Volume.goto (s : Volume) (t : ℕ) (phase : Phase) : Volume :=
  { s with task := Function.update s.task t phase }

section Goto

variable (s : Volume) (t : ℕ) (phase : Phase)

@[simp] theorem Volume.task_goto : (s.goto t phase).task = Function.update s.task t phase := rfl

@[simp] theorem Volume.files_goto : (s.goto t phase).files = s.files := rfl

@[simp] theorem Volume.dirs_goto : (s.goto t phase).dirs = s.dirs := rfl

end Goto

/-- What is done, by which thread, and for which object; a call that names a path has it. -/
inductive Action where
  /-- `put` is called. -/
  | put (t : ℕ) (p : Pair) (value : List UInt8)
  /-- `create_dir_all`. -/
  | createDir (t : ℕ) (p : Pair)
  /-- `process::id` and `fetch_add`. -/
  | number (t : ℕ) (p : Pair) (pid : UInt32) (counter : UInt64)
  /-- `fs::write` opens the file. -/
  | openTemp (t : ℕ) (p : Pair) (path : String)
  /-- `fs::write` writes some more. -/
  | write (t : ℕ) (p : Pair) (chunk : List UInt8)
  /-- `rename`; `put` returns. -/
  | rename (t : ℕ) (p : Pair) (value : List UInt8) (source target : String)
  /-- `get` is called. -/
  | get (t : ℕ) (p : Pair)
  /-- `fs::read` opens the file. -/
  | openObject (t : ℕ) (p : Pair) (path : String)
  /-- `fs::read` finds no file; `get` returns `None`. -/
  | missing (t : ℕ) (p : Pair) (path : String)
  /-- `fs::read` reads some more. -/
  | read (t : ℕ) (p : Pair) (chunk : List UInt8)
  /-- `fs::read` is at the end; `get` returns the bytes. -/
  | returned (t : ℕ) (p : Pair) (bytes : List UInt8)
  /-- `delete` is called. -/
  | delete (t : ℕ) (p : Pair)
  /-- `remove_file`; `delete` returns. -/
  | remove (t : ℕ) (p : Pair) (path : String)
  /-- `remove_file` finds no file; `delete` returns. -/
  | absent (t : ℕ) (p : Pair) (path : String)
  /-- A call fails, and the operation returns the error. -/
  | fail (t : ℕ)
  /-- Processes crash, with these threads. -/
  | crash (dead : ℕ → Bool)

namespace Action

/-- The object it is about. -/
def pair : Action → Option Pair
  | .put _ p _ | .createDir _ p | .number _ p _ _ | .openTemp _ p _ | .write _ p _
  | .rename _ p _ _ _ | .get _ p | .openObject _ p _ | .missing _ p _ | .read _ p _
  | .returned _ p _ | .delete _ p | .remove _ p _ | .absent _ p _ => some p
  | .fail _ | .crash _ => none

/-- It is a step of the thread, or ends it. -/
def Concerns (t : ℕ) : Action → Prop
  | .put t' _ _ | .createDir t' _ | .number t' _ _ _ | .openTemp t' _ _ | .write t' _ _
  | .rename t' _ _ _ _ | .get t' _ | .openObject t' _ _ | .missing t' _ _ | .read t' _ _
  | .returned t' _ _ | .delete t' _ | .remove t' _ _ | .absent t' _ _ | .fail t' => t' = t
  | .crash dead => dead t = true

/-- The paths of the files it names. -/
def paths : Action → List String
  | .openTemp _ _ path | .openObject _ _ path | .missing _ _ path | .remove _ _ path
  | .absent _ _ path => [path]
  | .rename _ _ _ source target => [source, target]
  | _ => []

end Action

/-- One step of a thread. -/
inductive Step (root : String) : Volume → Action → Volume → Prop
  /-- It is in no other call. -/
  | put {s : Volume} {t : ℕ} {p : Pair} {value : List UInt8} :
      s.task t = .idle → Step root s (.put t p value) (s.goto t (.putDir p value))
  /-- The directory is there. -/
  | createDir {s : Volume} {t : ℕ} {p : Pair} {value : List UInt8} :
      s.task t = .putDir p value →
        Step root s (.createDir t p)
          ({ s with dirs := Function.update s.dirs p.ns true }.goto t (.putNumber p value))
  /-- The temporary file has a name. -/
  | number {s : Volume} {t : ℕ} {p : Pair} {value : List UInt8} {pid : UInt32} {counter : UInt64} :
      s.task t = .putNumber p value →
        Step root s (.number t p pid counter) (s.goto t (.putTemp p value pid counter))
  /-- It is there, and empty. -/
  | openTemp {s : Volume} {t : ℕ} {p : Pair} {value : List UInt8} {pid : UInt32}
      {counter : UInt64} :
      s.task t = .putTemp p value pid counter → s.dirs p.ns = true →
        Step root s (.openTemp t p (tempPath root p pid counter))
          ({ s with files := s.files.create (tempPath root p pid counter) }.goto t
            (.putWrite p value pid counter (s.files.opened (tempPath root p pid counter)) []))
  /-- A chunk of what is left of the value, behind what is written. -/
  | write {s : Volume} {t : ℕ} {p : Pair} {value : List UInt8} {pid : UInt32} {counter : UInt64}
      {file : ℕ} {written chunk : List UInt8} :
      s.task t = .putWrite p value pid counter file written → written ++ chunk <+: value →
        Step root s (.write t p chunk)
          ({ s with files := s.files.write file written.length chunk }.goto t
            (.putWrite p value pid counter file (written ++ chunk)))
  /-- The value is written. -/
  | rename {s : Volume} {t : ℕ} {p : Pair} {value : List UInt8} {pid : UInt32} {counter : UInt64}
      {file : ℕ} :
      s.task t = .putWrite p value pid counter file value →
      s.files.entry (tempPath root p pid counter) ≠ none →
        Step root s (.rename t p value (tempPath root p pid counter) (objectPath root p))
          ({ s with files :=
              s.files.rename (tempPath root p pid counter) (objectPath root p) }.goto t .idle)
  /-- It is in no other call. -/
  | get {s : Volume} {t : ℕ} {p : Pair} :
      s.task t = .idle → Step root s (.get t p) (s.goto t (.getOpen p))
  /-- There is a file. -/
  | openObject {s : Volume} {t : ℕ} {p : Pair} {file : ℕ} :
      s.task t = .getOpen p → s.files.entry (objectPath root p) = some file →
        Step root s (.openObject t p (objectPath root p)) (s.goto t (.getRead p file []))
  /-- There is none. -/
  | missing {s : Volume} {t : ℕ} {p : Pair} :
      s.task t = .getOpen p → s.files.entry (objectPath root p) = none →
        Step root s (.missing t p (objectPath root p)) (s.goto t .idle)
  /-- A chunk of what is left of the file. -/
  | read {s : Volume} {t : ℕ} {p : Pair} {file : ℕ} {taken chunk : List UInt8} :
      s.task t = .getRead p file taken → chunk <+: (s.files.data file).drop taken.length →
        Step root s (.read t p chunk) (s.goto t (.getRead p file (taken ++ chunk)))
  /-- Nothing is left. -/
  | returned {s : Volume} {t : ℕ} {p : Pair} {file : ℕ} {taken : List UInt8} :
      s.task t = .getRead p file taken → (s.files.data file).length ≤ taken.length →
        Step root s (.returned t p taken) (s.goto t .idle)
  /-- It is in no other call. -/
  | delete {s : Volume} {t : ℕ} {p : Pair} :
      s.task t = .idle → Step root s (.delete t p) (s.goto t (.deleteFile p))
  /-- There is a file. -/
  | remove {s : Volume} {t : ℕ} {p : Pair} :
      s.task t = .deleteFile p → s.files.entry (objectPath root p) ≠ none →
        Step root s (.remove t p (objectPath root p))
          ({ s with files := s.files.remove (objectPath root p) }.goto t .idle)
  /-- There is none. -/
  | absent {s : Volume} {t : ℕ} {p : Pair} :
      s.task t = .deleteFile p → s.files.entry (objectPath root p) = none →
        Step root s (.absent t p (objectPath root p)) (s.goto t .idle)
  /-- What was written so far is left. -/
  | fail {s : Volume} {t : ℕ} : Step root s (.fail t) (s.goto t .idle)
  /-- The threads are gone. -/
  | crash {s : Volume} {dead : ℕ → Bool} :
      Step root s (.crash dead)
        { s with task := fun t => if dead t = true then .idle else s.task t }

/-- A number is given to no two live writers. -/
def Unique : Guard Volume Action := fun _ s a =>
  ∀ t p pid counter, a = .number t p pid counter →
    ∀ t', (s.task t').number ≠ some (pid, counter)

/-- The disk before the first `put`: no object has a file. -/
structure Blank (root : String) where
  /-- The files that are there. -/
  files : Files String
  /-- The directories that are there. -/
  dirs : Namespace → Bool
  /-- None is an object's. -/
  clean : ∀ {p : Pair} {path : String}, FileOf root p path → files.entry path = none

/-- No thread is in a call. -/
def Blank.init {root : String} (blank : Blank root) : Volume :=
  ⟨blank.files, blank.dirs, fun _ => .idle⟩

/-- A run on a disk that was blank. -/
abbrev DiskRun {root : String} (blank : Blank root) (h : History Volume Action) (s : Volume) :
    Prop :=
  Run (Step root) blank.init Unique h s

/-! ### The map -/

/-- What a step makes of the map: a rename puts the value, and a remove deletes it. -/
def settle (m : ObjectStore) : Action → ObjectStore
  | .rename _ p value _ _ => m.put p.ns p.id value
  | .remove _ p _ => m.delete p.ns p.id
  | _ => m

/-- **The map of objects**, as the renames and removes that were completed leave it. -/
def settled (h : History Volume Action) : ObjectStore :=
  h.foldl (fun m x => settle m x.2) fun _ _ => none

theorem settled_snoc (h : History Volume Action) (s : Volume) (a : Action) :
    settled (h ++ [(s, a)]) = settle (settled h) a := by
  rw [settled, List.foldl_append]
  rfl

/-- **What a `get` goes by**: it has opened the object's file, has only read since, and the map had
these bytes for the object when it opened it. -/
def Looked (h : History Volume Action) (t : ℕ) (p : Pair) (bytes : List UInt8) : Prop :=
  ∃ h₁ u path h₂, h = h₁ ++ (u, .openObject t p path) :: h₂ ∧
    (∀ x ∈ h₂, x.2.Concerns t → ∃ chunk, x.2 = .read t p chunk) ∧
      settled h₁ p.ns p.id = some bytes

/-- Some thread was called to put these bytes. -/
def WasPut (h : History Volume Action) (p : Pair) (bytes : List UInt8) : Prop :=
  ∃ u t, (u, Action.put t p bytes) ∈ h

variable {root : String} {h : History Volume Action} {s s' : Volume} {a : Action} {t : ℕ}
  {p : Pair} {bytes : List UInt8}

theorem Looked.snoc (hl : Looked h t p bytes)
    (ha : a.Concerns t → ∃ chunk, a = .read t p chunk) : Looked (h ++ [(s, a)]) t p bytes := by
  obtain ⟨h₁, u, path, h₂, rfl, hquiet, hm⟩ := hl
  refine ⟨h₁, u, path, h₂ ++ [(s, a)], by simp, ?_, hm⟩
  intro x hx hc
  obtain hx | hx := List.mem_append.mp hx
  · exact hquiet x hx hc
  · obtain rfl := List.mem_singleton.mp hx
    exact ha hc

theorem WasPut.snoc (hp : WasPut h p bytes) : WasPut (h ++ [(s, a)]) p bytes := by
  obtain ⟨u, t, hm⟩ := hp
  exact ⟨u, t, List.mem_append_left _ hm⟩

/-! ### The threads -/

/-- A thread that a step does not concern stays where it is. -/
theorem task_of_not_concerns (hstep : Step root s a s') (hc : ¬a.Concerns t) :
    s'.task t = s.task t := by
  cases hstep
  case crash => exact if_neg hc
  all_goals exact Function.update_of_ne (Ne.symm hc) _ _

/-- The numbers of live writers are different. -/
def Numbered (s : Volume) : Prop :=
  ∀ t t' n, (s.task t).number = some n → (s.task t').number = some n → t = t'

/-- A thread has its number from before the step, or gets it in this one. -/
theorem number_of_step (hstep : Step root s a s') {n : UInt32 × UInt64}
    (hn : (s'.task t).number = some n) :
    (s.task t).number = some n ∨ ∃ p, a = .number t p n.1 n.2 := by
  by_cases hc : a.Concerns t
  · cases hstep
    case number =>
      obtain rfl := hc
      simp only [Volume.task_goto, Function.update_self, Phase.number, Option.some.injEq] at hn
      obtain rfl := hn
      exact .inr ⟨_, rfl⟩
    case crash => simp [show _ = true from hc, Phase.number] at hn
    all_goals
      obtain rfl := hc
      simp_all [Phase.number]
  · rw [task_of_not_concerns hstep hc] at hn
    exact .inl hn

theorem numbered_step (hI : Numbered s) (hok : Unique h s a) (hstep : Step root s a s') :
    Numbered s' := by
  intro t t' n ht ht'
  obtain hold | ⟨p, rfl⟩ := number_of_step hstep ht
  · obtain hold' | ⟨p, rfl⟩ := number_of_step hstep ht'
    · exact hI t t' n hold hold'
    · exact absurd hold (hok t' p n.1 n.2 rfl t)
  · obtain hold' | ⟨p', hp'⟩ := number_of_step hstep ht'
    · exact absurd hold' (hok t p n.1 n.2 rfl t')
    · cases hp'
      rfl

/-- What is being put was asked for. -/
def Called (h : History Volume Action) (s : Volume) : Prop :=
  ∀ t p value, (s.task t).putting = some (p, value) → WasPut h p value

theorem called_step (hI : Called h s) (hstep : Step root s a s') : Called (h ++ [(s, a)]) s' := by
  intro t p value hp
  by_cases hc : a.Concerns t
  · cases hstep
    case put =>
      obtain rfl := hc
      simp only [Volume.task_goto, Function.update_self, Phase.putting, Option.some.injEq,
        Prod.mk.injEq] at hp
      obtain ⟨rfl, rfl⟩ := hp
      exact ⟨_, _, List.mem_concat_self⟩
    case crash => simp [show _ = true from hc, Phase.putting] at hp
    all_goals
      refine (hI t p value ?_).snoc
      obtain rfl := hc
      simp_all [Phase.putting]
  · rw [task_of_not_concerns hstep hc] at hp
    exact (hI t p value hp).snoc

/-! ### The files -/

/-- What a step can do to the files, and who does it. -/
inductive Edit (root : String) (s : Volume) (a : Action) : Files String → Prop
  /-- Nothing. -/
  | none : (∀ m, settle m a = m) → Edit root s a s.files
  /-- A temporary file is opened. -/
  | create {t : ℕ} {p : Pair} {value : List UInt8} {pid : UInt32} {counter : UInt64} :
      s.task t = .putTemp p value pid counter →
      a = .openTemp t p (tempPath root p pid counter) →
        Edit root s a (s.files.create (tempPath root p pid counter))
  /-- It is written to. -/
  | write {t : ℕ} {p : Pair} {value : List UInt8} {pid : UInt32} {counter : UInt64} {file : ℕ}
      {written chunk : List UInt8} :
      s.task t = .putWrite p value pid counter file written → a = .write t p chunk →
        Edit root s a (s.files.write file written.length chunk)
  /-- It becomes the object's. -/
  | rename {t : ℕ} {p : Pair} {value : List UInt8} {pid : UInt32} {counter : UInt64} {file : ℕ} :
      s.task t = .putWrite p value pid counter file value →
      a = .rename t p value (tempPath root p pid counter) (objectPath root p) →
        Edit root s a (s.files.rename (tempPath root p pid counter) (objectPath root p))
  /-- The object's is removed. -/
  | remove {t : ℕ} {p : Pair} :
      a = .remove t p (objectPath root p) → Edit root s a (s.files.remove (objectPath root p))

/-- **What a step does to the files.** -/
theorem Step.edit (hstep : Step root s a s') : Edit root s a s'.files := by
  cases hstep with
  | openTemp ht _ => exact .create ht rfl
  | write ht _ => exact .write ht rfl
  | rename ht _ => exact .rename ht rfl
  | remove _ _ => exact .remove rfl
  | _ => exact .none fun _ => rfl

/-- A thread that has a temporary file open has it at its path, with what it has written. -/
def Writing (root : String) (s : Volume) : Prop :=
  ∀ t p value pid counter file written, s.task t = .putWrite p value pid counter file written →
    s.files.entry (tempPath root p pid counter) = some file ∧ s.files.data file = written

/-- The file was made, and no path but the object's leads to it. -/
def Settled (root : String) (f : Files String) (p : Pair) (file : ℕ) : Prop :=
  file < f.next ∧ ∀ path, f.entry path = some file → path = objectPath root p

/-- A file that a temporary path leads to is not settled. -/
theorem Settled.entry_ne {f : Files String} {file : ℕ} (hset : Settled root f p file) {q : Pair}
    {pid : UInt32} {counter : UInt64} : f.entry (tempPath root q pid counter) ≠ some file :=
  fun hq => tempPath_ne_objectPath pid counter (hset.2 _ hq)

theorem Settled.opened_ne {f : Files String} {file : ℕ} (hset : Settled root f p file) {q : Pair}
    {pid : UInt32} {counter : UInt64} : f.opened (tempPath root q pid counter) ≠ file := by
  obtain hf | ⟨-, hf⟩ := f.opened_cases (tempPath root q pid counter)
  · intro heq
    exact hset.entry_ne (heq ▸ hf)
  · have := hset.1
    omega

/-- **A settled file stays settled, and keeps its bytes.** -/
theorem Settled.edit (hW : Writing root s) {f : Files String} (hedit : Edit root s a f) {file : ℕ}
    (hset : Settled root s.files p file) :
    Settled root f p file ∧ f.data file = s.files.data file := by
  cases hedit with
  | none _ => exact ⟨hset, rfl⟩
  | create _ _ =>
    rw [Files.data_create, Function.update_of_ne hset.opened_ne.symm]
    refine ⟨⟨lt_max_of_lt_left hset.1, ?_⟩, rfl⟩
    intro path hpath
    rw [Files.entry_create, Function.update_apply] at hpath
    split at hpath
    · exact absurd (Option.some.inj hpath) hset.opened_ne
    · exact hset.2 path hpath
  | write ht _ =>
    rw [Files.data_write, Function.update_of_ne]
    · exact ⟨hset, rfl⟩
    · rintro rfl
      exact hset.entry_ne (hW _ _ _ _ _ _ _ ht).1
  | rename _ _ =>
    refine ⟨⟨hset.1, ?_⟩, rfl⟩
    intro path hpath
    simp only [Files.entry_rename, Function.update_apply] at hpath
    split at hpath
    · exact absurd hpath hset.entry_ne
    · split at hpath
      · cases hpath
      · exact hset.2 path hpath
  | remove _ =>
    refine ⟨⟨hset.1, ?_⟩, rfl⟩
    intro path hpath
    rw [Files.entry_remove, Function.update_apply] at hpath
    split at hpath
    · cases hpath
    · exact hset.2 path hpath

/-- The temporary files of two writers are different. -/
theorem tempPath_ne (hN : Numbered s) {t t' : ℕ} (hne : t ≠ t') {q : Pair}
    {pid pid' : UInt32} {counter counter' : UInt64}
    (ht : (s.task t).number = some (pid, counter))
    (ht' : (s.task t').number = some (pid', counter')) :
    tempPath root p pid counter ≠ tempPath root q pid' counter' := by
  intro heq
  obtain ⟨rfl, rfl⟩ := tempPath_inj heq
  exact hne (hN t t' _ ht ht')

/-- The temporary file of a thread that a step does not concern is left alone. -/
theorem writing_edit (hN : Numbered s) (hW : Writing root s) {f : Files String}
    (hedit : Edit root s a f) (hc : ¬a.Concerns t) {value : List UInt8} {pid : UInt32}
    {counter : UInt64} {file : ℕ} {written : List UInt8}
    (ht : s.task t = .putWrite p value pid counter file written) :
    f.entry (tempPath root p pid counter) = some file ∧ f.data file = written := by
  obtain ⟨hentry, hdata⟩ := hW _ _ _ _ _ _ _ ht
  have hnum : (s.task t).number = some (pid, counter) := by rw [ht, Phase.number]
  cases hedit with
  | none _ => exact ⟨hentry, hdata⟩
  | @create t' q _ pid' counter' ht' ha =>
    subst ha
    have hpath : tempPath root p pid counter ≠ tempPath root q pid' counter' :=
      tempPath_ne hN (Ne.symm hc) hnum (by rw [ht', Phase.number])
    have hfile : file ≠ s.files.opened (tempPath root q pid' counter') := by
      rintro rfl
      exact hpath (s.files.path_eq_of_opened hentry)
    rw [Files.entry_create, Files.data_create, Function.update_of_ne hpath,
      Function.update_of_ne hfile]
    exact ⟨hentry, hdata⟩
  | @write t' q _ pid' counter' file' _ _ ht' ha =>
    subst ha
    rw [Files.data_write, Function.update_of_ne]
    · exact ⟨hentry, hdata⟩
    · rintro rfl
      exact tempPath_ne hN (Ne.symm hc) hnum (by rw [ht', Phase.number])
        (s.files.single hentry (hW _ _ _ _ _ _ _ ht').1)
  | @rename t' q _ pid' counter' file' ht' ha =>
    subst ha
    have hpath : tempPath root p pid counter ≠ tempPath root q pid' counter' :=
      tempPath_ne hN (Ne.symm hc) hnum (by rw [ht', Phase.number])
    rw [Files.entry_rename, Function.update_of_ne (tempPath_ne_objectPath pid counter),
      Function.update_of_ne hpath]
    exact ⟨hentry, hdata⟩
  | remove _ =>
    rw [Files.entry_remove, Function.update_of_ne (tempPath_ne_objectPath pid counter)]
    exact ⟨hentry, hdata⟩

theorem writing_step (hN : Numbered s) (hW : Writing root s) (hstep : Step root s a s') :
    Writing root s' := by
  intro t p value pid counter file written ht
  by_cases hc : a.Concerns t
  · cases hstep
    case openTemp =>
      obtain rfl := hc
      simp only [Volume.task_goto, Function.update_self, Phase.putWrite.injEq] at ht
      obtain ⟨rfl, rfl, rfl, rfl, rfl, rfl⟩ := ht
      simp only [Volume.files_goto, Files.entry_create, Files.data_create, Function.update_self,
        and_self]
    case write hold _ =>
      obtain rfl := hc
      simp only [Volume.task_goto, Function.update_self, Phase.putWrite.injEq] at ht
      obtain ⟨rfl, rfl, rfl, rfl, rfl, rfl⟩ := ht
      obtain ⟨hentry, hdata⟩ := hW _ _ _ _ _ _ _ hold
      simp only [Volume.files_goto, Files.entry_write, Files.data_write, Function.update_self]
      rw [hdata, Files.overwrite_length]
      exact ⟨hentry, rfl⟩
    case crash => simp [show _ = true from hc] at ht
    all_goals
      obtain rfl := hc
      simp at ht
  · rw [task_of_not_concerns hstep hc] at ht
    exact writing_edit hN hW hstep.edit hc ht

/-- A thread that reads has a settled file open, has read a part of it, and has looked. -/
def Reading (root : String) (h : History Volume Action) (s : Volume) : Prop :=
  ∀ t p file taken, s.task t = .getRead p file taken →
    Settled root s.files p file ∧ taken <+: s.files.data file ∧ Looked h t p (s.files.data file)

/-- A file is read for one object. -/
def Readers (s : Volume) : Prop :=
  ∀ t t' p q file taken taken', s.task t = .getRead p file taken →
    s.task t' = .getRead q file taken' → p = q

/-- The file of every object has what the map has. -/
def Stored (root : String) (h : History Volume Action) (s : Volume) : Prop :=
  ∀ p, s.files.content (objectPath root p) = settled h p.ns p.id

/-- A thread that is reading after a step was reading before it, or has opened the file in it. -/
theorem reading_cases (hstep : Step root s a s') {file : ℕ} {taken : List UInt8}
    (ht : s'.task t = .getRead p file taken) :
    (s'.files = s.files ∧ a = .openObject t p (objectPath root p) ∧ taken = [] ∧
      s.files.entry (objectPath root p) = some file) ∨
    (∃ old chunk, s'.files = s.files ∧ a = .read t p chunk ∧ s.task t = .getRead p file old ∧
      taken = old ++ chunk ∧ chunk <+: (s.files.data file).drop old.length) ∨
    ¬a.Concerns t ∧ s.task t = .getRead p file taken := by
  by_cases hc : a.Concerns t
  · cases hstep
    case openObject hentry =>
      obtain rfl := hc
      simp only [Volume.task_goto, Function.update_self, Phase.getRead.injEq] at ht
      obtain ⟨rfl, rfl, rfl⟩ := ht
      exact .inl ⟨rfl, rfl, rfl, hentry⟩
    case read hold hchunk =>
      obtain rfl := hc
      simp only [Volume.task_goto, Function.update_self, Phase.getRead.injEq] at ht
      obtain ⟨rfl, rfl, rfl⟩ := ht
      exact .inr (.inl ⟨_, _, rfl, rfl, hold, rfl, hchunk⟩)
    case crash => simp [show _ = true from hc] at ht
    all_goals
      obtain rfl := hc
      simp at ht
  · rw [task_of_not_concerns hstep hc] at ht
    exact .inr (.inr ⟨hc, ht⟩)

theorem reading_step (hW : Writing root s) (hR : Reading root h s) (hS : Stored root h s)
    (hstep : Step root s a s') : Reading root (h ++ [(s, a)]) s' := by
  intro t p file taken ht
  obtain ⟨hf, rfl, rfl, hentry⟩ | ⟨old, chunk, hf, rfl, hold, rfl, hchunk⟩ | ⟨hc, hold⟩ :=
    reading_cases hstep ht
  · rw [hf]
    refine ⟨⟨s.files.fresh hentry, fun path hpath => s.files.single hpath hentry⟩,
      List.nil_prefix, h, s, _, [], rfl, by simp, ?_⟩
    rw [← hS p, Files.content, hentry, Option.map_some]
  · obtain ⟨hset, hpre, hlook⟩ := hR t p file old hold
    rw [hf]
    refine ⟨hset, ?_, hlook.snoc fun _ => ⟨chunk, rfl⟩⟩
    obtain ⟨rest, hrest⟩ := hpre
    rw [← hrest, List.drop_left] at hchunk
    rw [← hrest]
    exact (List.prefix_append_right_inj old).mpr hchunk
  · obtain ⟨hset, hpre, hlook⟩ := hR t p file taken hold
    obtain ⟨hset', hdata⟩ := hset.edit hW hstep.edit
    rw [hdata]
    exact ⟨hset', hpre, hlook.snoc fun hc' => absurd hc' hc⟩

theorem readers_step (hR : Reading root h s) (hI : Readers s) (hstep : Step root s a s') :
    Readers s' := by
  intro t t' p q file taken taken' ht ht'
  have horigin : ∀ t p taken, s'.task t = .getRead p file taken →
      s.files.entry (objectPath root p) = some file ∨ ∃ old, s.task t = .getRead p file old := by
    intro t p taken ht
    obtain ⟨-, -, -, hentry⟩ | ⟨old, -, -, -, hold, -, -⟩ | ⟨-, hold⟩ := reading_cases hstep ht
    · exact .inl hentry
    · exact .inr ⟨old, hold⟩
    · exact .inr ⟨taken, hold⟩
  -- A file that is opened now is at the object's path, where its readers know it to be.
  obtain hentry | ⟨old, hold⟩ := horigin t p taken ht <;>
    obtain hentry' | ⟨old', hold'⟩ := horigin t' q taken' ht'
  · exact objectPath_injective root (s.files.single hentry hentry')
  · exact objectPath_injective root ((hR t' q file old' hold').1.2 _ hentry)
  · exact (objectPath_injective root ((hR t p file old hold).1.2 _ hentry')).symm
  · exact hI t t' p q file old old' hold hold'

/-- The map, changed for one object. -/
theorem update_pair (m : ObjectStore) (p q : Pair) (v : Option (List UInt8)) :
    Function.update m p.ns (Function.update (m p.ns) p.id v) q.ns q.id =
      if q = p then v else m q.ns q.id := by
  obtain ⟨ns, id⟩ := p
  obtain ⟨ns', id'⟩ := q
  simp only [Function.update_apply, Pair.mk.injEq]
  split <;> rename_i hns
  · subst hns
    simp only [Function.update_apply, true_and]
  · simp [hns]

/-- **The files of the objects follow the map.** -/
theorem stored_step (hW : Writing root s) (hS : Stored root h s) (hstep : Step root s a s') :
    Stored root (h ++ [(s, a)]) s' := by
  intro q
  have hedit := hstep.edit
  rw [settled_snoc]
  generalize s'.files = f at hedit
  cases hedit with
  | none hm => rw [hm, hS q]
  | create _ ha =>
    subst ha
    rw [Files.content_create, Function.update_of_ne (tempPath_ne_objectPath _ _).symm, hS q]
    rfl
  | write ht ha =>
    subst ha
    rw [Files.content_write_of_ne, hS q]
    · rfl
    · intro hq
      exact tempPath_ne_objectPath _ _ (s.files.single (hW _ _ _ _ _ _ _ ht).1 hq)
  | @rename t p value pid counter file ht ha =>
    subst ha
    obtain ⟨hentry, hdata⟩ := hW _ _ _ _ _ _ _ ht
    have hcontent : s.files.content (tempPath root p pid counter) = some value := by
      rw [Files.content, hentry, Option.map_some, hdata]
    rw [Files.content_rename, hcontent, Function.update_apply, settle, ObjectStore.put, update_pair]
    simp only [(objectPath_injective root).eq_iff]
    split
    · rfl
    · rw [Function.update_of_ne (tempPath_ne_objectPath _ _).symm, hS q]
  | @remove t p ha =>
    subst ha
    rw [Files.content_remove, Function.update_apply, settle, ObjectStore.delete, update_pair]
    simp only [(objectPath_injective root).eq_iff]
    split
    · rfl
    · rw [hS q]

/-- What the map has was asked for. -/
def Asked (h : History Volume Action) : Prop :=
  ∀ p bytes, settled h p.ns p.id = some bytes → WasPut h p bytes

theorem asked_step (hC : Called h s) (hI : Asked h) (hstep : Step root s a s') :
    Asked (h ++ [(s, a)]) := by
  intro q bytes hq
  have hedit := hstep.edit
  rw [settled_snoc] at hq
  generalize s'.files = f at hedit
  cases hedit with
  | none hm => exact (hI q bytes (by rw [← hm (settled h), hq])).snoc
  | create _ ha | write _ ha =>
    subst ha
    exact (hI q bytes hq).snoc
  | @rename t p value pid counter file ht ha =>
    subst ha
    rw [settle, ObjectStore.put, update_pair] at hq
    split at hq
    · rename_i hqp
      obtain rfl := hqp
      obtain rfl := Option.some.inj hq
      exact (hC t q value (by rw [ht, Phase.putting])).snoc
    · exact (hI q bytes hq).snoc
  | remove ha =>
    subst ha
    rw [settle, ObjectStore.delete, update_pair] at hq
    split at hq
    · cases hq
    · exact (hI q bytes hq).snoc

/-- What holds in every run. -/
structure Inv (root : String) (h : History Volume Action) (s : Volume) : Prop where
  /-- The numbers of live writers are different. -/
  numbered : Numbered s
  /-- What is being put was asked for. -/
  called : Called h s
  /-- A writer has its file to itself. -/
  writing : Writing root s
  /-- A reader has a file that nobody writes to. -/
  reading : Reading root h s
  /-- It is read for one object. -/
  readers : Readers s
  /-- The files have what the map has. -/
  stored : Stored root h s
  /-- The map has what was asked for. -/
  asked : Asked h

theorem inv_init (blank : Blank root) : Inv root [] blank.init where
  numbered := by
    intro t t' n ht
    cases ht
  called := by
    intro t p value ht
    cases ht
  writing := by
    intro t p value pid counter file written ht
    cases ht
  reading := by
    intro t p file taken ht
    cases ht
  readers := by
    intro t t' p q file taken taken' ht
    cases ht
  stored := by
    intro p
    rw [Files.content, Blank.init, blank.clean .object]
    rfl
  asked := by
    intro p bytes hb
    cases hb

theorem inv_step (hI : Inv root h s) (hok : Unique h s a) (hstep : Step root s a s') :
    Inv root (h ++ [(s, a)]) s' where
  numbered := numbered_step hI.numbered hok hstep
  called := called_step hI.called hstep
  writing := writing_step hI.numbered hI.writing hstep
  reading := reading_step hI.writing hI.reading hI.stored hstep
  readers := readers_step hI.reading hI.readers hstep
  stored := stored_step hI.writing hI.stored hstep
  asked := asked_step hI.called hI.asked hstep

theorem inv_run {blank : Blank root} (hrun : DiskRun blank h s) : Inv root h s :=
  hrun.invariant (inv_init blank) fun _ _ _ _ _ hI hok hstep => inv_step hI hok hstep

/-! ### Whose files -/

/-- The object has the file: at one of its paths, or open for it. -/
def Held (root : String) (s : Volume) (p : Pair) (file : ℕ) : Prop :=
  (∃ path, FileOf root p path ∧ s.files.entry path = some file) ∨
    ∃ t, (s.task t).holds = some (p, file)

/-- Two disks on which the files of an object are the same, whatever the others are. -/
structure SameFiles (root : String) (p : Pair) (s s₂ : Volume) : Prop where
  /-- The threads are the same. -/
  task : s₂.task = s.task
  /-- So are the directories. -/
  dirs : s₂.dirs = s.dirs
  /-- So is the next file to be made. -/
  next : s₂.files.next = s.files.next
  /-- The object's paths lead to the same files. -/
  entry : ∀ path, FileOf root p path → s₂.files.entry path = s.files.entry path
  /-- They have the same bytes. -/
  data : ∀ file, Held root s p file → s₂.files.data file = s.files.data file

/-- A file that an object has is at one of its paths, or is being read for it. -/
theorem Inv.held_cases (hI : Inv root h s) {file : ℕ} (hp : Held root s p file) :
    (∃ path, FileOf root p path ∧ s.files.entry path = some file) ∨
      ∃ t taken, s.task t = .getRead p file taken := by
  obtain hpath | ⟨t, ht⟩ := hp
  · exact .inl hpath
  · cases htask : s.task t with
    | putWrite q value pid counter file' written =>
      rw [htask, Phase.holds, Option.some.injEq, Prod.mk.injEq] at ht
      obtain ⟨rfl, rfl⟩ := ht
      exact .inl ⟨_, .temp pid counter, (hI.writing _ _ _ _ _ _ _ htask).1⟩
    | getRead q file' taken =>
      rw [htask, Phase.holds, Option.some.injEq, Prod.mk.injEq] at ht
      obtain ⟨rfl, rfl⟩ := ht
      exact .inr ⟨t, taken, htask⟩
    | _ =>
      rw [htask] at ht
      cases ht

/-- **No file is held by two objects.** -/
theorem Inv.held_eq (hI : Inv root h s) {q : Pair} {file : ℕ} (hp : Held root s p file)
    (hq : Held root s q file) : p = q := by
  -- A file that is read for an object can only be at that object's path.
  have hread : ∀ {t p q path taken}, s.task t = .getRead p file taken → FileOf root q path →
      s.files.entry path = some file → p = q := by
    intro t p q path taken ht hpath hentry
    obtain rfl := (hI.reading t p file taken ht).1.2 path hentry
    exact FileOf.pair_eq .object hpath
  obtain ⟨path, hpath, hentry⟩ | ⟨t, taken, ht⟩ := hI.held_cases hp <;>
    obtain ⟨path', hpath', hentry'⟩ | ⟨t', taken', ht'⟩ := hI.held_cases hq
  · obtain rfl := s.files.single hentry hentry'
    exact hpath.pair_eq hpath'
  · exact (hread ht' hpath hentry).symm
  · exact hread ht hpath' hentry'
  · exact hI.readers t t' p q file taken taken' ht ht'

/-- A file that an object has after a step it had before, unless it is opened in the step. -/
theorem held_of_step (hstep : Step root s a s') {file : ℕ} (hh : Held root s' p file) :
    Held root s p file ∨ ∃ t q path, a = .openTemp t q path ∧ file = s.files.opened path := by
  obtain ⟨path, hpath, hentry⟩ | ⟨t, ht⟩ := hh
  · have hedit := hstep.edit
    generalize s'.files = f at hedit hentry
    cases hedit with
    | none _ | write _ _ => exact .inl (.inl ⟨path, hpath, hentry⟩)
    | create _ ha =>
      rw [Files.entry_create, Function.update_apply] at hentry
      split at hentry
      · exact .inr ⟨_, _, _, ha, (Option.some.inj hentry).symm⟩
      · exact .inl (.inl ⟨path, hpath, hentry⟩)
    | @rename t q _ pid counter _ _ _ =>
      simp only [Files.entry_rename, Function.update_apply] at hentry
      split at hentry
      · rename_i hobj
        obtain rfl := (hobj ▸ hpath).pair_eq (.object (p := q))
        exact .inl (.inl ⟨_, .temp pid counter, hentry⟩)
      · split at hentry
        · cases hentry
        · exact .inl (.inl ⟨path, hpath, hentry⟩)
    | remove _ =>
      rw [Files.entry_remove, Function.update_apply] at hentry
      split at hentry
      · cases hentry
      · exact .inl (.inl ⟨path, hpath, hentry⟩)
  · by_cases hc : a.Concerns t
    · cases hstep
      case openTemp =>
        obtain rfl := hc
        simp only [Volume.task_goto, Function.update_self, Phase.holds, Option.some.injEq,
          Prod.mk.injEq] at ht
        exact .inr ⟨_, _, _, rfl, ht.2.symm⟩
      case openObject hentry =>
        obtain rfl := hc
        simp only [Volume.task_goto, Function.update_self, Phase.holds, Option.some.injEq,
          Prod.mk.injEq] at ht
        obtain ⟨rfl, rfl⟩ := ht
        exact .inl (.inl ⟨_, .object, hentry⟩)
      case crash => simp [show _ = true from hc, Phase.holds] at ht
      all_goals
        refine .inl (.inr ⟨t, ?_⟩)
        obtain rfl := hc
        simp_all [Phase.holds]
    · rw [task_of_not_concerns hstep hc] at ht
      exact .inl (.inr ⟨t, ht⟩)

/-- **A step changes only files of its object.** -/
theorem content_of_step (hI : Inv root h s) (hstep : Step root s a s') {path : String}
    (hne : s'.files.content path ≠ s.files.content path) :
    ∃ p, a.pair = some p ∧ FileOf root p path := by
  have hedit := hstep.edit
  generalize s'.files = f at hedit hne
  cases hedit with
  | none _ => exact absurd rfl hne
  | @create t p _ pid counter _ ha =>
    refine ⟨p, by rw [ha, Action.pair], ?_⟩
    rw [Files.content_create, Function.update_apply] at hne
    split at hne
    · rename_i hpath
      exact hpath ▸ .temp pid counter
    · exact absurd rfl hne
  | @write t p _ pid counter file _ _ ht ha =>
    refine ⟨p, by rw [ha, Action.pair], ?_⟩
    by_contra hpath
    refine hne (s.files.content_write_of_ne (fun hentry => hpath ?_) _ _)
    rw [s.files.single hentry (hI.writing _ _ _ _ _ _ _ ht).1]
    exact .temp pid counter
  | @rename t p _ pid counter _ _ ha =>
    refine ⟨p, by rw [ha, Action.pair], ?_⟩
    simp only [Files.content_rename, Function.update_apply] at hne
    split at hne
    · rename_i hpath
      exact hpath ▸ .object
    · split at hne
      · rename_i hpath
        exact hpath ▸ .temp pid counter
      · exact absurd rfl hne
  | @remove t p ha =>
    refine ⟨p, by rw [ha, Action.pair], ?_⟩
    rw [Files.content_remove, Function.update_apply] at hne
    split at hne
    · rename_i hpath
      exact hpath ▸ .object
    · exact absurd rfl hne

/-- The paths that a step names are its object's. -/
theorem paths_of_step (hstep : Step root s a s') {path : String} (hpath : path ∈ a.paths) :
    ∃ p, a.pair = some p ∧ FileOf root p path := by
  cases hstep with
  | openTemp _ _ =>
    obtain rfl := List.mem_singleton.mp hpath
    exact ⟨_, rfl, .temp _ _⟩
  | rename _ _ =>
    obtain rfl | hpath := List.mem_cons.mp hpath
    · exact ⟨_, rfl, .temp _ _⟩
    · obtain rfl := List.mem_singleton.mp hpath
      exact ⟨_, rfl, .object⟩
  | openObject _ _ | missing _ _ | remove _ _ | absent _ _ =>
    obtain rfl := List.mem_singleton.mp hpath
    exact ⟨_, rfl, .object⟩
  | _ => cases hpath

theorem SameFiles.goto {f f₂ : Files String} {phase : Phase} (hnext : f₂.next = f.next)
    (hentry : ∀ path, FileOf root p path → f₂.entry path = f.entry path)
    (hdata : ∀ file, Held root ({ s with files := f }.goto t phase) p file →
      f₂.data file = f.data file) :
    SameFiles root p ({ s with files := f }.goto t phase) ({ s with files := f₂ }.goto t phase) :=
  ⟨rfl, rfl, hnext, hentry, hdata⟩

/-- The file that an object opens is the same one on both disks, and empty. -/
theorem SameFiles.openTemp {s₂ : Volume} {value : List UInt8} {pid : UInt32} {counter : UInt64}
    (ht : s.task t = .putTemp p value pid counter) (hdir : s.dirs p.ns = true)
    (hs : SameFiles root p s s₂) :
    ∃ s₂', Step root s₂ (.openTemp t p (tempPath root p pid counter)) s₂' ∧
      SameFiles root p ({ s with files := s.files.create (tempPath root p pid counter) }.goto t
        (.putWrite p value pid counter (s.files.opened (tempPath root p pid counter)) [])) s₂' := by
  obtain ⟨files, dirs, task⟩ := s₂
  obtain ⟨rfl, rfl, hnext, hentry, hdata⟩ := hs
  dsimp only at hnext hentry hdata
  have hopened : files.opened (tempPath root p pid counter) =
      s.files.opened (tempPath root p pid counter) := by
    rw [Files.opened, Files.opened, hentry _ (.temp pid counter), hnext]
  refine ⟨_, .openTemp ht hdir, ?_, ?_, ?_, ?_, ?_⟩
  · simp only [Volume.task_goto, hopened]
  · simp only [Volume.dirs_goto]
  · simp only [Volume.files_goto, Files.next_create, hnext, hopened]
  · intro path hpath
    simp only [Volume.files_goto, Files.entry_create, Function.update_apply, hopened,
      hentry path hpath]
  · intro file hh
    simp only [Volume.files_goto, Files.data_create, Function.update_apply, hopened]
    split
    · rfl
    · rename_i hfile
      obtain hold | ⟨t', q', path, ha, rfl⟩ := held_of_step (.openTemp ht hdir) hh
      · exact hdata file hold
      · cases ha
        exact absurd rfl hfile

/-- **A step reads only files of its object**: on a disk with the same ones, it is taken as well,
and leaves the same ones. -/
theorem SameFiles.step {s₂ : Volume} (hstep : Step root s a s') (hp : a.pair = some p)
    (hs : SameFiles root p s s₂) : ∃ s₂', Step root s₂ a s₂' ∧ SameFiles root p s' s₂' := by
  obtain ⟨files, dirs, task⟩ := s₂
  obtain ⟨rfl, rfl, hnext, hentry, hdata⟩ := hs
  dsimp only at hnext hentry hdata
  have hkeep : (∀ t q path, a ≠ .openTemp t q path) →
      ∀ file, Held root s' p file → files.data file = s.files.data file := by
    intro hne file hh
    obtain hold | ⟨t, q, path, ha, -⟩ := held_of_step hstep hh
    · exact hdata file hold
    · exact absurd ha (hne t q path)
  cases hstep with
  | put ht => exact ⟨_, .put ht, rfl, rfl, hnext, hentry, hkeep (by simp)⟩
  | createDir ht => exact ⟨_, .createDir ht, rfl, rfl, hnext, hentry, hkeep (by simp)⟩
  | number ht => exact ⟨_, .number ht, rfl, rfl, hnext, hentry, hkeep (by simp)⟩
  | openTemp ht hdir =>
    obtain rfl := Option.some.inj hp
    exact SameFiles.openTemp ht hdir ⟨rfl, rfl, hnext, hentry, hdata⟩
  | @write t q value pid counter file written chunk ht hchunk =>
    obtain rfl := Option.some.inj hp
    have hown := hdata file (.inr ⟨t, by rw [ht, Phase.holds]⟩)
    refine ⟨_, .write ht hchunk, rfl, rfl, hnext, hentry, ?_⟩
    intro file' hh
    simp only [Volume.files_goto, Files.data_write, Function.update_apply, hown]
    rw [hkeep (by simp) file' hh]
  | @rename t q value pid counter file ht hthere =>
    obtain rfl := Option.some.inj hp
    have htemp := hentry _ (.temp pid counter)
    rw [← htemp] at hthere
    refine ⟨_, .rename ht hthere, .goto hnext ?_ (hkeep (by simp))⟩
    intro path hpath
    simp only [Files.entry_rename, Function.update_apply, htemp, hentry path hpath]
  | get ht => exact ⟨_, .get ht, rfl, rfl, hnext, hentry, hkeep (by simp)⟩
  | openObject ht hthere =>
    obtain rfl := Option.some.inj hp
    exact ⟨_, .openObject ht ((hentry _ .object).trans hthere), rfl, rfl, hnext, hentry,
      hkeep (by simp)⟩
  | missing ht hthere =>
    obtain rfl := Option.some.inj hp
    exact ⟨_, .missing ht ((hentry _ .object).trans hthere), rfl, rfl, hnext, hentry,
      hkeep (by simp)⟩
  | @read t q file taken chunk ht hchunk =>
    obtain rfl := Option.some.inj hp
    rw [← hdata file (.inr ⟨t, by rw [ht, Phase.holds]⟩)] at hchunk
    exact ⟨_, .read ht hchunk, rfl, rfl, hnext, hentry, hkeep (by simp)⟩
  | @returned t q file taken ht hend =>
    obtain rfl := Option.some.inj hp
    rw [← hdata file (.inr ⟨t, by rw [ht, Phase.holds]⟩)] at hend
    exact ⟨_, .returned ht hend, rfl, rfl, hnext, hentry, hkeep (by simp)⟩
  | delete ht => exact ⟨_, .delete ht, rfl, rfl, hnext, hentry, hkeep (by simp)⟩
  | remove ht hthere =>
    obtain rfl := Option.some.inj hp
    rw [← hentry _ .object] at hthere
    refine ⟨_, .remove ht hthere, .goto hnext ?_ (hkeep (by simp))⟩
    intro path hpath
    simp only [Files.entry_remove, Function.update_apply, hentry path hpath]
  | absent ht hthere =>
    obtain rfl := Option.some.inj hp
    exact ⟨_, .absent ht ((hentry _ .object).trans hthere), rfl, rfl, hnext, hentry,
      hkeep (by simp)⟩
  | fail => cases hp
  | crash => cases hp

/-! ### The register -/

/-- What a step shows of the store: each object is an atomic register, in files of its own. -/
structure Atomic (root : String) (h : History Volume Action) (s : Volume) (a : Action)
    (s' : Volume) : Prop where
  /-- A `get` that finds no file returns `None`, as the map has nothing. -/
  missing : ∀ t p path, a = .missing t p path → settled h p.ns p.id = none
  /-- A `get` that returns bytes has looked while the map had them, and some `put` of the object was
  called with all of them. -/
  returned : ∀ t p bytes, a = .returned t p bytes → Looked h t p bytes ∧ WasPut h p bytes
  /-- The map is what the files have. -/
  decided : ∀ p, s'.files.content (objectPath root p) = settled (h ++ [(s, a)]) p.ns p.id
  /-- Only files of the step's object are changed. -/
  changes : ∀ path, s'.files.content path ≠ s.files.content path →
    ∃ p, a.pair = some p ∧ FileOf root p path
  /-- Only files of the step's object are read: the step is taken in the same way whatever the
  others are. -/
  reads : ∀ p s₂, a.pair = some p → SameFiles root p s s₂ →
    ∃ s₂', Step root s₂ a s₂' ∧ SameFiles root p s' s₂'
  /-- No file, at a path or open, is of two objects. -/
  apart : ∀ p q file, Held root s p file → Held root s q file → p = q
  /-- Every path is the object's, directly inside the directory of its namespace. -/
  confined : ∀ path ∈ a.paths, ∃ p, a.pair = some p ∧ FileOf root p path ∧
    DirectlyIn (namespaceDir root p.ns) path ∧ DirectlyIn root (namespaceDir root p.ns)

/-- A `get` that is at the end of the file has all of it. -/
theorem returned_of_step (hI : Inv root h s) (hstep : Step root s (.returned t p bytes) s') :
    Looked h t p bytes := by
  cases hstep with
  | returned ht hend =>
    obtain ⟨-, hpre, hlook⟩ := hI.reading _ _ _ _ ht
    rwa [hpre.eq_of_length_le hend]

/-- What a `get` goes by was put. -/
theorem Looked.wasPut {blank : Blank root} (hrun : DiskRun blank h s) (hlook : Looked h t p bytes) :
    WasPut h p bytes := by
  obtain ⟨h₁, u, path, h₂, rfl, -, hm⟩ := hlook
  obtain ⟨-, hrun₁, -⟩ := hrun.split
  obtain ⟨v, t', hput⟩ := (inv_run hrun₁).asked p bytes hm
  exact ⟨v, t', List.mem_append_left _ hput⟩

/-- **The disk store is an atomic register for each object**, and keeps to its files. -/
theorem atomic_register {blank : Blank root} (hrun : DiskRun blank h s) (hok : Unique h s a)
    (hstep : Step root s a s') :
    Atomic root h s a s' ∧ ∀ p q path, FileOf root p path → FileOf root q path → p = q := by
  have hI := inv_run hrun
  refine ⟨⟨?_, ?_, ?_, ?_, ?_, ?_, ?_⟩, fun p q path hp hq => hp.pair_eq hq⟩
  · rintro t p path rfl
    cases hstep with
    | missing _ hnone => rw [← hI.stored p, Files.content, hnone, Option.map_none]
  · rintro t p bytes rfl
    have hlook := returned_of_step hI hstep
    exact ⟨hlook, hlook.wasPut hrun⟩
  · exact (inv_step hI hok hstep).stored
  · exact fun path hne => content_of_step hI hstep hne
  · exact fun p s₂ hp hs => hs.step hstep hp
  · exact fun p q file hp hq => hI.held_eq hp hq
  · intro path hpath
    obtain ⟨p, hp, hfile⟩ := paths_of_step hstep hpath
    exact ⟨p, hp, hfile, hfile.directlyIn⟩

/-! ### A run -/

/-- A run can be continued by any step that gives no number. -/
theorem exists_run_next {blank : Blank root} (hrun : ∃ h, DiskRun blank h s)
    (hstep : Step root s a s') (ha : ∀ t p pid counter, a ≠ .number t p pid counter) :
    ∃ h, DiskRun blank h s' := by
  obtain ⟨h, hrun⟩ := hrun
  exact ⟨_, hrun.next (fun t p pid counter heq => absurd heq (ha t p pid counter)) hstep⟩

/-- A `put` that is left alone stores its value. -/
theorem exists_put {blank : Blank root} (hrun : ∃ h, DiskRun blank h s)
    (hidle : ∀ t, s.task t = .idle) (t : ℕ) (p : Pair) (value : List UInt8) :
    ∃ s', (∃ h, DiskRun blank h s') ∧ s'.task t = .idle ∧
      s'.files.content (objectPath root p) = some value := by
  have r := exists_run_next hrun (@Step.put _ _ t p value (hidle t)) (by simp)
  obtain ⟨h, r⟩ := exists_run_next r (@Step.createDir _ _ t p value (by simp)) (by simp)
  have r := r.next ?_ (@Step.number _ _ t p value 0 0 (by simp))
  · have r := exists_run_next ⟨_, r⟩ (@Step.openTemp _ _ t p value 0 0 (by simp) (by simp))
      (by simp)
    have r := exists_run_next r (@Step.write _ _ t p value 0 0 _ [] value (by simp; rfl) (by simp))
      (by simp)
    obtain ⟨h, r⟩ := r
    have r := r.next (by simp [Unique]) (@Step.rename _ _ t p value 0 0 _ (by simp; rfl) (by simp))
    refine ⟨_, ⟨_, r⟩, by simp, ?_⟩
    rw [(inv_run r).stored p, settled_snoc, settle, ObjectStore.put, update_pair, if_pos rfl]
  · -- No other thread is in a call.
    intro t₁ p₁ pid counter _ t'
    obtain rfl | ht := eq_or_ne t' t
    · simp [Phase.number]
    · simp [ht, hidle, Phase.number]

/-- A `get` that is left alone returns what the file has. -/
theorem exists_get {blank : Blank root} (hrun : ∃ h, DiskRun blank h s) (hidle : s.task t = .idle)
    (hc : s.files.content (objectPath root p) = some bytes) :
    ∃ h s₁ s₂, DiskRun blank h s₁ ∧ Step root s₁ (.returned t p bytes) s₂ := by
  obtain ⟨file, hentry, rfl⟩ := Option.map_eq_some_iff.mp hc
  have r := exists_run_next hrun (@Step.get _ _ t p hidle) (by simp)
  have r := exists_run_next r (@Step.openObject _ _ t p file (by simp) hentry) (by simp)
  have r := exists_run_next r (@Step.read _ _ t p file [] (s.files.data file) (by simp) (by simp))
    (by simp)
  obtain ⟨h, r⟩ := r
  exact ⟨h, _, _, r, .returned (by simp) le_rfl⟩

namespace Sample

/-- An entry of the namespace `n`. -/
def pairOne : Pair :=
  ⟨⟨"n", by decide, by decide, by decide, by decide⟩, ⟨Vector.replicate 16 0⟩⟩

/-- An empty disk. -/
def blankOne : Blank "root" where
  files := ⟨fun _ => none, fun _ => [], 0, by simp, by simp⟩
  dirs := fun _ => false
  clean := fun _ => rfl

end Sample

open Semisweet.Core.DiskObjectStore.Sample in
/-- A value is put, and read back. -/
theorem atomic_register_put_get : ∃ h s s', DiskRun blankOne h s ∧
    Step "root" s (.returned 0 pairOne [1]) s' ∧ Looked h 0 pairOne [1] ∧
      WasPut h pairOne [1] := by
  have hrun : ∃ h, DiskRun blankOne h blankOne.init := ⟨_, .start⟩
  obtain ⟨u, hrun, hidle, hc⟩ := exists_put hrun (fun _ => rfl) 0 pairOne [1]
  obtain ⟨h, s, s', hrun, hstep⟩ := exists_get hrun hidle hc
  obtain ⟨hreg, -⟩ := atomic_register hrun (by simp [Unique]) hstep
  exact ⟨h, s, s', hrun, hstep, hreg.returned 0 pairOne [1] rfl⟩

end DiskObjectStore

end Semisweet.Core
