import Semisweet.Foundations.Locks
import Semisweet.Foundations.Runs

/-!
# One daemon per socket

`run_orphan` (`src/daemon/mod.rs`): a daemon process takes the instance lock or stands down,
clears a stale socket away, writes the pid file, serves, and removes both files on its way
out; the lock is released last. Any number of processes do this at once, on one lock and one
pair of files.

## The model

The lock is exclusive, and is released when its holder returns, unwinds or dies. The socket
and the pid file may be left over from before. A step is one call on the lock or on a file:

* `try_write` takes a free lock; on a lock that is held the process stands down, and on an
  error of another kind it returns as well.
* `socket.exists()` and the `remove_file` after it are two steps, and so are the two
  `remove_file`s at the end, each of which may fail.
* `bind` needs that there is no file; when it fails, `run` has returned, and the process goes on
  to remove the files.
* An error or a panic drops the lock's guard at any point, and a `kill -9` ends the process at any
  point. Both leave the files.

## What is proved

* `exclusive_run` — every process between its `try_write` and its exit holds the lock;
  `held_run`, and nobody else does.
* `files_run` — a process that listens has its socket and its pid file in place.
* `single_instance` — at most one process is between its bind and its exit, and no process unlinks
  the socket of another that is.
-/

namespace Semisweet.Daemon

open Semisweet.Foundations

/-- Where a daemon process is in `run_orphan`. -/
inductive Process where
  /-- It is not there yet. -/
  | absent
  /-- Before `try_write`. -/
  | starting
  /-- It has the lock. -/
  | locked
  /-- There is a socket to remove. -/
  | stale
  /-- There is none. -/
  | clean
  /-- The pid file is written. -/
  | ready
  /-- In `run`, with the socket bound. -/
  | serving
  /-- In `run`, with the loop left. -/
  | draining
  /-- `run` has returned, and its listener is gone. -/
  | stopped
  /-- The socket is removed. -/
  | unlinked
  /-- The pid file is removed. -/
  | unpidded
  /-- It has returned. -/
  | exited
  /-- It was killed. -/
  | dead
  deriving DecidableEq

/-- It is between its `try_write` and its exit. -/
def Process.Holding : Process → Prop
  | .absent | .starting | .exited | .dead => False
  | _ => True

/-- It is between its bind and its exit. -/
def Process.Bound : Process → Prop
  | .serving | .draining | .stopped | .unlinked | .unpidded => True
  | _ => False

/-- Its listener is open. -/
def Process.Listening : Process → Prop
  | .serving | .draining => True
  | _ => False

/-- It has written the pid file, and not removed it. -/
def Process.Named : Process → Prop
  | .ready | .serving | .draining | .stopped | .unlinked => True
  | _ => False

/-- A file that a process makes. -/
inductive File where
  /-- There is none. -/
  | missing
  /-- It was there before. -/
  | leftover
  /-- The process made it. -/
  | made (p : ℕ)
  deriving DecidableEq

/-- The processes, and what they share. -/
structure Host where
  /-- The processes. -/
  process : ℕ → Process
  /-- Who holds the instance lock. -/
  lock : Option ℕ
  /-- The socket. -/
  socket : File
  /-- The pid file. -/
  pid : File

/-- Nobody is there; the files may be. -/
def Host.init (socket pid : File) : Host := ⟨fun _ => .absent, none, socket, pid⟩

/-- Process `p` goes on to `x`. -/
def Host.toProcess (s : Host) (p : ℕ) (x : Process) : Host :=
  { s with process := Function.update s.process p x }

/-- A file, once `remove_file` has been called on it, and has worked or not. -/
def File.removed (file : File) (ok : Bool) : File := if ok then .missing else file

/-- What is done, and by which process. -/
inductive HostAction where
  /-- The process starts. -/
  | start (p : ℕ)
  /-- The lock file cannot be opened, or the lock not be tried. -/
  | openFailed (p : ℕ)
  /-- `try_write` takes the lock. -/
  | lock (p : ℕ)
  /-- `try_write` finds the lock held. -/
  | standDown (p : ℕ)
  /-- `socket.exists()`. -/
  | probe (p : ℕ)
  /-- `remove_file`, of a stale socket. -/
  | remove (p : ℕ)
  /-- The pid file is written. -/
  | writePid (p : ℕ)
  /-- `bind`. -/
  | bind (p : ℕ)
  /-- `bind` fails. -/
  | bindFailed (p : ℕ)
  /-- The loop of `run` is left. -/
  | leave (p : ℕ)
  /-- `run` returns. -/
  | stop (p : ℕ)
  /-- `remove_file`, of the socket. -/
  | unlink (p : ℕ) (ok : Bool)
  /-- `remove_file`, of the pid file. -/
  | unlinkPid (p : ℕ) (ok : Bool)
  /-- `run_orphan` returns. -/
  | release (p : ℕ)
  /-- An error or a panic. -/
  | fail (p : ℕ)
  /-- `kill -9`. -/
  | kill (p : ℕ)

/-- The process that removes a socket with this. -/
def HostAction.unlinks : HostAction → Option ℕ
  | .remove p | .unlink p _ => some p
  | _ => none

/-- One step of a process. -/
inductive HostStep : Host → HostAction → Host → Prop
  /-- `run_daemon`. -/
  | start {s : Host} {p : ℕ} :
      s.process p = .absent → HostStep s (.start p) (s.toProcess p .starting)
  /-- It returns. -/
  | openFailed {s : Host} {p : ℕ} :
      s.process p = .starting → HostStep s (.openFailed p) (s.toProcess p .exited)
  /-- The lock is free. -/
  | lock {s : Host} {p : ℕ} :
      s.process p = .starting → s.lock = none →
        HostStep s (.lock p) ({ s with lock := some p }.toProcess p .locked)
  /-- The lock is held. -/
  | standDown {s : Host} {p : ℕ} :
      s.process p = .starting → s.lock ≠ none → HostStep s (.standDown p) (s.toProcess p .exited)
  /-- Is there a socket? -/
  | probe {s : Host} {p : ℕ} :
      s.process p = .locked →
        HostStep s (.probe p) (s.toProcess p (if s.socket = .missing then .clean else .stale))
  /-- There was. -/
  | remove {s : Host} {p : ℕ} :
      s.process p = .stale → s.socket ≠ .missing →
        HostStep s (.remove p) ({ s with socket := .missing }.toProcess p .clean)
  /-- `fs::write`. -/
  | writePid {s : Host} {p : ℕ} :
      s.process p = .clean → HostStep s (.writePid p) ({ s with pid := .made p }.toProcess p .ready)
  /-- The socket is made. -/
  | bind {s : Host} {p : ℕ} :
      s.process p = .ready → s.socket = .missing →
        HostStep s (.bind p) ({ s with socket := .made p }.toProcess p .serving)
  /-- `run` returns at once. -/
  | bindFailed {s : Host} {p : ℕ} :
      s.process p = .ready → HostStep s (.bindFailed p) (s.toProcess p .stopped)
  /-- It waits for the queue. -/
  | leave {s : Host} {p : ℕ} :
      s.process p = .serving → HostStep s (.leave p) (s.toProcess p .draining)
  /-- The listener is dropped. -/
  | stop {s : Host} {p : ℕ} :
      s.process p = .draining → HostStep s (.stop p) (s.toProcess p .stopped)
  /-- Its error is ignored. -/
  | unlink {s : Host} {p : ℕ} {ok : Bool} :
      s.process p = .stopped →
        HostStep s (.unlink p ok) ({ s with socket := s.socket.removed ok }.toProcess p .unlinked)
  /-- Its error is ignored. -/
  | unlinkPid {s : Host} {p : ℕ} {ok : Bool} :
      s.process p = .unlinked →
        HostStep s (.unlinkPid p ok) ({ s with pid := s.pid.removed ok }.toProcess p .unpidded)
  /-- The lock is released. -/
  | release {s : Host} {p : ℕ} :
      s.process p = .unpidded →
        HostStep s (.release p) ({ s with lock := none }.toProcess p .exited)
  /-- The lock is released, and the files stay. -/
  | fail {s : Host} {p : ℕ} :
      (s.process p).Holding → HostStep s (.fail p) ({ s with lock := none }.toProcess p .exited)
  /-- The lock is released if it was held, and the files stay. -/
  | kill {s : Host} {p : ℕ} :
      s.process p = .starting ∨ (s.process p).Holding →
        HostStep s (.kill p)
          ({ s with lock := if s.lock = some p then none else s.lock }.toProcess p .dead)

/-- The runs of the processes, under a condition on their steps. -/
def HostRun (ok : Guard Host HostAction) (h : History Host HostAction) (s : Host) : Prop :=
  ∃ socket pid, Run HostStep (Host.init socket pid) ok h s

variable {s s' : Host} {a : HostAction} {h : History Host HostAction} {ok : Guard Host HostAction}

/-! ### The lock -/

/-- Every process between its `try_write` and its exit holds the lock. -/
def Exclusive (s : Host) : Prop := Guards s.lock Process.Holding s.process

theorem exclusive_step (hI : Exclusive s) (hstep : HostStep s a s') : Exclusive s' := by
  cases hstep with
  | lock _ hfree =>
    rw [Exclusive, hfree] at hI
    exact hI.acquire
  | @release p hp =>
    have hheld := hI p (by rw [hp]; trivial)
    rw [Exclusive, hheld] at hI
    exact hI.release id
  | @fail p hp =>
    have hheld := hI p hp
    rw [Exclusive, hheld] at hI
    exact hI.release id
  | @kill p _ =>
    by_cases hheld : s.lock = some p
    · rw [Exclusive, hheld] at hI
      simp only [Exclusive, hheld, if_pos]
      exact hI.release id
    · simp only [Exclusive, hheld, if_false]
      exact hI.move fun hx => hx.elim
  | @start p _ | @openFailed p _ | @standDown p _ _ => exact hI.move fun hx => hx.elim
  | @probe p hp | @remove p hp _ | @writePid p hp | @bind p hp _ | @bindFailed p hp | @leave p hp
  | @stop p hp | @unlink p _ hp | @unlinkPid p _ hp =>
    exact hI.move fun _ => hI p (by rw [hp]; trivial)

theorem exclusive_init (socket pid : File) : Exclusive (Host.init socket pid) :=
  fun _ hp => False.elim hp

theorem exclusive_run (hrun : HostRun ok h s) : Exclusive s := by
  obtain ⟨socket, pid, hrun⟩ := hrun
  exact hrun.invariant_state (exclusive_init socket pid)
    fun _ _ _ _ hI _ hstep => exclusive_step hI hstep

/-- Who has the lock is between its `try_write` and its exit. -/
theorem held_step (hH : Held s.lock Process.Holding s.process) (hstep : HostStep s a s') :
    Held s'.lock Process.Holding s'.process := by
  cases hstep with
  | lock _ _ => exact Held.acquire trivial
  | release _ | fail _ => exact Held.free
  | @kill p _ =>
    by_cases hheld : s.lock = some p
    · simp only [hheld, if_pos]
      exact Held.free
    · simp only [hheld, if_false]
      intro q hq
      have hqp : q ≠ p := fun hqp => hheld (hqp ▸ hq)
      simpa [Host.toProcess, hqp] using hH q hq
  | @start p hp | @openFailed p hp | @standDown p hp _ =>
    exact hH.move fun hx => by
      rw [hp] at hx
      exact hx.elim
  | probe _ =>
    refine hH.move fun _ => ?_
    split <;> trivial
  | remove _ _ | writePid _ | bind _ _ | bindFailed _ | leave _ | stop _ | unlink _ | unlinkPid _ =>
    exact hH.move fun _ => trivial

theorem held_run (hrun : HostRun ok h s) : Held s.lock Process.Holding s.process := by
  obtain ⟨socket, pid, hrun⟩ := hrun
  exact hrun.invariant_state (I := fun s => Held s.lock Process.Holding s.process) Held.free
    fun _ _ _ _ hH _ hstep => held_step hH hstep

/-! ### The files -/

theorem Process.Bound.holding {x : Process} (hx : x.Bound) : x.Holding := by
  cases x <;> first | exact hx.elim | trivial

theorem Process.Listening.holding {x : Process} (hx : x.Listening) : x.Holding := by
  cases x <;> first | exact hx.elim | trivial

theorem Process.Named.holding {x : Process} (hx : x.Named) : x.Holding := by
  cases x <;> first | exact hx.elim | trivial

/-- Who listens has its socket in place, and who has written the pid file has that. -/
structure Files (s : Host) : Prop where
  /-- The socket. -/
  socket : ∀ p, (s.process p).Listening → s.socket = .made p
  /-- The pid file. -/
  pid : ∀ p, (s.process p).Named → s.pid = .made p

/-- Process `p` goes on: what it needs of the files is there, and what the others need. -/
theorem Files.toProcess {t : Host} {p : ℕ} {x : Process}
    (hself : (x.Listening → t.socket = .made p) ∧ (x.Named → t.pid = .made p))
    (hother : ∀ q, q ≠ p → ((t.process q).Listening → t.socket = .made q) ∧
      ((t.process q).Named → t.pid = .made q)) : Files (t.toProcess p x) := by
  have hall : ∀ q, (((t.toProcess p x).process q).Listening → t.socket = .made q) ∧
      (((t.toProcess p x).process q).Named → t.pid = .made q) := by
    intro q
    by_cases hq : q = p
    · subst hq
      simpa [Host.toProcess] using hself
    · simpa [Host.toProcess, hq] using hother q hq
  exact ⟨fun q => (hall q).1, fun q => (hall q).2⟩

/-- A process with the lock may do what it likes to the files: nobody else needs them. -/
theorem Files.alone (hE : Exclusive s) {p : ℕ} {x : Process} {t : Host}
    (hp : (s.process p).Holding) (ht : t.process = s.process)
    (hself : (x.Listening → t.socket = .made p) ∧ (x.Named → t.pid = .made p)) :
    Files (t.toProcess p x) := by
  refine Files.toProcess hself fun q hq => ?_
  have hno : ¬ (t.process q).Holding := fun hh => hq (hE.unique (ht ▸ hh) hp)
  exact ⟨fun hx => absurd hx.holding hno, fun hx => absurd hx.holding hno⟩

/-- A process that leaves the files alone takes nothing from the others. -/
theorem Files.move (hI : Files s) {p : ℕ} {x : Process} (lock : Option ℕ)
    (hself : (x.Listening → s.socket = .made p) ∧ (x.Named → s.pid = .made p)) :
    Files ({ s with lock := lock }.toProcess p x) :=
  Files.toProcess hself fun q _ => ⟨hI.socket q, hI.pid q⟩

theorem files_step (hE : Exclusive s) (hI : Files s) (hstep : HostStep s a s') : Files s' := by
  cases hstep with
  | probe _ => split <;> exact hI.move s.lock ⟨False.elim, False.elim⟩
  | @remove p hp _ => exact .alone hE (by rw [hp]; trivial) rfl ⟨False.elim, False.elim⟩
  | @writePid p hp => exact .alone hE (by rw [hp]; trivial) rfl ⟨False.elim, fun _ => rfl⟩
  | @bind p hp _ =>
    exact .alone hE (by rw [hp]; trivial) rfl
      ⟨fun _ => rfl, fun _ => hI.pid p (by rw [hp]; trivial)⟩
  | @bindFailed p hp =>
    exact hI.move s.lock ⟨False.elim, fun _ => hI.pid p (by rw [hp]; trivial)⟩
  | @leave p hp =>
    exact hI.move s.lock
      ⟨fun _ => hI.socket p (by rw [hp]; trivial), fun _ => hI.pid p (by rw [hp]; trivial)⟩
  | @stop p hp =>
    exact hI.move s.lock ⟨False.elim, fun _ => hI.pid p (by rw [hp]; trivial)⟩
  | @unlink p _ hp =>
    exact .alone hE (by rw [hp]; trivial) rfl
      ⟨False.elim, fun _ => hI.pid p (by rw [hp]; trivial)⟩
  | @unlinkPid p _ hp => exact .alone hE (by rw [hp]; trivial) rfl ⟨False.elim, False.elim⟩
  | _ => exact hI.move _ ⟨False.elim, False.elim⟩

theorem files_init (socket pid : File) : Files (Host.init socket pid) :=
  ⟨fun _ hp => False.elim hp, fun _ hp => False.elim hp⟩

/-- **The files are whose they should be**, in every run. -/
theorem files_run (hrun : HostRun ok h s) : Files s := by
  obtain ⟨socket, pid, hrun⟩ := hrun
  refine (hrun.invariant_state (I := fun s => Exclusive s ∧ Files s)
    ⟨exclusive_init socket pid, files_init socket pid⟩
    fun _ _ _ _ hI _ hstep => ?_).2
  exact ⟨exclusive_step hI.1 hstep, files_step hI.1 hI.2 hstep⟩

/-- Only a process with the lock removes a socket. -/
theorem holding_of_unlinks {p : ℕ} (hstep : HostStep s a s') (ha : a.unlinks = some p) :
    (s.process p).Holding := by
  cases hstep with
  | remove hp _ | unlink hp =>
    obtain rfl := Option.some.inj ha
    rw [hp]
    trivial
  | _ => cases ha

/-- **One daemon per socket.** In every state that is reached, at most one process is between its
bind and its exit, and no step removes a socket that was bound by another process that is
there. -/
theorem single_instance (hrun : HostRun ok h s) :
    (∀ p q, (s.process p).Bound → (s.process q).Bound → p = q) ∧
      ∀ a s' p q, HostStep s a s' → a.unlinks = some p → s.socket = .made q →
        (s.process q).Bound → q = p := by
  have hE := exclusive_run hrun
  refine ⟨fun p q hp hq => hE.unique hp.holding hq.holding, fun a s' p q hstep ha _ hq => ?_⟩
  exact hE.unique hq.holding (holding_of_unlinks hstep ha)

/-- A daemon is killed, and the next one removes its socket. -/
theorem single_instance_recovery : ∃ (h : History Host HostAction) (s s' : Host),
    HostRun Always h s ∧ s.socket = .made 0 ∧ HostStep s (.remove 1) s' ∧
      ¬ (s.process 0).Bound := by
  have h₀ : Run HostStep (Host.init .missing .missing) Always [] _ := .start
  have h₁ := h₀.next trivial (.start (p := 0) rfl)
  have h₂ := h₁.next trivial (.lock (p := 0) rfl rfl)
  have h₃ := h₂.next trivial (.probe (p := 0) rfl)
  have h₄ := h₃.next trivial (.writePid (p := 0) rfl)
  have h₅ := h₄.next trivial (.bind (p := 0) rfl rfl)
  have h₆ := h₅.next trivial (.kill (p := 0) (.inr trivial))
  have h₇ := h₆.next trivial (.start (p := 1) rfl)
  have h₈ := h₇.next trivial (.lock (p := 1) rfl rfl)
  have h₉ := h₈.next trivial (.probe (p := 1) rfl)
  refine ⟨_, _, _, ⟨_, _, h₉⟩, rfl, .remove rfl (by decide), fun hb => ?_⟩
  have h01 := (single_instance ⟨_, _, h₉⟩).2 _ _ 1 0 (.remove rfl (by decide)) rfl rfl hb
  cases h01

end Semisweet.Daemon
