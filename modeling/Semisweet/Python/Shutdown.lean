import Semisweet.Daemon.Instance

/-!
# What `shutdown_daemon` answers

`shutdown` (`src/python.rs`): a client reads the pid file, signals the process that it names,
and polls until the socket and the pid file are gone or five seconds have passed. It answers
`True` "if a running daemon was signaled", and `False` "if none was running". The daemons are
those of `Daemon.Instance`: they start, stop and die while the client looks, and other clients
do the same.

## The model

A call of `shutdown` reads the file, signals, and looks for one file and then for the other, in
steps of their own.

* A pid file that is being written may hold less than a pid. It is read like one that was left
  there: it may not parse, and it may name any process.
* `kill` finds a process that has not ended. The pid of one that has may be free, or may have
  been given to another.
* What SIGTERM does, a daemon does in its own time: it leaves its loop, or it is killed, if it has
  no handler yet.
* A call may return an error anywhere.

## What is proved

* `stage_step` — a process never goes back.
* `quiet_of_named` — when a daemon takes its pid file away, or dies, no other one is running.
* `shutdown_told` — `False` is answered only if during the call no daemon was running; `True`
  before the deadline, only if none was after the signal, and the process that was signalled has
  stopped for good. `late_listens`: `True` at the deadline does not mean so much.
-/

namespace Semisweet.Python

open Semisweet.Foundations Semisweet.Daemon

/-- Where a call of `shutdown` is. What it has read is kept. -/
inductive Stopper where
  /-- It is not made yet. -/
  | absent
  /-- Before `read_to_string`. -/
  | reading
  /-- Before `kill`. -/
  | read (file : File)
  /-- In the poll loop, before `socket.exists()`. -/
  | polling (file : File)
  /-- In the poll loop, before `pid_path.exists()`. -/
  | confirming (file : File)
  /-- It has returned, with no process signalled. -/
  | unsignaled
  /-- It has returned, with both files gone. -/
  | gone (file : File)
  /-- It has returned at the deadline. -/
  | late (file : File)
  /-- It has returned an error. -/
  | failed
  deriving DecidableEq

/-- What a call has answered. -/
def Stopper.stopped : Stopper → Option Bool
  | .unsignaled => some false
  | .gone _ | .late _ => some true
  | _ => none

/-- The clients that stop daemons, and the daemons. -/
structure Scene where
  /-- The daemons. -/
  host : Host
  /-- The calls of `shutdown`. -/
  stopper : ℕ → Stopper

/-- Nobody is there; the files may be. -/
def Scene.init (socket pid : File) : Scene := ⟨.init socket pid, fun _ => .absent⟩

/-- Call `c` goes on to `x`. -/
def Scene.toStopper (s : Scene) (c : ℕ) (x : Stopper) : Scene :=
  { s with stopper := Function.update s.stopper c x }

/-- `kill` finds it. -/
def Alive : Process → Prop
  | .absent | .exited | .dead => False
  | _ => True

/-- What is done. -/
inductive SceneAction where
  /-- A step of a daemon. -/
  | host (a : HostAction)
  /-- `shutdown` is called. -/
  | call (c : ℕ)
  /-- `read_to_string`. -/
  | read (c : ℕ)
  /-- `parse` and `kill`. -/
  | signal (c : ℕ) (signaled : Bool)
  /-- `socket.exists()`. -/
  | probeSocket (c : ℕ)
  /-- `pid_path.exists()`. -/
  | probePid (c : ℕ)
  /-- The deadline has passed. -/
  | deadline (c : ℕ)
  /-- An error. -/
  | fail (c : ℕ)

/-- One step of a client or of a daemon. -/
inductive SceneStep : Scene → SceneAction → Scene → Prop
  /-- A daemon. -/
  | host {s : Scene} {a : HostAction} {t : Host} :
      HostStep s.host a t → SceneStep s (.host a) { s with host := t }
  /-- A client. -/
  | call {s : Scene} {c : ℕ} :
      s.stopper c = .absent → SceneStep s (.call c) (s.toStopper c .reading)
  /-- `ErrorKind::NotFound`. -/
  | missing {s : Scene} {c : ℕ} :
      s.stopper c = .reading → s.host.pid = .missing →
        SceneStep s (.read c) (s.toStopper c .unsignaled)
  /-- `Ok(raw)`. -/
  | read {s : Scene} {c : ℕ} :
      s.stopper c = .reading → s.host.pid ≠ .missing →
        SceneStep s (.read c) (s.toStopper c (.read s.host.pid))
  /-- `Ok(raw)`, in the middle of `fs::write`. -/
  | torn {s : Scene} {c p : ℕ} :
      s.stopper c = .reading → s.host.process p = .clean →
        SceneStep s (.read c) (s.toStopper c (.read .leftover))
  /-- `Ok(())`. -/
  | signaled {s : Scene} {c : ℕ} {file : File} :
      s.stopper c = .read file → SceneStep s (.signal c true) (s.toStopper c (.polling file))
  /-- `ESRCH`, or no pid. -/
  | unsignaled {s : Scene} {c : ℕ} {file : File} :
      s.stopper c = .read file → (∀ p, file = .made p → ¬ Alive (s.host.process p)) →
        SceneStep s (.signal c false) (s.toStopper c .unsignaled)
  /-- The socket is there, or not. -/
  | probeSocket {s : Scene} {c : ℕ} {file : File} :
      s.stopper c = .polling file →
        SceneStep s (.probeSocket c)
          (s.toStopper c (if s.host.socket = .missing then .confirming file else .polling file))
  /-- The pid file is there, or not. -/
  | probePid {s : Scene} {c : ℕ} {file : File} :
      s.stopper c = .confirming file →
        SceneStep s (.probePid c)
          (s.toStopper c (if s.host.pid = .missing then .gone file else .polling file))
  /-- `Ok(true)`. -/
  | deadline {s : Scene} {c : ℕ} {file : File} :
      s.stopper c = .polling file → SceneStep s (.deadline c) (s.toStopper c (.late file))
  /-- `Err`. -/
  | fail {s : Scene} {c : ℕ} :
      s.stopper c ≠ .absent → (s.stopper c).stopped = none →
        SceneStep s (.fail c) (s.toStopper c .failed)

/-- The runs of clients and daemons, under a condition on their steps. A pid file that is there
before is of none of these processes. -/
def SceneRun (ok : Guard Scene SceneAction) (h : History Scene SceneAction) (s : Scene) : Prop :=
  ∃ socket pid, (∀ p, pid ≠ .made p) ∧ Run SceneStep (Scene.init socket pid) ok h s

/-! ### A process goes on -/

/-- How far a process is in `run_orphan`. -/
def stage : Process → ℕ
  | .absent => 0
  | .starting => 1
  | .locked => 2
  | .stale => 3
  | .clean => 4
  | .ready => 5
  | .serving => 6
  | .draining => 7
  | .stopped => 8
  | .unlinked => 9
  | .unpidded => 10
  | .exited => 11
  | .dead => 12

/-- It has written the pid file, if it ever does. -/
def Wrote (x : Process) : Prop := stage .ready ≤ stage x

/-- It has removed the pid file, or has ended. -/
def Over (x : Process) : Prop := stage .unpidded ≤ stage x

theorem named_iff {x : Process} : x.Named ↔ Wrote x ∧ ¬ Over x := by
  cases x <;> simp [Process.Named, Wrote, Over, stage]

theorem over_of_not_named {x : Process} (hw : Wrote x) (hx : ¬ x.Named) : Over x := by
  rw [named_iff, not_and, not_not] at hx
  exact hx hw

theorem alive_of_named {x : Process} (hx : x.Named) : Alive x := by
  cases x <;> first | exact hx.elim | trivial

theorem stage_lt_of_holding {x : Process} (hx : x.Holding) : stage x < stage .exited := by
  cases x <;> first | exact hx.elim | decide

section Host

variable {s t : Host} {a : HostAction} {p q : ℕ}

/-- **One process takes a step**, and goes on. -/
theorem process_step (hstep : HostStep s a t) :
    ∃ q x, t.process = Function.update s.process q x ∧ stage (s.process q) ≤ stage x := by
  cases hstep with
  | @probe p hp =>
    refine ⟨p, _, rfl, ?_⟩
    rw [hp]
    split <;> decide
  | @fail p hp =>
    have hlt := stage_lt_of_holding hp
    exact ⟨p, _, rfl, by omega⟩
  | @kill p hp =>
    refine ⟨p, .dead, rfl, ?_⟩
    rcases hp with hp | hp
    · rw [hp]
      decide
    · have hlt := stage_lt_of_holding hp
      simp only [stage] at hlt ⊢
      omega
  | @start p hp | @openFailed p hp | @lock p hp _ | @standDown p hp _ | @remove p hp _
  | @writePid p hp | @bind p hp _ | @bindFailed p hp | @leave p hp | @stop p hp | @unlink p _ hp
  | @unlinkPid p _ hp | @release p hp =>
    refine ⟨p, _, rfl, ?_⟩
    rw [hp]
    decide

/-- **A process never goes back.** -/
theorem stage_step (hstep : HostStep s a t) (p : ℕ) :
    stage (s.process p) ≤ stage (t.process p) := by
  obtain ⟨q, x, ht, hx⟩ := process_step hstep
  rw [ht]
  by_cases hpq : p = q
  · subst hpq
    rwa [Function.update_self]
  · simp only [Function.update_of_ne hpq, Nat.le_refl]

theorem wrote_step (hstep : HostStep s a t) (hp : Wrote (s.process p)) : Wrote (t.process p) := by
  have hle := stage_step hstep p
  simp only [Wrote] at hp ⊢
  omega

/-- The pid file names a process that has written it. -/
theorem wrote_pid_step (hw : s.pid = .made p → Wrote (s.process p)) (hstep : HostStep s a t)
    (hpid : t.pid = .made p) : Wrote (t.process p) := by
  have hsame : t.pid = s.pid → Wrote (t.process p) := fun hst =>
    wrote_step hstep (hw (hst ▸ hpid))
  cases hstep with
  | @writePid q _ =>
    obtain rfl : q = p := by simpa [Host.toProcess] using hpid
    simp [Host.toProcess, Wrote]
  | @unlinkPid _ ok _ =>
    cases ok with
    | true => cases hpid
    | false => exact hsame rfl
  | _ => exact hsame rfl

/-! ### No daemon is running -/

/-- No process has a pid file of its own: none is between its `write` and its `remove_file`. -/
def Quiet (s : Host) : Prop := ∀ p, ¬ (s.process p).Named

theorem quiet_of_pid (hF : Files s) (hpid : ∀ p, s.pid ≠ .made p) : Quiet s :=
  fun p hp => hpid p (hF.pid p hp)

/-- A process that holds the lock before it writes the pid file, or after it has removed it, is
alone. -/
theorem quiet_of_holding (hE : Exclusive s) (hp : (s.process p).Holding)
    (hn : ¬ (s.process p).Named) : Quiet s := by
  intro q hq
  obtain rfl := hE.unique hq.holding hp
  exact hn hq

/-- **When a daemon stops, no other one is running.** -/
theorem quiet_of_named (hE : Exclusive s) (hstep : HostStep s a t) (hp : (s.process p).Named)
    (hn : ¬ (t.process p).Named) : Quiet t := by
  obtain ⟨r, x, ht, -⟩ := process_step hstep
  have hr : p = r := by
    by_contra hpr
    rw [ht, Function.update_of_ne hpr] at hn
    exact hn hp
  subst hr
  intro q hq
  by_cases hqp : q = p
  · subst hqp
    exact hn hq
  · rw [ht, Function.update_of_ne hqp] at hq
    exact hqp (hE.unique hq.holding hp.holding)

end Host

/-! ### What a call knows -/

variable {s s' : Scene} {a : SceneAction} {h : History Scene SceneAction}
  {ok : Guard Scene SceneAction} {c : ℕ}

/-- The files and the processes are in order. -/
structure Sound (s : Scene) : Prop where
  /-- Who is between its `try_write` and its exit has the lock. -/
  exclusive : Exclusive s.host
  /-- Who listens has its files. -/
  files : Files s.host
  /-- The pid file names a process that has written it. -/
  wrote : ∀ p, s.host.pid = .made p → Wrote (s.host.process p)

/-- The pid that was read is of a process that has written it. -/
def Names (s : Scene) (file : File) : Prop := ∀ p, file = .made p → Wrote (s.host.process p)

/-- What is so of a call in phase `x`. -/
def Told (c : ℕ) (h : History Scene SceneAction) (s : Scene) : Stopper → Prop
  | .absent | .late _ | .failed => True
  | .reading => Since h s (.call c) fun _ => True
  | .read file => Names s file ∧ (Since h s (.call c) fun _ => True) ∧
      ((Since h s (.call c) fun t => Quiet t.host) ∨
        ∃ p, file = .made p ∧ (s.host.process p).Named)
  | .polling file | .confirming file => Names s file ∧ Since h s (.signal c true) fun _ => True
  | .unsignaled => Since h s (.call c) fun t => Quiet t.host
  | .gone file => (Since h s (.signal c true) fun t => Quiet t.host) ∧
      ∀ p, file = .made p → Over (s.host.process p)

theorem sound_step (hI : Sound s) (hstep : SceneStep s a s') : Sound s' := by
  cases hstep with
  | host hd =>
    exact ⟨exclusive_step hI.exclusive hd, files_step hI.exclusive hI.files hd,
      fun p hpid => wrote_pid_step (hI.wrote p) hd hpid⟩
  | _ => exact ⟨hI.exclusive, hI.files, hI.wrote⟩

theorem sound_init (socket pid : File) (hpid : ∀ p, pid ≠ .made p) :
    Sound (Scene.init socket pid) :=
  ⟨exclusive_init socket pid, files_init socket pid, fun p hp => absurd hp (hpid p)⟩

/-- What becomes of the processes, as far as a call knows of them. -/
structure Follows (s t : Host) : Prop where
  /-- They go on. -/
  stage : ∀ p, stage (s.process p) ≤ stage (t.process p)
  /-- Who has a pid file keeps it, or no daemon is running. -/
  named : ∀ p, (s.process p).Named → (t.process p).Named ∨ Quiet t

theorem follows_refl (s : Host) : Follows s s := ⟨fun _ => Nat.le_refl _, fun _ hp => .inl hp⟩

theorem follows_step {s t : Host} {a : HostAction} (hE : Exclusive s) (hstep : HostStep s a t) :
    Follows s t := by
  refine ⟨stage_step hstep, fun p hp => ?_⟩
  by_cases hstill : (t.process p).Named
  · exact .inl hstill
  · exact .inr (quiet_of_named hE hstep hp hstill)

/-- **What a call knows stays so**, whatever the daemons and the other calls do. -/
theorem told_next {x : Stopper} (hT : Told c h s x) (hf : Follows s.host s'.host) :
    Told c (h ++ [(s, a)]) s' x := by
  have hnames : ∀ {file}, Names s file → Names s' file := fun hn p hp =>
    Nat.le_trans (hn p hp) (hf.stage p)
  cases x with
  | absent | late _ | failed => trivial
  | reading | unsignaled => exact Since.next hT
  | read file =>
    obtain ⟨hn, hcall, hq⟩ := hT
    refine ⟨hnames hn, hcall.next, ?_⟩
    rcases hq with hq | ⟨p, hp, hnamed⟩
    · exact .inl hq.next
    · -- the daemon that the file names has stopped since, or has not
      rcases hf.named p hnamed with hstill | hquiet
      · exact .inr ⟨p, hp, hstill⟩
      · exact .inl (hcall.next.here hquiet)
  | polling file | confirming file => exact ⟨hnames hT.1, hT.2.next⟩
  | gone file => exact ⟨hT.1.next, fun p hp => Nat.le_trans (hT.2 p hp) (hf.stage p)⟩

/-- No step takes away what a call knows, and its own steps teach it what they should. -/
theorem told_step (hI : Sound s) (hT : Told c h s (s.stopper c)) (hstep : SceneStep s a s') :
    Told c (h ++ [(s, a)]) s' (s'.stopper c) := by
  have hframe : s'.stopper c = s.stopper c → Follows s.host s'.host →
      Told c (h ++ [(s, a)]) s' (s'.stopper c) := fun hc hf => hc ▸ told_next hT hf
  have hmove : ∀ {c' : ℕ} {x : Stopper}, s' = s.toStopper c' x →
      (c' = c → Told c (h ++ [(s, a)]) s' x) → Told c (h ++ [(s, a)]) s' (s'.stopper c) := by
    rintro c' x rfl hx
    by_cases hc : c = c'
    · subst hc
      simpa [Scene.toStopper] using hx rfl
    · exact hframe (Function.update_of_ne hc _ _) (follows_refl _)
  cases hstep with
  | host hd => exact hframe rfl (follows_step hI.exclusive hd)
  | call _ =>
    refine hmove rfl fun hc => ?_
    subst hc
    exact Since.done trivial
  | missing hc' hpid =>
    refine hmove rfl fun hc => ?_
    subst hc
    rw [hc'] at hT
    have hquiet : Quiet s.host := quiet_of_pid hI.files (by simp [hpid])
    exact hT.next.here hquiet
  | read hc' _ =>
    refine hmove rfl fun hc => ?_
    subst hc
    rw [hc'] at hT
    refine ⟨hI.wrote, hT.next, ?_⟩
    by_cases hq : Quiet s.host
    · exact .inl (hT.next.here hq)
    · -- somebody is running, and the file is its
      simp only [Quiet, not_forall, not_not] at hq
      obtain ⟨p, hp⟩ := hq
      exact .inr ⟨p, hI.files.pid p hp, hp⟩
  | @torn _ p hc' hp =>
    refine hmove rfl fun hc => ?_
    subst hc
    rw [hc'] at hT
    have hquiet : Quiet s.host :=
      quiet_of_holding hI.exclusive (p := p) (by rw [hp]; trivial) (by rw [hp]; exact id)
    have hnames : Names s .leftover := fun _ hf => nomatch hf
    exact ⟨hnames, hT.next, .inl (hT.next.here hquiet)⟩
  | signaled hc' =>
    refine hmove rfl fun hc => ?_
    subst hc
    rw [hc'] at hT
    exact ⟨hT.1, Since.done trivial⟩
  | unsignaled hc' hdead =>
    refine hmove rfl fun hc => ?_
    subst hc
    rw [hc'] at hT
    obtain ⟨-, -, hq | ⟨p, hp, hnamed⟩⟩ := hT
    · exact hq.next
    · exact absurd (alive_of_named hnamed) (hdead p hp)
  | probeSocket hc' =>
    refine hmove rfl fun hc => ?_
    subst hc
    rw [hc'] at hT
    split <;> exact ⟨hT.1, hT.2.next⟩
  | probePid hc' =>
    refine hmove rfl fun hc => ?_
    subst hc
    rw [hc'] at hT
    split
    · next hpid =>
      have hquiet : Quiet s.host := quiet_of_pid hI.files (by simp [hpid])
      exact ⟨hT.2.next.here hquiet, fun p hp => over_of_not_named (hT.1 p hp) (hquiet p)⟩
    · exact ⟨hT.1, hT.2.next⟩
  | deadline _ => exact hmove rfl fun _ => trivial
  | fail _ _ => exact hmove rfl fun _ => trivial

theorem told_run (hrun : SceneRun ok h s) (c : ℕ) : Sound s ∧ Told c h s (s.stopper c) := by
  obtain ⟨socket, pid, hpid, hrun⟩ := hrun
  exact hrun.invariant (I := fun h s => Sound s ∧ Told c h s (s.stopper c))
    ⟨sound_init socket pid hpid, trivial⟩
    fun h s a s' _ hI _ hstep => ⟨sound_step hI.1 hstep, told_step hI.1 hI.2 hstep⟩

/-- **What `shutdown_daemon` answers.** In every run, a call that has answered `False` has seen a
state, since it was made, in which no daemon was running; and one that has answered `True` with
both files gone has seen one since it sent the signal, and the process whose pid it read has
removed its pid file or has ended. -/
theorem shutdown_told (hrun : SceneRun ok h s) (c : ℕ) :
    ((s.stopper c).stopped = some false → Since h s (.call c) fun t => Quiet t.host) ∧
      ∀ file, s.stopper c = .gone file →
        (Since h s (.signal c true) fun t => Quiet t.host) ∧
          ∀ p, file = .made p → Over (s.host.process p) := by
  obtain ⟨-, hT⟩ := told_run hrun c
  constructor
  · intro hstopped
    cases hx : s.stopper c with
    | unsignaled =>
      rw [hx] at hT
      exact hT
    | _ =>
      rw [hx] at hstopped
      cases hstopped
  · intro file hx
    rw [hx] at hT
    exact hT

namespace Sample

/-- A daemon serves. -/
def served : Scene where
  host := ⟨Function.update (fun _ => .absent) 0 .serving, some 0, .made 0, .made 0⟩
  stopper := Function.update (fun _ => .absent) 0 (.polling (.made 0))

/-- It has been signalled. -/
theorem served_run : ∃ h, SceneRun Always h served := by
  have h₀ : Run SceneStep (Scene.init .missing .missing) Always [] _ := .start
  have h₁ := h₀.next trivial (.host (.start (p := 0) rfl))
  have h₂ := h₁.next trivial (.host (.lock (p := 0) rfl rfl))
  have h₃ := h₂.next trivial (.host (.probe (p := 0) rfl))
  have h₄ := h₃.next trivial (.host (.writePid (p := 0) rfl))
  have h₅ := h₄.next trivial (.host (.bind (p := 0) rfl rfl))
  have h₆ := h₅.next trivial (.call (c := 0) rfl)
  have h₇ := h₆.next trivial (.read (c := 0) rfl (by simp [Scene.toStopper, Host.toProcess]))
  have h₈ := h₇.next trivial (.signaled (c := 0) rfl)
  obtain ⟨h, s, hrun, rfl⟩ : ∃ h s, Run SceneStep (Scene.init .missing .missing) Always h s ∧
      s = served :=
    ⟨_, _, h₈, by simp [served, Scene.init, Host.init, Scene.toStopper, Host.toProcess]⟩
  exact ⟨h, _, _, by simp, hrun⟩

end Sample

/-- A daemon is stopped; then there is none to stop. -/
theorem shutdown_told_twice : ∃ (h : History Scene SceneAction) (s : Scene),
    SceneRun Always h s ∧ (Since h s (.call 1) fun t => Quiet t.host) ∧
      (Since h s (.signal 0 true) fun t => Quiet t.host) ∧ Over (s.host.process 0) := by
  obtain ⟨h, socket, pid, hpid, hrun⟩ := Sample.served_run
  have h₁ := hrun.next trivial (.host (.leave (p := 0) rfl))
  have h₂ := h₁.next trivial (.host (.stop (p := 0) rfl))
  have h₃ := h₂.next trivial (.host (@HostStep.unlink _ 0 true rfl))
  have h₄ := h₃.next trivial (.probeSocket (c := 0) rfl)
  have h₅ := h₄.next trivial (.host (@HostStep.unlinkPid _ 0 true rfl))
  have h₆ := h₅.next trivial (.probePid (c := 0) rfl)
  have h₇ := h₆.next trivial (.call (c := 1) rfl)
  have h₈ := h₇.next trivial (.missing (c := 1) rfl rfl)
  have hrun : SceneRun Always _ _ := ⟨socket, pid, hpid, h₈⟩
  have hgone := (shutdown_told hrun 0).2 (.made 0) rfl
  exact ⟨_, _, hrun, (shutdown_told hrun 1).1 rfl, hgone.1, hgone.2 0 rfl⟩

/-- **`True` at the deadline says less**: the daemon that was signalled may be serving. -/
theorem late_listens : ∃ (h : History Scene SceneAction) (s : Scene),
    SceneRun Always h s ∧ s.stopper 0 = .late (.made 0) ∧ (s.host.process 0).Listening := by
  obtain ⟨h, socket, pid, hpid, hrun⟩ := Sample.served_run
  exact ⟨_, _, ⟨socket, pid, hpid, hrun.next trivial (.deadline (c := 0) rfl)⟩, rfl, trivial⟩

end Semisweet.Python
