import Semisweet.Daemon.Stages
import Semisweet.Foundations.Population

/-!
# Whether the queue is drained

`WriteQueue` (`src/daemon/writer.rs`) keeps a count of the jobs in flight: a worker that has
taken a job from the channel enters an `InFlightGuard`, which adds one, and drops it when the
job has run, even by a panic, which takes one away. `is_drained` reads the channel, and if
that is empty the count; both idle shutdown and the drain before exit go by its answer.

## The model

The machine is the daemon of `WriteBehind` with the guards and the count on top of it: a
worker's job runs while the worker has its guard, and the worker takes the next job once it
has dropped it. A call of `is_drained` is one read or two, with any steps between them, and
any number of callers read.

## What is proved

* `counted_run` — the count is the number of guards.
* `isDrained_sound_iff` — when `is_drained` answers yes, the jobs accepted before the call have
  run, if and only if none of them is with a worker that has not entered its guard yet.
* `isDrained_unsound` — a job that was taken and not counted yet.
-/

namespace Semisweet.Daemon

open Semisweet.Core Semisweet.Foundations

variable {R : Type} [Field R] {newV5 : Uuid → List UInt8 → Uuid} {W : Type}

/-- The worker whose job's `run` takes this step. -/
def Action.runner : Action newV5 W → Option W
  | .prepare w _ _ => some w
  | .check w _ => some w
  | .put w _ _ => some w
  | .upsert w _ _ => some w
  | .cleanup w _ => some w
  | _ => none

/-- The daemon, with the count of the jobs in flight. -/
structure QueueState (R : Type) [Field R] (newV5 : Uuid → List UInt8 → Uuid) (W : Type) where
  /-- The daemon. -/
  daemon : State R newV5 W
  /-- Which workers have an `InFlightGuard`. -/
  guarded : W → Bool
  /-- `in_flight`. -/
  inFlight : ℕ
  /-- Which callers of `is_drained` have found the channel empty. -/
  reading : ℕ → Bool

/-- `WriteQueue::new`. -/
def QueueState.init (object : Slot → Option (List UInt8)) (vector : Slot → Option (VectorEntry R)) :
    QueueState R newV5 W :=
  ⟨.init object vector, fun _ => false, 0, fun _ => false⟩

/-- `WriteQueue::is_drained`, were it one read. -/
def QueueState.isDrained (s : QueueState R newV5 W) : Bool :=
  s.daemon.queue.isEmpty && s.inFlight == 0

/-- What is done. -/
inductive QueueAction (newV5 : Uuid → List UInt8 → Uuid) (W : Type) where
  /-- A step of the daemon. -/
  | daemon (a : Action newV5 W)
  /-- `InFlightGuard::enter`. -/
  | enter (w : W)
  /-- The guard is dropped. -/
  | leave (w : W)
  /-- `is_drained`: the channel is empty. -/
  | isEmpty (k : ℕ)
  /-- `is_drained` answers. -/
  | isDrained (k : ℕ) (answer : Bool)

variable [DecidableEq W] (capacity : ℕ)

/-- One step of a connection, a worker or a caller of `is_drained`. -/
inductive QueueStep : QueueState R newV5 W → QueueAction newV5 W → QueueState R newV5 W → Prop
  /-- `recv` comes before the guard is entered, and a job's `run` after. -/
  | daemon {s : QueueState R newV5 W} {a : Action newV5 W} {d : State R newV5 W} :
      Step capacity s.daemon a d → (∀ w job, a = .recv w job → s.guarded w = false) →
        (∀ w, a.runner = some w → s.guarded w = true) →
          QueueStep s (.daemon a) { s with daemon := d }
  /-- `fetch_add`. -/
  | enter {s : QueueState R newV5 W} {w : W} {job : WriteJob newV5} :
      (s.daemon.worker w).job = some job → s.guarded w = false → QueueStep s (.enter w)
        { s with guarded := Function.update s.guarded w true, inFlight := s.inFlight + 1 }
  /-- `fetch_sub`, once the job has run or has panicked. -/
  | leave {s : QueueState R newV5 W} {w : W} :
      (s.daemon.worker w).job = none → s.guarded w = true → QueueStep s (.leave w)
        { s with guarded := Function.update s.guarded w false, inFlight := s.inFlight - 1 }
  /-- `sender.is_empty`. -/
  | isEmpty {s : QueueState R newV5 W} {k : ℕ} :
      s.reading k = false → s.daemon.queue = [] → QueueStep s (.isEmpty k)
        { s with reading := Function.update s.reading k true }
  /-- The channel is not empty, and the count is not read. -/
  | notEmpty {s : QueueState R newV5 W} {k : ℕ} :
      s.reading k = false → s.daemon.queue ≠ [] → QueueStep s (.isDrained k false) s
  /-- `in_flight.load`. -/
  | load {s : QueueState R newV5 W} {k : ℕ} :
      s.reading k = true → QueueStep s (.isDrained k (decide (s.inFlight = 0)))
        { s with reading := Function.update s.reading k false }

/-- The runs of the queue, under a condition on their steps. -/
def QueueRun (ok : Guard (QueueState R newV5 W) (QueueAction newV5 W))
    (h : History (QueueState R newV5 W) (QueueAction newV5 W)) (s : QueueState R newV5 W) : Prop :=
  ∃ object vector, Run (QueueStep capacity) (QueueState.init object vector) ok h s

/-- What is done to the daemon. -/
def QueueAction.daemon? : QueueAction newV5 W → Option (Action newV5 W)
  | .daemon a => some a
  | _ => none

/-- The steps of the daemon. -/
def daemonLog (h : History (QueueState R newV5 W) (QueueAction newV5 W)) :
    History (State R newV5 W) (Action newV5 W) :=
  h.project QueueState.daemon QueueAction.daemon?

variable {capacity} {s s' : QueueState R newV5 W} {a : QueueAction newV5 W}
  {h : History (QueueState R newV5 W) (QueueAction newV5 W)}
  {ok : Guard (QueueState R newV5 W) (QueueAction newV5 W)}

omit [DecidableEq W] in
theorem accepted_log_append_iff {job : WriteJob newV5} :
    Accepted (daemonLog (h ++ [(s, a)])) job ↔
      Accepted (daemonLog h) job ∨ ∃ c, a = .daemon (.push c job) := by
  cases a with
  | daemon b =>
    have hg : (QueueAction.daemon b).daemon? = some b := rfl
    rw [daemonLog, History.project_snoc_of_some hg, accepted_append_iff]
    simp [daemonLog]
  | _ =>
    rw [daemonLog, History.project_snoc_of_none (by rfl)]
    simp [daemonLog]

/-- The count is on top of the daemon: without it, a run of the queue is a run of the daemon. -/
theorem daemon_run (hrun : QueueRun capacity ok h s) :
    DaemonRun capacity Always (daemonLog h) s.daemon := by
  obtain ⟨object, vector, hrun⟩ := hrun
  refine ⟨object, vector, hrun.project (f := QueueState.daemon) (g := QueueAction.daemon?)
    (fun h s a s' b _ _ hstep hb => ?_) fun s a s' hstep ha => ?_⟩
  · cases hstep with
    | daemon hd _ _ =>
      obtain rfl := Option.some.inj hb
      exact ⟨trivial, hd⟩
    | _ => cases hb
  · cases hstep with
    | daemon _ _ _ => cases ha
    | _ => rfl

/-! ### The count -/

/-- The count is the number of guards. -/
def Counted (s : QueueState R newV5 W) : Prop := s.inFlight = population (· = true) s.guarded

theorem counted_step [Finite W] (hI : Counted s) (hstep : QueueStep capacity s a s') :
    Counted s' := by
  have hfin : {w | s.guarded w = true}.Finite := Set.toFinite _
  cases hstep with
  | @enter w job _ hg =>
    have hpop := population_enter (P := (· = true)) (i := w) (x := true) hfin (by simp [hg]) rfl
    simp only [Counted] at hI ⊢
    omega
  | @leave w _ hg =>
    have hpop := population_leave (P := (· = true)) (i := w) (x := false) hfin hg (by simp)
    simp only [Counted] at hI ⊢
    omega
  | _ => exact hI

theorem counted_run [Finite W] (hrun : QueueRun capacity ok h s) : Counted s := by
  obtain ⟨object, vector, hrun⟩ := hrun
  refine hrun.invariant_state ?_ fun _ _ _ _ hI _ hstep => counted_step hI hstep
  exact ((population_eq_zero_iff (Set.toFinite _)).mpr (by simp [QueueState.init])).symm

/-! ### What an answer is worth -/

omit [DecidableEq W] in
/-- The job waits in the queue, or a worker has it. -/
def State.Unfinished (s : State R newV5 W) (job : WriteJob newV5) : Prop :=
  job ∈ s.queue ∨ ∃ w, (s.worker w).job = some job

/-- A job comes to the queue when it is accepted. -/
theorem queue_step {d d' : State R newV5 W} {b : Action newV5 W} {job : WriteJob newV5}
    (hstep : Step capacity d b d') (hj : job ∈ d'.queue) :
    job ∈ d.queue ∨ ∃ c, b = .push c job ∧ d.handler c = .shadowed job := by
  cases hstep with
  | @push c pushed hc _ =>
    rcases List.mem_append.mp hj with hj | hj
    · exact .inl hj
    · obtain rfl := List.mem_singleton.mp hj
      exact .inr ⟨c, rfl, hc⟩
  | recv _ hq => exact .inl (hq ▸ List.mem_cons_of_mem _ hj)
  | _ => exact .inl hj

/-- An accepted job that has left the queue does not come back to it. -/
theorem not_mem_queue {h₁ h₂ : History (QueueState R newV5 W) (QueueAction newV5 W)}
    {t : QueueState R newV5 W × QueueAction newV5 W} {job : WriteJob newV5}
    (hrun : QueueRun capacity ok (h₁ ++ t :: h₂) s) (ha : Accepted (daemonLog h₁) job)
    (hnow : ∀ s', QueueStep capacity t.1 t.2 s' → job ∉ s'.daemon.queue) :
    job ∉ s.daemon.queue := by
  obtain ⟨object, vector, hrun⟩ := hrun
  refine (hrun.invariant_after (I := fun h s => Accepted (daemonLog h) job ∧ job ∉ s.daemon.queue)
    (fun s' _ hstep => ⟨?_, hnow s' hstep⟩) fun h s a s' hr hI _ hstep => ⟨?_, fun hj => ?_⟩).2
  · exact ha.mono (by simp [daemonLog])
  · exact hI.1.mono (by simp [daemonLog])
  · cases hstep with
    | daemon hd _ _ =>
      rcases queue_step hd hj with hj | ⟨c, -, hc⟩
      · exact hI.2 hj
      · have hanswered := answered_run (daemon_run ⟨object, vector, hr⟩)
        exact (hanswered.accepted job hI.1).2.1 c (by simp [hc, Handler.job])
    | _ => exact hI.2 hj

/-- The worker has taken the job, and has not entered its guard yet. -/
def QueueState.Uncounted (s : QueueState R newV5 W) (job : WriteJob newV5) : Prop :=
  ∃ w, (s.daemon.worker w).job = some job ∧ s.guarded w = false

/-- **When a yes of `is_drained` is sound.** The call reads the channel after `h₁` and the count
after `h₂`; the jobs accepted before it have run, if and only if none of them is with a worker
that has not entered its guard when the count is read. -/
theorem isDrained_sound_iff [Finite W]
    {h₁ h₂ : History (QueueState R newV5 W) (QueueAction newV5 W)} {s₁ : QueueState R newV5 W}
    {k : ℕ} (hrun : QueueRun capacity ok (h₁ ++ (s₁, .isEmpty k) :: h₂) s)
    (hyes : QueueStep capacity s (.isDrained k true) s') :
    (∀ job, Accepted (daemonLog h₁) job → ¬ s.daemon.Unfinished job) ↔
      ∀ job, Accepted (daemonLog h₁) job → ¬ s.Uncounted job := by
  constructor
  · rintro hdone job ha ⟨w, hw, -⟩
    exact hdone job ha (.inr ⟨w, hw⟩)
  · intro hcounted job ha hun
    rcases hun with hj | ⟨w, hw⟩
    · -- the channel was empty when it was read
      refine not_mem_queue hrun ha (fun s' hstep => ?_) hj
      cases hstep with
      | isEmpty _ hq =>
        have hq : s₁.daemon.queue = [] := hq
        simp [hq]
    · -- no guard is left when the count is read
      have hzero : s.inFlight = 0 := by
        generalize hb : true = b at hyes
        cases hyes with
        | load _ => simpa using hb.symm
        | notEmpty _ _ => cases hb
      have hguards :=
        (population_eq_zero_iff (Set.toFinite _)).mp ((counted_run hrun).symm.trans hzero)
      exact hcounted job ha ⟨w, hw, by simpa using hguards w⟩

/-- With nothing in the channel and nothing counted, `is_drained` answers yes. -/
theorem isDrained_yes (capacity : ℕ) {k : ℕ} (hr : s.reading k = false) (hq : s.daemon.queue = [])
    (hf : s.inFlight = 0) :
    QueueStep capacity s (.isEmpty k) { s with reading := Function.update s.reading k true } ∧
      QueueStep capacity { s with reading := Function.update s.reading k true }
        (.isDrained k true) s := by
  refine ⟨.isEmpty hr hq, ?_⟩
  obtain ⟨d, guarded, inFlight, reading⟩ := s
  obtain rfl : inFlight = 0 := hf
  have hreset : Function.update (Function.update reading k true) k false = reading := by
    rw [Function.update_idem, ← hr, Function.update_eq_self]
  have hload : QueueStep capacity (⟨d, guarded, 0, Function.update reading k true⟩ :
      QueueState R newV5 W) (.isDrained k true)
      ⟨d, guarded, 0, Function.update (Function.update reading k true) k false⟩ :=
    .load (by simp)
  rwa [hreset] at hload

namespace Sample

/-- The states of the daemon and its queue. -/
abbrev QueueMachine := QueueState ℚ Core.Sample.platform.newV5 (Fin writeWorkers)

/-- Their histories. -/
abbrev QueueLog := History QueueMachine (QueueAction Core.Sample.platform.newV5 (Fin writeWorkers))

/-- The daemon and its queue, started with empty stores. -/
def queue : QueueMachine := .init (fun _ => none) fun _ => none

/-- A write is accepted, and the first worker takes it. -/
theorem taken_run : ∃ (h : QueueLog) (d : Machine),
    Run (QueueStep writeQueueCapacity) queue Always h { queue with daemon := d } ∧ d.queue = [] ∧
      Accepted (daemonLog h) (job 0 [1]) ∧ d.worker 0 = .preparing (job 0 [1]) ∧
        d.worker 1 = .waiting := by
  have h₀ : Run (QueueStep writeQueueCapacity) queue Always [] queue := .start
  have h₁ := h₀.next trivial (.daemon (a := .set 0 (job 0 [1])) (.set rfl (fresh_daemon _) rfl)
    (by simp) (by simp [Action.runner]))
  have h₂ := h₁.next trivial (.daemon (a := .push 0 (job 0 [1])) (.push rfl (by decide))
    (by simp) (by simp [Action.runner]))
  have h₃ := h₂.next trivial (.daemon (a := .recv 0 (job 0 [1])) (.recv rfl rfl)
    (by simp [queue, QueueState.init]) (by simp [Action.runner]))
  refine ⟨_, _, h₃, rfl, accepted_log_append_iff.mpr (.inl ?_), rfl, rfl⟩
  exact accepted_log_append_iff.mpr (.inr ⟨0, rfl⟩)

end Sample

/-- A write is taken, counted and run; then the queue is drained. -/
theorem isDrained_sound_run : ∃ (h : Sample.QueueLog) (s : Sample.QueueMachine),
    QueueRun writeQueueCapacity Always h s ∧ Accepted (daemonLog h) (Sample.job 0 [1]) ∧
      ¬ s.daemon.Unfinished (Sample.job 0 [1]) := by
  obtain ⟨h, d, hrun, hq, ha, hw₀, hw₁⟩ := Sample.taken_run
  have hjob : (d.worker 0).job = some (Sample.job 0 [1]) := by simp [hw₀, Worker.job]
  have h₁ := hrun.next trivial (.enter (w := 0) hjob rfl)
  have h₂ := h₁.next trivial (.daemon (a := .prepare 0 (Sample.job 0 [1]) .error)
    (.unprepared hw₀ (by decide)) (by simp) (by simp [Action.runner]))
  have h₃ := h₂.next trivial (.leave (w := 0)
    (by simp [State.toWorker, Worker.unprepared, Worker.job])
    (by simp))
  have h₄ := h₃.next trivial (.isEmpty (k := 0) rfl hq)
  refine ⟨_, _, ⟨_, _, h₄⟩, ?_, (isDrained_sound_iff ⟨_, _, h₄⟩ (.load (by simp))).mpr ?_ _ ?_⟩
  · simp only [accepted_log_append_iff, ha, true_or]
  swap
  · simp only [accepted_log_append_iff, ha, true_or]
  rintro job - ⟨w, hw, -⟩
  have hne : (1 : Fin writeWorkers) ≠ 0 := by decide
  refine absurd hw (Sample.forall_worker (Q := fun x => x.job ≠ some job) ?_ ?_ w)
  · simp [State.toWorker, Worker.unprepared, Worker.job]
  · simp [State.toWorker, Function.update_of_ne hne, hw₁, Worker.job]

/-- **A yes may be unsound**: a worker has taken a job, and has not entered its guard. -/
theorem isDrained_unsound :
    ¬ ∀ (h₁ h₂ : Sample.QueueLog) (s₁ s s' : Sample.QueueMachine) (k : ℕ),
      QueueRun writeQueueCapacity Always (h₁ ++ (s₁, .isEmpty k) :: h₂) s →
        QueueStep writeQueueCapacity s (.isDrained k true) s' →
          ∀ job, Accepted (daemonLog h₁) job → ¬ s.daemon.Unfinished job := by
  intro hall
  obtain ⟨h, d, hrun, hq, ha, hw₀, -⟩ := Sample.taken_run
  have h₁ := hrun.next trivial (.isEmpty (k := 0) rfl hq)
  refine hall h [] _ _ _ 0 ⟨_, _, h₁⟩ (.load (by simp)) (Sample.job 0 [1]) ha (.inr ⟨0, ?_⟩)
  simp [hw₀, Worker.job]

end Semisweet.Daemon
