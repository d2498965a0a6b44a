import Semisweet.Daemon.ShadowBuffer
import Semisweet.Daemon.WriteQueue

/-!
# Workers that panic

A worker of the `WriteQueue` is `while let Ok(job) = receiver.recv()` around `job.run()`
(`src/daemon/writer.rs`). Nothing catches a panic of `run`: it drops the `InFlightGuard`, and
with it the loop and the thread are gone. The `InferencePool` (`src/daemon/inference.rs`) has a
`catch_unwind` in the same place, "so one bad job can't permanently kill it". The queue keeps a
receiver of its own, so `try_push` does not find out.

## The model

`WriteQueue` has panics of `prepare`, `put` and `upsert`; here a job may panic anywhere in its
`run`, while its worker has the guard. There may be any number of workers.

## What is proved

* `dead_run` — the workers that are gone are those whose job panicked.
* `workers_survive_iff` — every worker is in its loop or runs a job, and the queue is not stuck,
  if and only if no job panicked; `all_workers_gone`, a queue that is stuck.
* `stuck_iff`, `stuck_run` — a queue is stuck when it is not empty and a job of each worker
  panicked, and then for good.
-/

namespace Semisweet.Daemon

open Semisweet.Core Semisweet.Foundations

variable {R : Type} [Field R] {newV5 : Uuid → List UInt8 → Uuid} {W : Type}

/-- The worker whose job panics in this step. -/
def Action.panics : Action newV5 W → Option W
  | .prepare w _ .panic => some w
  | .put w _ .panic => some w
  | .upsert w _ .panic => some w
  | _ => none

/-- What is done. -/
inductive PanicAction (newV5 : Uuid → List UInt8 → Uuid) (W : Type) where
  /-- A step of the queue. -/
  | queue (b : QueueAction newV5 W)
  /-- A job panics. -/
  | panic (w : W)

/-- The worker whose job panics in this step. -/
def PanicAction.panics : PanicAction newV5 W → Option W
  | .queue (.daemon a) => a.panics
  | .panic w => some w
  | _ => none

variable [DecidableEq W] (capacity : ℕ)

/-- One step of the queue, in which a job may panic. -/
inductive PanicStep : QueueState R newV5 W → PanicAction newV5 W → QueueState R newV5 W → Prop
  /-- No more than before. -/
  | queue {s s' : QueueState R newV5 W} {b : QueueAction newV5 W} :
      QueueStep capacity s b s' → PanicStep s (.queue b) s'
  /-- Anywhere in `run`: the thread unwinds, and will drop its guard. -/
  | panic {s : QueueState R newV5 W} {w : W} {job : WriteJob newV5} :
      (s.daemon.worker w).job = some job → s.guarded w = true →
        PanicStep s (.panic w) { s with daemon := s.daemon.toWorker w .dead }

/-- The runs of the queue, with panics, under a condition on their steps. -/
def PanicRun (ok : Guard (QueueState R newV5 W) (PanicAction newV5 W))
    (h : History (QueueState R newV5 W) (PanicAction newV5 W)) (s : QueueState R newV5 W) : Prop :=
  ∃ object vector, Run (PanicStep capacity) (QueueState.init object vector) ok h s

omit [DecidableEq W] in
/-- How many workers are in their receive loop. -/
noncomputable def QueueState.receiving (s : QueueState R newV5 W) : ℕ :=
  population (· = .waiting) s.daemon.worker

omit [DecidableEq W] in
/-- How many workers run a job. -/
noncomputable def QueueState.running (s : QueueState R newV5 W) : ℕ :=
  population (fun x => x.job ≠ none) s.daemon.worker

omit [DecidableEq W] in
/-- A job is queued, none is running, and nobody is there to receive it. -/
def QueueState.Stuck (s : QueueState R newV5 W) : Prop :=
  s.daemon.queue ≠ [] ∧ ∀ w, (s.daemon.worker w).job = none ∧ s.daemon.worker w ≠ .waiting

variable {capacity} {s s' : QueueState R newV5 W} {a : PanicAction newV5 W}
  {h : History (QueueState R newV5 W) (PanicAction newV5 W)}
  {ok : Guard (QueueState R newV5 W) (PanicAction newV5 W)}

/-! ### Who is gone -/

/-- A worker that is not gone is in its loop, or runs a job. -/
theorem Worker.ne_dead_iff {x : Worker R newV5} : x ≠ .dead ↔ x = .waiting ∨ x.job ≠ none := by
  cases x <;> simp [Worker.job]

/-- A panic takes the worker with it. -/
theorem dead_of_panics {d d' : State R newV5 W} {b : Action newV5 W} {w : W}
    (hstep : Step capacity d b d') (hw : b.panics = some w) : d'.worker w = .dead := by
  cases hstep with
  | @unprepared w' _ outcome _ _ | @put w' _ outcome _ _ _ | @upsert w' _ outcome _ _ _ =>
    cases outcome with
    | panic =>
      obtain rfl : w' = w := Option.some.inj hw
      simp [State.toWorker, Worker.unprepared, Worker.afterPut, Worker.afterUpsert]
    | _ => cases hw
  | _ => cases hw

/-- And nothing else does. -/
theorem panics_of_dead {d d' : State R newV5 W} {b : Action newV5 W} {w : W}
    (hstep : Step capacity d b d') (hw : d'.worker w = .dead) (hne : d.worker w ≠ .dead) :
    b.panics = some w := by
  rcases worker_step w hstep with heq | hgo
  · exact absurd (heq ▸ hw) hne
  · rw [hw] at hgo
    generalize d.worker w = x at hgo
    cases hgo <;> rfl

/-- There is no way back. -/
theorem dead_keep {d d' : State R newV5 W} {b : Action newV5 W} {w : W}
    (hstep : Step capacity d b d') (hw : d.worker w = .dead) : d'.worker w = .dead := by
  rcases worker_step w hstep with heq | hgo
  · exact heq.trans hw
  · rw [hw] at hgo
    cases hgo

theorem dead_step (hstep : PanicStep capacity s a s') (w : W) :
    s'.daemon.worker w = .dead ↔ s.daemon.worker w = .dead ∨ a.panics = some w := by
  cases hstep with
  | @panic w' job _ _ =>
    simp only [State.toWorker_worker, PanicAction.panics, Option.some.injEq]
    by_cases hw : w = w'
    · simp [hw]
    · simp [hw, Ne.symm hw]
  | queue hq =>
    cases hq with
    | daemon hd _ _ =>
      constructor
      · intro hw
        by_cases hdead : s.daemon.worker w = .dead
        · exact .inl hdead
        · exact .inr (panics_of_dead hd hw hdead)
      · rintro (hw | hw)
        · exact dead_keep hd hw
        · exact dead_of_panics hd hw
    | _ => simp [PanicAction.panics]

/-- **Who is gone**: the workers of which a job panicked. -/
theorem dead_run (hrun : PanicRun capacity ok h s) (w : W) :
    s.daemon.worker w = .dead ↔ ∃ t ∈ h, t.2.panics = some w := by
  obtain ⟨object, vector, hrun⟩ := hrun
  refine hrun.invariant (I := fun h s => s.daemon.worker w = .dead ↔ ∃ t ∈ h, t.2.panics = some w)
    ?_ fun h s a s' _ hI _ hstep => ?_
  · simp [QueueState.init, State.init]
  · rw [dead_step hstep w, hI]
    simp [or_and_right, exists_or]

/-! ### Who is left -/

omit [DecidableEq W] in
/-- All workers are in their loop or run a job, if none is gone. -/
theorem receiving_add_running_iff [Finite W] :
    s.receiving + s.running = Nat.card W ↔ ∀ w, s.daemon.worker w ≠ .dead := by
  have hdisj : ∀ x : Worker R newV5, x = .waiting → ¬ x.job ≠ none := by
    rintro _ rfl
    simp [Worker.job]
  rw [QueueState.receiving, QueueState.running, ← population_or hdisj, population_eq_card_iff]
  exact forall_congr' fun w => Worker.ne_dead_iff.symm

omit [DecidableEq W] in
theorem stuck_iff_dead : s.Stuck ↔ s.daemon.queue ≠ [] ∧ ∀ w, s.daemon.worker w = .dead := by
  refine and_congr_right fun _ => forall_congr' fun w => ?_
  rw [← not_iff_not, ← ne_eq (s.daemon.worker w), Worker.ne_dead_iff]
  tauto

/-- **When a queue is stuck**: it is not empty, and of each worker a job panicked. -/
theorem stuck_iff (hrun : PanicRun capacity ok h s) :
    s.Stuck ↔ s.daemon.queue ≠ [] ∧ ∀ w, ∃ t ∈ h, t.2.panics = some w := by
  rw [stuck_iff_dead]
  exact and_congr_right fun _ => forall_congr' fun w => dead_run hrun w

/-- A queue that is stuck stays stuck: jobs are pushed, and none is taken. -/
theorem stuck_step (hs : s.Stuck) (hstep : PanicStep capacity s a s') :
    s'.Stuck ∧ s.daemon.queue <+: s'.daemon.queue := by
  rw [stuck_iff_dead] at hs ⊢
  obtain ⟨hqueue, hdead⟩ := hs
  have hprefix : s.daemon.queue <+: s'.daemon.queue := by
    cases hstep with
    | panic hjob _ => simp [hdead, Worker.job] at hjob
    | queue hq =>
      cases hq with
      | daemon hd _ _ =>
        cases hd with
        | push _ _ => exact List.prefix_append _ _
        | recv hw _ => simp [hdead] at hw
        | _ => exact List.prefix_rfl
      | _ => exact List.prefix_rfl
  exact ⟨⟨fun hnil => hqueue (List.prefix_nil.mp (hnil ▸ hprefix)),
    fun w => (dead_step hstep w).mpr (.inl (hdead w))⟩, hprefix⟩

/-- **A queue that is stuck stays stuck**, whatever is done, and nothing in it is ever taken. -/
theorem stuck_run {init : QueueState R newV5 W} (hs : init.Stuck)
    (hrun : Run (PanicStep capacity) init ok h s) :
    s.Stuck ∧ init.daemon.queue <+: s.daemon.queue := by
  refine hrun.invariant_state (I := fun s => s.Stuck ∧ init.daemon.queue <+: s.daemon.queue)
    ⟨hs, List.prefix_rfl⟩ fun h s a s' hI _ hstep => ?_
  obtain ⟨hstuck, hprefix⟩ := stuck_step hI.1 hstep
  exact ⟨hstuck, hI.2.trans hprefix⟩

/-- **When the writer survives.** The workers in their receive loop and those that run a job are
all there are, and no queued job is left with neither, if and only if no job has panicked. -/
theorem workers_survive_iff [Finite W] [Nonempty W] (hrun : PanicRun capacity ok h s) :
    (s.receiving + s.running = Nat.card W ∧ ¬ s.Stuck) ↔ ∀ t ∈ h, t.2.panics = none := by
  rw [receiving_add_running_iff]
  constructor
  · rintro ⟨halive, -⟩ t ht
    by_contra hne
    obtain ⟨w, hw⟩ := Option.ne_none_iff_exists'.mp hne
    exact halive w ((dead_run hrun w).mpr ⟨t, ht, hw⟩)
  · intro hnone
    have halive : ∀ w, s.daemon.worker w ≠ .dead := by
      intro w hdead
      obtain ⟨t, ht, hw⟩ := (dead_run hrun w).mp hdead
      simp [hnone t ht] at hw
    refine ⟨halive, fun hstuck => ?_⟩
    obtain ⟨w⟩ := ‹Nonempty W›
    exact halive w ((stuck_iff_dead.mp hstuck).2 w)

/-! ### How a writer is lost -/

/-- It is no step of a worker. -/
def Action.OfHandler (b : Action newV5 W) : Prop :=
  b.runner = none ∧ ∀ w job, b ≠ .recv w job

/-- Handlers leave the workers alone. -/
theorem worker_of_ofHandler {d d' : State R newV5 W} {b : Action newV5 W}
    (hstep : Step capacity d b d') (hb : b.OfHandler) : d'.worker = d.worker := by
  funext w
  rcases worker_step w hstep with heq | hgo
  · exact heq
  · generalize d.worker w = x at hgo
    generalize d'.worker w = y at hgo
    obtain ⟨hrunner, hrecv⟩ := hb
    cases hgo with
    | recv => exact absurd rfl (hrecv _ _)
    | _ => cases hrunner

/-- What the handlers do, a run of the daemon, is a run of its queue. -/
theorem run_of_ofHandler {q : QueueState R newV5 W} {d : State R newV5 W}
    {ok' : Guard (State R newV5 W) (Action newV5 W)} {g : History (State R newV5 W) (Action newV5 W)}
    (hrun : Run (Step capacity) q.daemon ok' g d) (hg : ∀ t ∈ g, t.2.OfHandler) :
    Run (PanicStep capacity) q Always
        (g.map fun t => ({ q with daemon := t.1 }, .queue (.daemon t.2))) { q with daemon := d } ∧
      d.worker = q.daemon.worker := by
  induction hrun with
  | start => exact ⟨.start, rfl⟩
  | @next g d d' b _ _ hstep ih =>
    obtain ⟨hrun, hworker⟩ := ih fun t ht => hg t (List.mem_append_left _ ht)
    have hb : b.OfHandler := hg (d, b) List.mem_concat_self
    refine ⟨?_, (worker_of_ofHandler hstep hb).trans hworker⟩
    rw [List.map_append]
    refine hrun.next trivial (.queue (.daemon hstep (fun w job ha => absurd ha (hb.2 w job)) ?_))
    intro w hw
    rw [hb.1] at hw
    cases hw

/-- A worker takes a job, and is gone. -/
theorem panic_run {init : QueueState R newV5 W} {w : W} {job : WriteJob newV5}
    {rest : List (WriteJob newV5)} (hrun : Run (PanicStep capacity) init Always h s)
    (hw : s.daemon.worker w = .waiting) (hg : s.guarded w = false)
    (hq : s.daemon.queue = job :: rest) :
    ∃ h' s', Run (PanicStep capacity) init Always h' s' ∧ s'.daemon.queue = rest ∧
      s'.daemon.worker = Function.update s.daemon.worker w .dead ∧ s'.guarded = s.guarded := by
  have hjob : (({ s.daemon with queue := rest }.toWorker w (.preparing job)).worker w).job =
      some job := by
    simp [State.toWorker, Worker.job]
  have h₁ := hrun.next trivial (.queue (.daemon (a := .recv w job) (.recv hw hq)
    (by rintro w' job' ⟨⟩; exact hg) (by simp [Action.runner])))
  have h₂ := h₁.next trivial (.queue (.enter hjob hg))
  have h₃ := h₂.next trivial (.panic hjob (by simp))
  have h₄ := h₃.next trivial (.queue (.leave (w := w) (by simp [State.toWorker, Worker.job])
    (by simp)))
  refine ⟨_, _, h₄, rfl, by simp [State.toWorker], ?_⟩
  simp [← hg]

namespace Sample

/-- The queue with this many writes in it. -/
theorem filled_run (n : ℕ) (hn : n ≤ writeQueueCapacity) :
    ∃ (h : History QueueMachine (PanicAction Core.Sample.platform.newV5 (Fin writeWorkers)))
      (d : Machine),
      Run (PanicStep writeQueueCapacity) queue Always h { queue with daemon := d } ∧
        d.queue = (List.range n).map (fun i => job i []) ∧ (∀ w, d.worker w = .waiting) ∧
          ∀ t ∈ h, t.2.panics = none := by
  obtain ⟨g, d, hf⟩ := filled n hn
  have hhandler : ∀ t ∈ g, t.2.OfHandler := by
    intro t ht
    obtain ⟨i, -, ha | ha⟩ := hf.events t ht <;> rw [ha] <;> exact ⟨rfl, by simp⟩
  obtain ⟨hrun, hworker⟩ := run_of_ofHandler (q := queue) hf.run hhandler
  refine ⟨_, d, hrun, hf.queue, fun w => congrFun hworker w, fun t ht => ?_⟩
  obtain ⟨u, hu, rfl⟩ := List.mem_map.mp ht
  obtain ⟨i, -, ha | ha⟩ := hf.events u hu <;> simp [ha, PanicAction.panics, Action.panics]

end Sample

/-- With a write in the queue, the workers are all there. -/
theorem workers_survive_queued :
    ∃ (h : History Sample.QueueMachine
        (PanicAction Core.Sample.platform.newV5 (Fin writeWorkers))) (s : Sample.QueueMachine),
      PanicRun writeQueueCapacity Always h s ∧ s.daemon.queue ≠ [] ∧
        s.receiving + s.running = Nat.card (Fin writeWorkers) ∧ ¬ s.Stuck := by
  obtain ⟨h, d, hrun, hq, -, hnone⟩ := Sample.filled_run 1 (by decide)
  refine ⟨h, _, ⟨_, _, hrun⟩, by simp [hq], ?_⟩
  exact (workers_survive_iff ⟨_, _, hrun⟩).mpr hnone

/-- **A writer may be lost**: three writes are accepted, the first two panic, and nobody is left
to take the third. -/
theorem all_workers_gone :
    ¬ ∀ (h : History Sample.QueueMachine
        (PanicAction Core.Sample.platform.newV5 (Fin writeWorkers))) (s : Sample.QueueMachine),
      PanicRun writeQueueCapacity Always h s →
        s.receiving + s.running = Nat.card (Fin writeWorkers) ∧ ¬ s.Stuck := by
  intro hall
  obtain ⟨h, d, hrun, hq, hwaiting, -⟩ := Sample.filled_run 3 (by decide)
  have hqueue : d.queue = [Sample.job 0 [], Sample.job 1 [], Sample.job 2 []] := by
    rw [hq]
    rfl
  obtain ⟨h₁, s₁, hrun₁, hq₁, hw₁, hg₁⟩ := panic_run hrun (hwaiting 0) rfl hqueue
  have hone : s₁.daemon.worker 1 = .waiting := by
    rw [hw₁, Function.update_of_ne (by decide)]
    exact hwaiting 1
  obtain ⟨h₂, s₂, hrun₂, hq₂, hw₂, -⟩ := panic_run hrun₁ hone (by rw [hg₁]; rfl) hq₁
  refine (hall h₂ s₂ ⟨_, _, hrun₂⟩).2 (stuck_iff_dead.mpr ⟨by simp [hq₂], ?_⟩)
  refine Sample.forall_worker (Q := (· = .dead)) ?_ ?_
  · rw [hw₂, Function.update_of_ne (by decide), hw₁, Function.update_self]
  · rw [hw₂, Function.update_self]

end Semisweet.Daemon
