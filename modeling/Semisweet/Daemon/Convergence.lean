import Semisweet.Daemon.Panics
import Semisweet.Foundations.Progress

/-!
# The queue drains

Before `run` returns (`src/daemon/supervisor.rs`) it asks `is_drained` again and again, until the
answer is yes or a deadline is over; and the idle exit is open only where the answer is yes. Both
rely on the workers to get there: whatever was done before, and in whatever order they go on.

## The model

The queue of `Panics`, after any run: any jobs in the channel, any workers in the middle of a
commit, entered into their guard or not, or gone. From there the workers go on alone. `prepare`,
`put` and `upsert` may fail, but no more jobs panic.

## What is proved

* `queue_work_lt` — every step of a worker costs some of the work that is left; no job takes more
  than eight steps.
* `job_of_settled` — workers without a step hold no job.
* `queue_settles` — the workers come to an end, in any order, and then `is_drained` answers yes,
  unless the queue is stuck.
-/

namespace Semisweet.Daemon

open Semisweet.Core Semisweet.Foundations

variable {R : Type} [Field R] {newV5 : Uuid → List UInt8 → Uuid} {W : Type}

/-- The step is a worker's, and no panic. -/
def PanicAction.Works : PanicAction newV5 W → Prop
  | .queue (.daemon a) => ¬ a.OfHandler ∧ a.panics = none
  | .queue (.enter _) => True
  | .queue (.leave _) => True
  | _ => False

/-- The steps of a job's `run` that are ahead. -/
def Worker.stage : Worker R newV5 → ℕ
  | .preparing _ => 5
  | .checking _ => 4
  | .putting _ => 3
  | .indexing _ => 2
  | .cleaning _ => 1
  | _ => 0

/-- The steps of a worker that are ahead, until it receives again: it has a guard to enter, or to
drop. -/
def Worker.ahead (x : Worker R newV5) (guarded : Bool) : ℕ :=
  x.stage + if guarded then 1 else if x.job.isSome then 2 else 0

/-- The steps that the workers have ahead: eight for each job in the channel, and what is left of
the jobs they run. -/
def QueueState.work [Fintype W] (s : QueueState R newV5 W) : ℕ :=
  8 * s.daemon.queue.length + ∑ w, (s.daemon.worker w).ahead (s.guarded w)

@[simp] theorem Worker.ahead_true (x : Worker R newV5) : x.ahead true = x.stage + 1 := rfl

theorem Worker.ahead_of_some {x : Worker R newV5} {job : WriteJob newV5} (hx : x.job = some job) :
    x.ahead false = x.stage + 2 := by
  simp [Worker.ahead, hx]

theorem Worker.ahead_of_none {x : Worker R newV5} (hx : x.job = none) :
    x.ahead false = x.stage := by
  simp [Worker.ahead, hx]

variable [DecidableEq W] {capacity : ℕ} {s s' : QueueState R newV5 W} {a : PanicAction newV5 W}
  {h : History (QueueState R newV5 W) (PanicAction newV5 W)}
  {ok : Guard (QueueState R newV5 W) (PanicAction newV5 W)}

/-! ### What a step costs -/

/-- A worker goes on, and what is ahead of it changes. -/
theorem ahead_toWorker [Fintype W] {d : State R newV5 W} {w : W} {x y : Worker R newV5}
    (hw : s.daemon.worker w = x) (hd : d.worker = s.daemon.worker) :
    ∑ v, ((d.toWorker w y).worker v).ahead (s.guarded v) + x.ahead (s.guarded w) =
      ∑ v, (s.daemon.worker v).ahead (s.guarded v) + y.ahead (s.guarded w) := by
  have hmove := sum_move (fun v z => z.ahead (s.guarded v)) s.daemon.worker w y
  rw [hw] at hmove
  simpa only [State.toWorker, hd] using hmove

/-- In its guard, a worker that goes on has less ahead. -/
theorem ahead_lt [Fintype W] {d : State R newV5 W} {w : W} {x y : Worker R newV5}
    (hw : s.daemon.worker w = x) (hd : d.worker = s.daemon.worker)
    (hq : d.queue = s.daemon.queue) (hg : s.guarded w = true) (hlt : y.stage < x.stage) :
    ({ s with daemon := d.toWorker w y } : QueueState R newV5 W).work < s.work := by
  have hmove := ahead_toWorker (y := y) hw hd
  have hqueue : (d.toWorker w y).queue = s.daemon.queue := hq
  rw [hg, Worker.ahead_true, Worker.ahead_true] at hmove
  simp only [QueueState.work, hqueue]
  omega

/-- **Every step of a worker costs some of the work.** -/
theorem queue_work_lt [Fintype W] (hworks : a.Works) (hstep : PanicStep capacity s a s') :
    s'.work < s.work := by
  cases hstep with
  | panic => cases hworks
  | queue hq =>
    cases hq with
    | @daemon b d hd hrecv hrun =>
      obtain ⟨hworker, hpanic⟩ := hworks
      cases hd with
      | @recv w job rest hw hq =>
        have hmove := ahead_toWorker (d := { s.daemon with queue := rest })
          (y := .preparing job) hw rfl
        have hqueue : ({ s.daemon with queue := rest }.toWorker w (.preparing job)).queue = rest :=
          rfl
        rw [hrecv w job rfl, Worker.ahead_of_none rfl, Worker.ahead_of_some rfl] at hmove
        simp only [Worker.stage] at hmove
        simp only [QueueState.work, hqueue, hq, List.length_cons]
        omega
      | prepared hw => exact ahead_lt hw rfl rfl (hrun _ rfl) (by simp [Worker.stage])
      | @unprepared _ _ outcome hw hne =>
        refine ahead_lt hw rfl rfl (hrun _ rfl) ?_
        cases outcome <;> simp [Worker.unprepared, Worker.stage]
      | check hw =>
        refine ahead_lt hw rfl rfl (hrun _ rfl) ?_
        split <;> simp [Worker.stage]
      | @put _ _ outcome _ hw _ =>
        refine ahead_lt hw rfl rfl (hrun _ rfl) ?_
        cases outcome <;> simp [Worker.afterPut, Worker.stage]
      | @upsert _ _ outcome _ hw _ =>
        refine ahead_lt hw rfl rfl (hrun _ rfl) ?_
        cases outcome <;> simp [Worker.afterUpsert, Worker.stage]
      | cleanup hw => exact ahead_lt hw rfl rfl (hrun _ rfl) (by simp [Worker.stage])
      | _ => exact absurd ⟨rfl, by simp⟩ hworker
    | @enter w job hjob hg =>
      have hmove := sum_move (fun v g => (s.daemon.worker v).ahead g) s.guarded w true
      rw [hg, Worker.ahead_true, Worker.ahead_of_some hjob] at hmove
      simp only [QueueState.work]
      omega
    | @leave w hjob hg =>
      have hmove := sum_move (fun v g => (s.daemon.worker v).ahead g) s.guarded w false
      rw [hg, Worker.ahead_true, Worker.ahead_of_none hjob] at hmove
      simp only [QueueState.work]
      omega
    | isEmpty | notEmpty | load => cases hworks

/-! ### Where it ends -/

/-- **A worker that holds a job has a step to take.** -/
theorem job_of_settled (hset : Settled (PanicStep capacity) PanicAction.Works s) (w : W) :
    (s.daemon.worker w).job = none := by
  have hrun : ∀ (b : Action newV5 W) (d : State R newV5 W), s.guarded w = true →
      b.runner = some w → b.panics = none → ¬ Step capacity s.daemon b d := by
    intro b d hg hb hpanic hd
    refine hset (.queue (.daemon b)) _ ⟨fun hof => by simp [hof.1] at hb, hpanic⟩
      (.queue (.daemon hd ?_ fun w' hw' => ?_))
    · rintro w' job rfl
      cases hb
    · obtain rfl := Option.some.inj (hb.symm.trans hw')
      exact hg
  by_contra hjob
  obtain ⟨job, hjob⟩ := Option.ne_none_iff_exists'.mp hjob
  cases hg : s.guarded w with
  | false => exact hset (.queue (.enter w)) _ trivial (.queue (.enter hjob hg))
  | true =>
    cases hw : s.daemon.worker w with
    | preparing job => exact hrun (.prepare w job .error) _ hg rfl rfl (.unprepared hw (by decide))
    | checking p => exact hrun _ _ hg rfl rfl (.check hw)
    | putting p => exact hrun (.put w p.job .ok) _ hg rfl rfl (.put hw fun _ => rfl)
    | indexing p => exact hrun (.upsert w p.job .ok) _ hg rfl rfl (.upsert hw fun _ => rfl)
    | cleaning job => exact hrun _ _ hg rfl rfl (.cleanup hw)
    | waiting | dead => simp [hw, Worker.job] at hjob

/-- Nor does a worker keep its guard. -/
theorem guarded_of_settled (hset : Settled (PanicStep capacity) PanicAction.Works s) (w : W) :
    s.guarded w = false := by
  by_contra hg
  exact hset (.queue (.leave w)) _ trivial
    (.queue (.leave (job_of_settled hset w) (by simpa using hg)))

/-- A job is left in the channel if nobody is there to take it. -/
theorem queue_of_settled (hset : Settled (PanicStep capacity) PanicAction.Works s) :
    s.daemon.queue = [] ∨ ∀ w, s.daemon.worker w = .dead := by
  cases hq : s.daemon.queue with
  | nil => exact .inl rfl
  | cons job rest =>
    refine .inr fun w => ?_
    by_contra halive
    rcases Worker.ne_dead_iff.mp halive with hw | hjob
    · refine hset (.queue (.daemon (.recv w job))) _ ⟨fun hof => hof.2 w job rfl, rfl⟩
        (.queue (.daemon (.recv hw hq) ?_ (by simp [Action.runner])))
      rintro w' job' ⟨⟩
      exact guarded_of_settled hset w
    · exact hjob (job_of_settled hset w)

/-- A panic does not change the count of the guards. -/
theorem counted_panic_run [Finite W] (hrun : PanicRun capacity ok h s) : Counted s := by
  obtain ⟨object, vector, hrun⟩ := hrun
  refine hrun.invariant_state ?_ fun _ s a s' hI _ hstep => ?_
  · exact ((population_eq_zero_iff (Set.toFinite _)).mpr (by simp [QueueState.init])).symm
  · cases hstep with
    | queue hq => exact counted_step hI hq
    | panic => exact hI

omit [DecidableEq W] in
/-- Who works does not panic. -/
theorem panics_of_works (hworks : a.Works) : a.panics = none := by
  cases a with
  | panic => cases hworks
  | queue b =>
    cases b with
    | daemon => exact hworks.2
    | _ => rfl

/-- Workers put nothing into the channel. -/
theorem queue_of_works (hworks : a.Works) (hstep : PanicStep capacity s a s')
    (hq : s.daemon.queue = []) : s'.daemon.queue = [] := by
  cases hstep with
  | panic => cases hworks
  | queue hq' =>
    cases hq' with
    | daemon hd =>
      cases hd with
      | recv _ hcons => simp [hq] at hcons
      | push => exact absurd ⟨rfl, by simp⟩ hworks.1
      | _ => exact hq
    | _ => exact hq

/-- How a queue goes on without its handlers. -/
structure QueueSettles [Fintype W] (capacity : ℕ) (s : QueueState R newV5 W) : Prop where
  /-- The workers have no more steps than this ahead. -/
  bounded : ∀ h' s', Run (PanicStep capacity) s (Own PanicAction.Works) h' s' →
    h'.length + s'.work ≤ s.work
  /-- They can take them to the end. -/
  ends : ∃ h' s', Run (PanicStep capacity) s (Own PanicAction.Works) h' s' ∧
    Settled (PanicStep capacity) PanicAction.Works s'
  /-- Then the queue is drained, unless it was stuck from the start. -/
  drained : ∀ h' s', Run (PanicStep capacity) s (Own PanicAction.Works) h' s' →
    Settled (PanicStep capacity) PanicAction.Works s' → (s'.isDrained = true ↔ ¬ s.Stuck)
  /-- No job is left, and nobody who asks is told otherwise. -/
  answered : ∀ h' s', Run (PanicStep capacity) s (Own PanicAction.Works) h' s' →
    Settled (PanicStep capacity) PanicAction.Works s' → ¬ s.Stuck →
      (∀ job, ¬ s'.daemon.Unfinished job) ∧ ∀ k t, ¬ QueueStep capacity s' (.isDrained k false) t

section Own

variable {h' : History (QueueState R newV5 W) (PanicAction newV5 W)}

theorem queue_of_own (hown : Run (PanicStep capacity) s (Own PanicAction.Works) h' s')
    (hq : s.daemon.queue = []) : s'.daemon.queue = [] := by
  refine hown.invariant_state (I := fun s => s.daemon.queue = []) hq fun _ t b t' hI hworks hstep =>
    ?_
  exact queue_of_works hworks hstep hI

/-- Who is there stays. -/
theorem dead_of_own (hown : Run (PanicStep capacity) s (Own PanicAction.Works) h' s') (w : W) :
    s'.daemon.worker w = .dead ↔ s.daemon.worker w = .dead := by
  refine hown.invariant_state (I := fun s' => s'.daemon.worker w = .dead ↔
    s.daemon.worker w = .dead) Iff.rfl fun _ t b t' hI hworks hstep => ?_
  rw [dead_step hstep w, hI, panics_of_works hworks]
  simp

/-- **What is left**: nothing, unless the queue is stuck. -/
theorem drained_of_settled [Finite W] (hrun : PanicRun capacity Always h s)
    (hown : Run (PanicStep capacity) s (Own PanicAction.Works) h' s')
    (hset : Settled (PanicStep capacity) PanicAction.Works s') :
    s'.inFlight = 0 ∧ (s'.daemon.queue = [] ↔ ¬ s.Stuck) := by
  obtain ⟨object, vector, hrun⟩ := hrun
  have hcount := counted_panic_run ⟨object, vector, hrun.append_own hown⟩
  refine ⟨hcount.trans ((population_eq_zero_iff (Set.toFinite _)).mpr fun w => ?_), ?_⟩
  · simp [guarded_of_settled hset w]
  constructor
  · intro hq hstuck
    exact (stuck_run hstuck hown).1.1 hq
  · intro hstuck
    rcases queue_of_settled hset with hq | hdead
    · exact hq
    · refine queue_of_own hown ?_
      by_contra hq
      exact hstuck (stuck_iff_dead.mpr ⟨hq, fun w => (dead_of_own hown w).mp (hdead w)⟩)

end Own

/-- **The queue drains if it is not stuck**: from any state it can be in, whatever the workers do
and whatever fails, after at most eight steps for each job. -/
theorem queue_settles [Fintype W]
    (h : History (QueueState R newV5 W) (PanicAction newV5 W)) (s : QueueState R newV5 W)
    (hrun : PanicRun capacity Always h s) : QueueSettles capacity s where
  bounded _ _ hown := Run.length_add_le (μ := QueueState.work) (fun _ _ _ => queue_work_lt) hown
  ends := Run.exists_settled (μ := QueueState.work) (fun _ _ _ => queue_work_lt) s
  drained h' s' hown hset := by
    obtain ⟨hzero, hq⟩ := drained_of_settled hrun hown hset
    rw [← hq]
    simp [QueueState.isDrained, hzero]
  answered h' s' hown hset hstuck := by
    obtain ⟨hzero, hq⟩ := drained_of_settled hrun hown hset
    have hempty := hq.mpr hstuck
    refine ⟨?_, fun k t hno => ?_⟩
    · rintro job (hmem | ⟨w, hw⟩)
      · simp [hempty] at hmem
      · simp [job_of_settled hset w] at hw
    · generalize hb : false = b at hno
      cases hno with
      | notEmpty _ hne => exact hne hempty
      | load _ => simp [hzero] at hb

/-- A write that a worker left in the channel is run by the other. -/
theorem queue_settles_taken : ∃ s : Sample.QueueMachine,
    QueueSettles writeQueueCapacity s ∧ s.daemon.worker 0 = .dead ∧ s.daemon.queue ≠ [] ∧
      ¬ s.Stuck := by
  obtain ⟨_, d, hrun, hq, hwaiting, -⟩ := Sample.filled_run 2 (by decide)
  have hqueue : d.queue = [Sample.job 0 [], Sample.job 1 []] := by
    rw [hq]
    rfl
  obtain ⟨h', s, hrun', hq', hw, -⟩ := panic_run hrun (hwaiting 0) rfl hqueue
  refine ⟨s, queue_settles h' s ⟨_, _, hrun'⟩, by simp [hw], by simp [hq'], fun hstuck => ?_⟩
  have hdead := (stuck_iff_dead.mp hstuck).2 1
  rw [hw, Function.update_of_ne (by decide)] at hdead
  simp [hwaiting 1] at hdead

end Semisweet.Daemon
