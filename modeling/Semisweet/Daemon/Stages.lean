import Semisweet.Daemon.Tokens
import Semisweet.Core.CacheHistory

/-!
# How a write is carried out

A `Set` that the queue takes is answered `Accepted(true)`, one that it does not take
`Accepted(false)`, and no `Set` is answered both ways. A worker takes an accepted job through
`prepare`, the check, the two calls of `commit` and the cleanup, in this order.

## What is proved

* `putting_step`, `indexing_step`, `cleaning_step` — how a worker comes to each stage of a
  commit.
* `object_step`, `vector_step` — how the stores change.
* `answered_run` — an accepted job is with no handler, and was not rejected.
* `stages_run` — with every call succeeding, a worker that is cleaning up has committed.
* `fate_run` — with every call succeeding, a job that was set is live, committed, skipped at
  its check, or rejected.
-/

namespace Semisweet.Daemon

open Semisweet.Core Semisweet.Foundations

variable {R : Type} [Field R] {newV5 : Uuid → List UInt8 → Uuid} {W : Type}
  {s s' : State R newV5 W} {a : Action newV5 W} {h : History (State R newV5 W) (Action newV5 W)}

/-! ### The answers -/

/-- The `Set` of the job was answered `Accepted(true)`. -/
def Accepted (h : History (State R newV5 W) (Action newV5 W)) (job : WriteJob newV5) : Prop :=
  ∃ s c, (s, Action.push c job) ∈ h

/-- The queue was full for the `Set` of the job. -/
def Rejected (h : History (State R newV5 W) (Action newV5 W)) (job : WriteJob newV5) : Prop :=
  ∃ s c, (s, Action.reject c job) ∈ h

/-- Both calls of the job's commit succeeded. -/
def Committed (h : History (State R newV5 W) (Action newV5 W)) (job : WriteJob newV5) : Prop :=
  (∃ s w, (s, Action.put w job .ok) ∈ h) ∧ ∃ s w, (s, Action.upsert w job .ok) ∈ h

/-- The job's check found that the buffer does not hold its value. -/
def Skipped (h : History (State R newV5 W) (Action newV5 W)) (job : WriteJob newV5) : Prop :=
  ∃ s w, (s, Action.check w job) ∈ h ∧ s.pending.holds job.slot job.value = false

/-- The call, if the action is one that may fail, succeeded. -/
def Action.Succeeds : Action newV5 W → Prop
  | .prepare _ _ outcome => outcome = .ok
  | .put _ _ outcome => outcome = .ok
  | .upsert _ _ outcome => outcome = .ok
  | .delVector _ _ outcome => outcome = .ok
  | .delObject _ _ outcome => outcome = .ok
  | _ => True

/-- Every call succeeds. -/
def Succeeding : Guard (State R newV5 W) (Action newV5 W) := fun _ _ a => a.Succeeds

/-- A call that succeeds abandons no job. -/
theorem abandons_of_succeeds (hok : a.Succeeds) (job : WriteJob newV5) : a.abandons ≠ some job := by
  cases a with
  | prepare w job' outcome | put w job' outcome | upsert w job' outcome =>
    obtain rfl : outcome = .ok := hok
    simp [Action.abandons]
  | _ => simp [Action.abandons]

theorem Accepted.mono {job : WriteJob newV5} {h' : History (State R newV5 W) (Action newV5 W)}
    (hsub : h ⊆ h') (ha : Accepted h job) : Accepted h' job := by
  obtain ⟨s, c, hm⟩ := ha
  exact ⟨s, c, hsub hm⟩

theorem Committed.mono {job : WriteJob newV5} {h' : History (State R newV5 W) (Action newV5 W)}
    (hsub : h ⊆ h') (hc : Committed h job) : Committed h' job := by
  obtain ⟨⟨s, w, hm⟩, ⟨s', w', hm'⟩⟩ := hc
  exact ⟨⟨s, w, hsub hm⟩, ⟨s', w', hsub hm'⟩⟩

theorem Skipped.mono {job : WriteJob newV5} {h' : History (State R newV5 W) (Action newV5 W)}
    (hsub : h ⊆ h') (hs : Skipped h job) : Skipped h' job := by
  obtain ⟨s, w, hm, hno⟩ := hs
  exact ⟨s, w, hsub hm, hno⟩

theorem Rejected.mono {job : WriteJob newV5} {h' : History (State R newV5 W) (Action newV5 W)}
    (hsub : h ⊆ h') (hr : Rejected h job) : Rejected h' job := by
  obtain ⟨s, c, hm⟩ := hr
  exact ⟨s, c, hsub hm⟩

theorem accepted_append_iff {job : WriteJob newV5} :
    Accepted (h ++ [(s, a)]) job ↔ Accepted h job ∨ ∃ c, a = .push c job :=
  History.exists_mem_snoc fun c => Action.push c job

theorem rejected_append_iff {job : WriteJob newV5} :
    Rejected (h ++ [(s, a)]) job ↔ Rejected h job ∨ ∃ c, a = .reject c job :=
  History.exists_mem_snoc fun c => Action.reject c job

variable [DecidableEq W] {capacity : ℕ}

/-! ### The stages of a commit -/

/-- What a worker does next, with these shadows. -/
inductive Worker.Goes (pending : PendingWrites) (w : W) :
    Worker R newV5 → Action newV5 W → Worker R newV5 → Prop
  /-- It takes a job. -/
  | recv {job : WriteJob newV5} : Goes pending w .waiting (.recv w job) (.preparing job)
  /-- `prepare` succeeds. -/
  | prepared {p : Prepared R newV5} :
      Goes pending w (.preparing p.job) (.prepare w p.job .ok) (.checking p)
  /-- `prepare` fails. -/
  | prepareError {job : WriteJob newV5} :
      Goes pending w (.preparing job) (.prepare w job .error) .waiting
  /-- `prepare` panics. -/
  | preparePanic {job : WriteJob newV5} :
      Goes pending w (.preparing job) (.prepare w job .panic) .dead
  /-- The buffer holds its value. -/
  | held {p : Prepared R newV5} :
      pending.holds p.job.slot p.job.value = true →
        Goes pending w (.checking p) (.check w p.job) (.putting p)
  /-- The buffer does not hold its value. -/
  | skipped {p : Prepared R newV5} :
      pending.holds p.job.slot p.job.value = false →
        Goes pending w (.checking p) (.check w p.job) .waiting
  /-- `put` succeeds. -/
  | put {p : Prepared R newV5} : Goes pending w (.putting p) (.put w p.job .ok) (.indexing p)
  /-- `put` fails. -/
  | putError {p : Prepared R newV5} :
      Goes pending w (.putting p) (.put w p.job .error) (.cleaning p.job)
  /-- `put` panics. -/
  | putPanic {p : Prepared R newV5} : Goes pending w (.putting p) (.put w p.job .panic) .dead
  /-- `upsert` returns. -/
  | upsert {p : Prepared R newV5} {outcome : Outcome} :
      outcome ≠ .panic → Goes pending w (.indexing p) (.upsert w p.job outcome) (.cleaning p.job)
  /-- `upsert` panics. -/
  | upsertPanic {p : Prepared R newV5} : Goes pending w (.indexing p) (.upsert w p.job .panic) .dead
  /-- It drops its shadow. -/
  | cleanup {job : WriteJob newV5} : Goes pending w (.cleaning job) (.cleanup w job) .waiting

/-- A step that takes one worker on. -/
theorem goes_toWorker {t : State R newV5 W} {w w' : W} {y : Worker R newV5}
    (ht : t.worker = s.worker) (hgo : Worker.Goes s.pending w' (s.worker w') a y) :
    (t.toWorker w' y).worker w = s.worker w ∨
      Worker.Goes s.pending w (s.worker w) a ((t.toWorker w' y).worker w) := by
  rw [State.toWorker_worker, ht]
  split
  · rename_i hw
    exact .inr (hw ▸ hgo)
  · exact .inl rfl

/-- **What a step does to a worker**: nothing, or what the worker does next. -/
theorem worker_step (w : W) (hstep : Step capacity s a s') :
    s'.worker w = s.worker w ∨ Worker.Goes s.pending w (s.worker w) a (s'.worker w) := by
  cases hstep with
  | recv hw _ => exact goes_toWorker rfl (hw ▸ .recv)
  | prepared hw => exact goes_toWorker rfl (hw ▸ .prepared)
  | @unprepared _ _ outcome hw hne =>
    cases outcome with
    | ok => exact absurd rfl hne
    | error => exact goes_toWorker rfl (hw ▸ .prepareError)
    | panic => exact goes_toWorker rfl (hw ▸ .preparePanic)
  | check hw =>
    split
    · rename_i hholds
      exact goes_toWorker rfl (hw ▸ .held hholds)
    · rename_i hholds
      exact goes_toWorker rfl (hw ▸ .skipped (eq_false_of_ne_true hholds))
  | @put _ _ outcome _ hw _ =>
    cases outcome with
    | ok => exact goes_toWorker rfl (hw ▸ .put)
    | error => exact goes_toWorker rfl (hw ▸ .putError)
    | panic => exact goes_toWorker rfl (hw ▸ .putPanic)
  | @upsert _ _ outcome _ hw _ =>
    cases outcome with
    | panic => exact goes_toWorker rfl (hw ▸ .upsertPanic)
    | _ => exact goes_toWorker rfl (hw ▸ .upsert (by simp))
  | cleanup hw => exact goes_toWorker rfl (hw ▸ .cleanup)
  | _ => exact .inl rfl

/-- **Who is about to put**: who just found its value in the buffer. -/
theorem putting_step {w : W} {p : Prepared R newV5} (hstep : Step capacity s a s')
    (hw : s'.worker w = .putting p) :
    s.worker w = .putting p ∨
      s.worker w = .checking p ∧ a = .check w p.job ∧
        s.pending.holds p.job.slot p.job.value = true := by
  rcases worker_step w hstep with heq | hgo
  · exact .inl (heq ▸ hw)
  · rw [hw] at hgo
    generalize hx : s.worker w = x at hgo
    cases hgo with
    | held hholds => exact .inr ⟨rfl, rfl, hholds⟩

/-- **Who is about to index**: who just put. -/
theorem indexing_step {w : W} {p : Prepared R newV5} (hstep : Step capacity s a s')
    (hw : s'.worker w = .indexing p) :
    s.worker w = .indexing p ∨ s.worker w = .putting p ∧ a = .put w p.job .ok := by
  rcases worker_step w hstep with heq | hgo
  · exact .inl (heq ▸ hw)
  · rw [hw] at hgo
    generalize hx : s.worker w = x at hgo
    cases hgo with
    | put => exact .inr ⟨rfl, rfl⟩

/-- **Who is about to clean up**: who just indexed, or failed to commit. -/
theorem cleaning_step {w : W} {job : WriteJob newV5} (hstep : Step capacity s a s')
    (hw : s'.worker w = .cleaning job) :
    s.worker w = .cleaning job ∨
      (∃ p outcome, s.worker w = .indexing p ∧ p.job = job ∧ a = .upsert w job outcome) ∨
        a = .put w job .error := by
  rcases worker_step w hstep with heq | hgo
  · exact .inl (heq ▸ hw)
  · rw [hw] at hgo
    generalize hx : s.worker w = x at hgo
    cases hgo with
    | upsert _ => exact .inr (.inl ⟨_, _, rfl, rfl, rfl⟩)
    | putError => exact .inr (.inr rfl)

/-! ### The stores -/

/-- The slot a worker writes. -/
def Action.writes : Action newV5 W → Option Slot
  | .put _ job _ => some job.slot
  | .upsert _ job _ => some job.slot
  | _ => none

/-- **How the payload of a slot changes**: a worker puts one, or a `Del` removes it. -/
theorem object_step (hstep : Step capacity s a s') (slot : Slot) :
    s'.object slot = s.object slot ∨
      (∃ w p outcome, s.worker w = .putting p ∧ a = .put w p.job outcome ∧ p.job.slot = slot ∧
        s'.object slot = some p.job.value.bytes) ∨
      ∃ c outcome, a = .delObject c slot outcome ∧ s'.object slot = none := by
  cases hstep with
  | @put w p outcome applied hw _ =>
    obtain hkept | ⟨hslot, hnew⟩ := update_if_cases applied s.object p.slot _ slot
    · exact .inl hkept
    · exact .inr (.inl ⟨w, p, outcome, hw, rfl, p.slot_eq ▸ hslot.symm, hnew⟩)
  | @delObject c slot' _ applied outcome _ _ =>
    obtain hkept | ⟨hslot, hnew⟩ := update_if_cases applied s.object slot' none slot
    · exact .inl hkept
    · exact .inr (.inr ⟨c, outcome, hslot ▸ rfl, hnew⟩)
  | _ => exact .inl rfl

/-- **How the entry of a slot changes**: a worker upserts one, or a `Del` removes it. -/
theorem vector_step (hstep : Step capacity s a s') (slot : Slot) :
    s'.vector slot = s.vector slot ∨
      (∃ w p outcome, s.worker w = .indexing p ∧ a = .upsert w p.job outcome ∧ p.job.slot = slot ∧
        s'.vector slot = some p.entry) ∨
      ∃ c outcome, a = .delVector c slot outcome ∧ s'.vector slot = none := by
  cases hstep with
  | @upsert w p outcome applied hw _ =>
    obtain hkept | ⟨hslot, hnew⟩ := update_if_cases applied s.vector p.slot _ slot
    · exact .inl hkept
    · exact .inr (.inl ⟨w, p, outcome, hw, rfl, p.slot_eq ▸ hslot.symm, hnew⟩)
  | @delVector c slot' _ applied outcome _ _ =>
    obtain hkept | ⟨hslot, hnew⟩ := update_if_cases applied s.vector slot' none slot
    · exact .inl hkept
    · exact .inr (.inr ⟨c, outcome, hslot ▸ rfl, hnew⟩)
  | _ => exact .inl rfl

/-- A `put` that succeeds has put the payload. -/
theorem object_put {w : W} {job : WriteJob newV5} (hstep : Step capacity s (.put w job .ok) s') :
    s'.object job.slot = some job.value.bytes := by
  cases hstep with
  | @put _ p _ applied _ hallows =>
    obtain rfl : applied = true := hallows rfl
    simp [← p.slot_eq]

/-- An `upsert` that succeeds has written the entry. -/
theorem vector_upsert {w : W} {job : WriteJob newV5}
    (hstep : Step capacity s (.upsert w job .ok) s') :
    s'.vector job.slot ≠ none := by
  cases hstep with
  | @upsert _ p _ applied _ hallows =>
    obtain rfl : applied = true := hallows rfl
    simp [← p.slot_eq]

/-! ### What was done -/

/-- What a worker in the middle of a commit has done. -/
structure Stages (h : History (State R newV5 W) (Action newV5 W)) (s : State R newV5 W) : Prop where
  /-- A worker that is about to index has put. -/
  indexing : ∀ w p, s.worker w = .indexing p → ∃ s₀ w₀, (s₀, Action.put w₀ p.job .ok) ∈ h
  /-- A worker that is about to clean up has committed. -/
  cleaning : ∀ w job, s.worker w = .cleaning job → Committed h job

theorem stages_step (hI : Stages h s) (hok : a.Succeeds) (hstep : Step capacity s a s') :
    Stages (h ++ [(s, a)]) s' := by
  have hput : ∀ job : WriteJob newV5, (∃ s₀ w₀, (s₀, Action.put w₀ job .ok) ∈ h) →
      ∃ s₀ w₀, (s₀, Action.put w₀ job .ok) ∈ h ++ [(s, a)] := by
    rintro job ⟨s₀, w₀, hm⟩
    exact ⟨s₀, w₀, List.mem_append_left _ hm⟩
  refine ⟨fun w p hw => ?_, fun w job hw => ?_⟩
  · rcases indexing_step hstep hw with hw | ⟨-, rfl⟩
    · exact hput p.job (hI.indexing w p hw)
    · exact ⟨s, w, by simp⟩
  · rcases cleaning_step hstep hw with hw | ⟨p, outcome, hw', rfl, rfl⟩ | rfl
    · exact (hI.cleaning w job hw).mono (List.subset_append_left _ _)
    · obtain rfl : outcome = .ok := hok
      exact ⟨hput p.job (hI.indexing w p hw'), s, w, by simp⟩
    · cases hok

theorem stages_run (hrun : DaemonRun capacity Succeeding h s) : Stages h s := by
  obtain ⟨object, vector, hrun⟩ := hrun
  refine hrun.invariant ⟨?_, ?_⟩ fun h s a s' _ hI hok hstep => stages_step hI hok hstep
  · intro w p hw
    cases hw
  · intro w job hw
    cases hw

/-! ### One answer each -/

/-- What an answered `Set` has left behind. -/
structure Answered (h : History (State R newV5 W) (Action newV5 W)) (s : State R newV5 W) :
    Prop where
  /-- An accepted job is old, is with no handler, and was not rejected. -/
  accepted : ∀ job, Accepted h job →
    job.value.birth < s.clock ∧ (∀ c, (s.handler c).job ≠ some job) ∧ ¬ Rejected h job
  /-- A rejected job is old, and no handler is about to queue it. -/
  rejected : ∀ job, Rejected h job → job.value.birth < s.clock ∧ ∀ c, s.handler c ≠ .shadowed job
  /-- A handler that found the queue full rejected its job. -/
  told : ∀ c job, s.handler c = .rejected job → Rejected h job

omit [DecidableEq W] in
theorem State.handler_toHandler {t : State R newV5 W} {c c' : ℕ} {x z : Handler newV5}
    (hz : (t.toHandler c' x).handler c = z) : (c = c' ∧ x = z) ∨ t.handler c = z := by
  simp only [State.toHandler, Function.update_apply] at hz
  split at hz
  · exact .inl ⟨‹_›, hz⟩
  · exact .inr hz

/-- **What a handler has to do with a job**: it sets it, or is told that the queue is full. -/
theorem handler_step {c : ℕ} {z : Handler newV5} {job : WriteJob newV5}
    (hstep : Step capacity s a s') (hz : s'.handler c = z) (hj : z.job = some job) :
    s.handler c = z ∨ a = .set c job ∨
      s.handler c = .shadowed job ∧ z = .rejected job ∧ a = .reject c job := by
  cases hstep with
  | set _ _ _ =>
    rcases State.handler_toHandler hz with ⟨rfl, rfl⟩ | hz
    · obtain rfl := Option.some.inj hj
      exact .inr (.inl rfl)
    · exact .inl hz
  | reject hc _ =>
    rcases State.handler_toHandler hz with ⟨rfl, rfl⟩ | hz
    · obtain rfl := Option.some.inj hj
      exact .inr (.inr ⟨hc, rfl, rfl⟩)
    · exact .inl hz
  | @getFind _ _ found _ _ | @delFind _ _ _ found _ _ =>
    rcases State.handler_toHandler hz with ⟨-, rfl⟩ | hz
    · cases found <;> cases hj
    · exact .inl hz
  | delVector _ _ =>
    rcases State.handler_toHandler hz with ⟨-, rfl⟩ | hz
    · split at hj <;> cases hj
    · exact .inl hz
  | push _ _ | unshadow _ | getMiss _ _ | getLoad _ | del _ | delObject _ _ =>
    rcases State.handler_toHandler hz with ⟨-, rfl⟩ | hz
    · cases hj
    · exact .inl hz
  | _ => exact .inl hz

/-- Time does not go back. -/
theorem clock_step (hstep : Step capacity s a s') : s.clock ≤ s'.clock := by
  rcases step_jobs hstep with ⟨_, _, -, -, -, -, rfl⟩ | ⟨-, -, hclock⟩
  · exact Nat.le_succ _
  · exact hclock.ge

/-- **One answer each**: a step that answers a `Set` ends its handler. -/
theorem answered_step (ht : Tokens s) (hI : Answered h s) (hstep : Step capacity s a s') :
    Answered (h ++ [(s, a)]) s' := by
  have hclock := clock_step hstep
  -- a job that was answered is older than one that is set now
  have hnew : ∀ c job, a = .set c job → ¬ job.value.birth < s.clock := by
    rintro c job rfl hlt
    cases hstep with
    | set _ _ hbirth => omega
  refine ⟨fun job ha => ?_, fun job hr => ?_, fun c job hz => ?_⟩
  · rw [rejected_append_iff]
    rcases accepted_append_iff.mp ha with ha | ⟨c, rfl⟩
    · obtain ⟨hlt, hno, hnr⟩ := hI.accepted job ha
      refine ⟨hlt.trans_le hclock, fun c hj => ?_, ?_⟩
      · rcases handler_step hstep rfl hj with hz | hset | ⟨hc, -⟩
        · exact hno c (hz ▸ hj)
        · exact hnew c job hset hlt
        · exact hno c (by simp [hc, Handler.job])
      · rintro (hr | ⟨c, rfl⟩)
        · exact hnr hr
        · cases hstep with
          | reject hc _ => exact hno c (by simp [hc, Handler.job])
    · cases hstep with
      | push hc _ =>
        have hat : s.jobAt (.conn c) = some job := by simp [State.jobAt, hc, Handler.job]
        refine ⟨ht.past _ _ hat, fun c' hj => ?_, ?_⟩
        · by_cases hcc : c' = c
          · subst hcc
            simp [State.toHandler, Handler.job] at hj
          · simp only [State.toHandler, Function.update_of_ne hcc] at hj
            have hsame := ht.unique (.conn c') (.conn c) job job hj hat rfl
            exact hcc (Place.conn.inj hsame)
        · rintro (hr | ⟨c', ha⟩)
          · exact (hI.rejected job hr).2 c hc
          · cases ha
  · rcases rejected_append_iff.mp hr with hr | ⟨c, rfl⟩
    · obtain ⟨hlt, hno⟩ := hI.rejected job hr
      refine ⟨hlt.trans_le hclock, fun c hz => ?_⟩
      rcases handler_step hstep hz rfl with hz | hset | ⟨-, hz, -⟩
      · exact hno c hz
      · exact hnew c job hset hlt
      · cases hz
    · cases hstep with
      | reject hc _ =>
        have hat : s.jobAt (.conn c) = some job := by simp [State.jobAt, hc, Handler.job]
        refine ⟨ht.past _ _ hat, fun c' hz => ?_⟩
        by_cases hcc : c' = c
        · subst hcc
          simp [State.toHandler] at hz
        · simp only [State.toHandler, Function.update_of_ne hcc] at hz
          have hsame := ht.unique (.conn c') (.conn c) job job
            (by simp [State.jobAt, hz, Handler.job]) hat rfl
          exact hcc (Place.conn.inj hsame)
  · rw [rejected_append_iff]
    rcases handler_step hstep hz rfl with hz | rfl | ⟨-, -, ha⟩
    · exact .inl (hI.told c job hz)
    · cases hstep with
      | set _ _ _ => simp [State.toHandler] at hz
    · exact .inr ⟨c, ha⟩

theorem answered_run {ok : Guard (State R newV5 W) (Action newV5 W)}
    (hrun : DaemonRun capacity ok h s) :
    Answered h s := by
  obtain ⟨object, vector, hrun⟩ := hrun
  refine hrun.invariant ⟨?_, ?_, ?_⟩ fun h s a s' hr hI _ hstep =>
    answered_step (tokens_run ⟨object, vector, hr⟩) hI hstep
  · rintro job ⟨_, _, hm⟩
    cases hm
  · rintro job ⟨_, _, hm⟩
    cases hm
  · intro c job hz
    cases hz

/-! ### How every job ends -/

/-- What was accepted was set. -/
theorem set_of_accepted {ok : Guard (State R newV5 W) (Action newV5 W)} {job : WriteJob newV5}
    (hrun : DaemonRun capacity ok h s) (ha : Accepted h job) :
    ∃ s₀ c, (s₀, Action.set c job) ∈ h := by
  obtain ⟨object, vector, hrun⟩ := hrun
  obtain ⟨s₁, c, hm⟩ := ha
  obtain ⟨h₁, h₂, s', rfl, hbefore, -, hstep, -⟩ := hrun.exists_of_mem hm
  cases hstep with
  | push hc _ =>
    obtain ⟨s₀, c₀, hm₀⟩ := (setOnce_run ⟨object, vector, hbefore⟩).live job
      ⟨.conn c, by simpa [State.jobAt, Handler.job] using congrArg Handler.job hc⟩
    exact ⟨s₀, c₀, List.mem_append_left _ hm₀⟩

/-- **How every job ends**, if every call succeeds: committed, skipped or rejected. -/
theorem fate_run (hrun : DaemonRun capacity Succeeding h s) {s₀ : State R newV5 W} {c : ℕ}
    {job : WriteJob newV5} (hset : (s₀, Action.set c job) ∈ h) :
    s.Live job ∨ Committed h job ∨ Skipped h job ∨ Rejected h job := by
  obtain ⟨object, vector, hrun⟩ := hrun
  induction hrun with
  | start => cases hset
  | @next h s s' a hr hok hstep ih =>
    have hsub : h ⊆ h ++ [(s, a)] := List.subset_append_left _ _
    rcases List.mem_append.mp hset with hset | hset
    · rcases ih hset with hl | hc | hs | hr'
      · rcases live_step hstep hl with hl | ⟨hdrops, -⟩ | ⟨⟨w, rfl⟩, hno⟩ | hab
        · exact .inl hl
        · cases hstep with
          | unshadow hc =>
            obtain rfl := Option.some.inj hdrops
            exact .inr (.inr (.inr (((answered_run ⟨object, vector, hr⟩).told _ _ hc).mono hsub)))
          | cleanup hw =>
            obtain rfl := Option.some.inj hdrops
            exact .inr (.inl (((stages_run ⟨object, vector, hr⟩).cleaning _ _ hw).mono hsub))
          | _ => cases hdrops
        · exact .inr (.inr (.inl ⟨s, w, by simp, hno⟩))
        · exact absurd hab (abandons_of_succeeds hok job)
      · exact .inr (.inl (hc.mono hsub))
      · exact .inr (.inr (.inl (hs.mono hsub)))
      · exact .inr (.inr (.inr (hr'.mono hsub)))
    · simp only [List.mem_singleton, Prod.mk.injEq] at hset
      obtain ⟨-, rfl⟩ := hset
      cases hstep with
      | set _ _ _ => exact .inl ⟨.conn c, by simp [Handler.job]⟩

/-! ### A daemon with two workers -/

instance : NeZero writeWorkers := ⟨by decide⟩

namespace Sample

open Core.Sample (platform small one both entry derive_one derive_both)

/-- The `n`-th write, of the lookup `one`. -/
def job (n : ℕ) (bytes : List UInt8) : WriteJob platform.newV5 :=
  ⟨small.ns, EntryId.derive platform.newV5 one, one, rfl, ⟨n, bytes, n⟩⟩

/-- The `n`-th write, of the lookup `both`. -/
def other (n : ℕ) (bytes : List UInt8) : WriteJob platform.newV5 :=
  ⟨small.ns, EntryId.derive platform.newV5 both, both, rfl, ⟨n, bytes, n⟩⟩

/-- A write of `one`, prepared. -/
def prepared (n : ℕ) (bytes : List UInt8) : Prepared ℚ platform.newV5 :=
  (job n bytes).prepared platform small (show small.prepare platform one = .ok (entry one) from rfl)

theorem slot_ne (m n : ℕ) (bytes bytes' : List UInt8) :
    (other m bytes).slot ≠ (job n bytes').slot := by
  intro heq
  have hid : EntryId.derive platform.newV5 both = EntryId.derive platform.newV5 one :=
    congrArg Prod.snd heq
  rw [derive_one, derive_both] at hid
  revert hid
  decide

/-- Its states. -/
abbrev Machine := State ℚ platform.newV5 (Fin writeWorkers)

/-- Its histories. -/
abbrev Log := History Machine (Action platform.newV5 (Fin writeWorkers))

/-- The daemon, started with empty stores. -/
def daemon : Machine := State.init (fun _ => none) fun _ => none

theorem fresh_daemon (addr : ℕ) : daemon.Fresh addr := by
  refine ⟨fun slot v hv => ?_, fun p job hj => ?_⟩
  · cases hv
  · cases p <;> cases hj

/-- There are two workers. -/
theorem forall_worker {s : Machine} {Q : Worker ℚ platform.newV5 → Prop} (h₀ : Q (s.worker 0))
    (h₁ : Q (s.worker 1)) (w : Fin writeWorkers) : Q (s.worker w) := by
  have hw : ∀ w : Fin writeWorkers, w = 0 ∨ w = 1 := by decide
  rcases hw w with rfl | rfl
  · exact h₀
  · exact h₁

end Sample

end Semisweet.Daemon
