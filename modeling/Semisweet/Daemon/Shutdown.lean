import Semisweet.Daemon.Drain
import Semisweet.Daemon.Refcount

/-!
# Leaving the loop, and the drain

The idle branch is enabled or not when the `select!` is entered. The queue changes without
waking the `select!`, so a queue that was not drained then leaves the branch disabled after it
is, and until something else happens.

Once the loop is left, the connections' tasks go on: `run` stops accepting connections, not
writes. What is accepted after the drain's last question is not waited for.

## What is proved

* `queue_run` — what the daemon does to its queue is a run of the queue.
* `enabled_on_entry` — if the queue is drained whenever the guard reads it, the idle branch is
  enabled while nobody is counted; `stuck_idle`, a daemon that is idle and does not leave.
* `graceful_exit` — if no write is accepted between the drain's yes and the return of `run`, the
  acknowledged writes have run; `exit_drops_write`, one that has not.
-/

namespace Semisweet.Daemon

open Semisweet.Core Semisweet.Foundations Semisweet.Protocol

variable {R : Type} [Field R] {newV5 : Uuid → List UInt8 → Uuid} {W : Type} [DecidableEq W]
  {config : Config} {capacity : ℕ} {s s' : Server R newV5 W} {a : ServerAction newV5 W}
  {h : History (Server R newV5 W) (ServerAction newV5 W)}
  {ok : Guard (Server R newV5 W) (ServerAction newV5 W)}

/-! ### The queue within the daemon -/

/-- A step of the daemon is a step of its queue, or leaves the queue as it is. -/
theorem step_queue (hstep : ServerStep config capacity s a s') :
    (a.queue? = none ∧ s'.queue = s.queue) ∨
      ∃ b, a.queue? = some b ∧ QueueStep capacity s.queue b s'.queue := by
  cases hstep with
  | guard _ _ _ hq => exact .inr ⟨_, rfl, hq⟩
  | drain _ _ hq => exact .inr ⟨_, rfl, hq⟩
  | handle _ _ _ hq _ => exact .inr ⟨_, rfl, hq⟩
  | conclude _ _ _ hq _ _ => exact .inr ⟨_, rfl, hq⟩
  | work _ hq => exact .inr ⟨_, rfl, hq⟩
  | event _ _ | enter _ | leave _ | panic _ _ => exact .inl ⟨rfl, by simp⟩
  | _ => exact .inl ⟨rfl, rfl⟩

/-- **The daemon runs its queue**: without the rest, a run of the daemon is a run of the queue. -/
theorem queue_run (hrun : ServerRun config capacity ok h s) :
    QueueRun capacity Always (queueLog h) s.queue := by
  obtain ⟨object, vector, hrun⟩ := hrun
  refine ⟨object, vector, hrun.project (f := Server.queue) (g := ServerAction.queue?)
    (fun h s a s' b _ _ hstep hb => ⟨trivial, ?_⟩) fun s a s' hstep ha => ?_⟩
  · rcases step_queue hstep with ⟨hnone, -⟩ | ⟨b', hb', hq⟩
    · rw [hnone] at hb
      cases hb
    · obtain rfl := Option.some.inj (hb'.symm.trans hb)
      exact hq
  · rcases step_queue hstep with ⟨-, hq⟩ | ⟨b', hb', -⟩
    · exact hq
    · rw [ha] at hb'
      cases hb'

omit [DecidableEq W] in
/-- A write is accepted by the step that pushes it. -/
theorem accepted_queue_append_iff {job : WriteJob newV5} :
    Accepted (daemonLog (queueLog (h ++ [(s, a)]))) job ↔
      Accepted (daemonLog (queueLog h)) job ∨ ∃ c, a.queue? = some (.daemon (.push c job)) := by
  cases hb : a.queue? with
  | none =>
    rw [queueLog, History.project_snoc_of_none hb]
    simp [queueLog]
  | some b =>
    rw [queueLog, History.project_snoc_of_some hb, accepted_log_append_iff]
    simp [queueLog]

/-- A job becomes unfinished when it is accepted. -/
theorem unfinished_step {d d' : State R newV5 W} {b : Action newV5 W} {job : WriteJob newV5}
    (hstep : Step capacity d b d') (hun : d'.Unfinished job) :
    d.Unfinished job ∨ ∃ c, b = .push c job := by
  rcases hun with hj | ⟨w, hw⟩
  · rcases queue_step hstep hj with hj | ⟨c, hb, -⟩
    · exact .inl (.inl hj)
    · exact .inr ⟨c, hb⟩
  · have hstay : ∀ x : Worker R newV5, d.worker w = x → x.job = some job → d.Unfinished job :=
      fun x hx hj => .inr ⟨w, hx ▸ hj⟩
    rcases worker_step w hstep with heq | hgo
    · exact .inl (hstay _ rfl (heq ▸ hw))
    · generalize hx : d.worker w = x at hgo
      generalize d'.worker w = y at hgo hw
      cases hgo with
      | recv =>
        obtain rfl := Option.some.inj hw
        cases hstep with
        | recv _ hq => exact .inl (.inl (hq ▸ List.mem_cons_self))
      | prepareError | preparePanic | skipped _ | putPanic | upsertPanic | cleanup => cases hw
      | _ => exact .inl (hstay _ hx hw)

/-- And so in the daemon. -/
theorem unfinished_server_step {job : WriteJob newV5}
    (hstep : ServerStep config capacity s a s') (hun : s'.queue.daemon.Unfinished job) :
    s.queue.daemon.Unfinished job ∨ ∃ c, a.queue? = some (.daemon (.push c job)) := by
  rcases step_queue hstep with ⟨-, hq⟩ | ⟨b, hb, hq⟩
  · exact .inl (hq ▸ hun)
  · generalize s.queue = q at hq
    generalize s'.queue = q' at hq hun
    cases hq with
    | daemon hd _ _ =>
      rcases unfinished_step hd hun with hun | ⟨c, rfl⟩
      · exact .inl hun
      · exact .inr ⟨c, hb⟩
    | _ => exact .inl hun

/-! ### Acknowledged writes -/

omit [DecidableEq W] in
/-- A `Set` pushed the job, and its `Accepted(true)` was sent. -/
def Acknowledged (h : History (Server R newV5 W) (ServerAction newV5 W)) (job : WriteJob newV5) :
    Prop :=
  ∃ h₁ h₂ h₃ s₁ s₂ c, h = h₁ ++ (s₁, .handle c (.push c job)) :: (h₂ ++ (s₂, .reply c true) :: h₃) ∧
    s₂.conn c = .replying (.accepted true) ∧ ∀ t ∈ h₂, ∀ sent, t.2 ≠ .reply c sent

omit [DecidableEq W] in
theorem Acknowledged.accepted {job : WriteJob newV5} (hack : Acknowledged h job) :
    Accepted (daemonLog (queueLog h)) job := by
  obtain ⟨h₁, h₂, h₃, s₁, s₂, c, rfl, -, -⟩ := hack
  refine ⟨s₁.queue.daemon, c,
    History.mem_project.mpr ⟨s₁.queue, .daemon (.push c job), ?_, rfl, rfl⟩⟩
  exact History.mem_project.mpr ⟨s₁, .handle c (.push c job), by simp, rfl, rfl⟩

omit [DecidableEq W] in
theorem acknowledged_snoc {s₁ s₂ : Server R newV5 W} {c : ℕ} {job : WriteJob newV5}
    (hc : s₂.conn c = .replying (.accepted true)) :
    Acknowledged (h ++ [(s₁, .handle c (.push c job))] ++ [(s₂, .reply c true)]) job :=
  ⟨h, [], [], s₁, s₂, c, by simp, hc, by simp⟩

omit [DecidableEq W] in
theorem Acknowledged.append {job : WriteJob newV5} (hack : Acknowledged h job)
    (h' : History (Server R newV5 W) (ServerAction newV5 W)) : Acknowledged (h ++ h') job := by
  obtain ⟨h₁, h₂, h₃, s₁, s₂, c, rfl, hc, hno⟩ := hack
  exact ⟨h₁, h₂, h₃ ++ h', s₁, s₂, c, by simp, hc, hno⟩

/-! ### A client that writes -/

namespace Sample

variable {allows : Guard ServerMachine (ServerAction Core.Sample.platform.newV5 (Fin writeWorkers))}

/-- Its namespace. -/
def ns : String := "t"

/-- Its `RegisterNamespace`. -/
def registration : Request := .registerNamespace ns Client.Sample.config

/-- Its `Set`. -/
def write : Request := .set ns "q" ["a"] none [1]

/-- A daemon that has registered the namespace of its client, and has not counted it yet. -/
def serving : ServerMachine :=
  let welcomed := (server.toConn 0 .greeting).toConn 0 .welcomed
  let entered := (welcomed.send .connected).toConn 0 .waiting
  let asked := entered.toConn 0 (.handling registration)
  ({ asked with registry := insert ns ∅ }.toConn 0 (.replying .registered)).toConn 0 .waiting

theorem serving_run (hok : Lenient allows) : ∃ h : ServerLog,
    ServerRun settings writeQueueCapacity allows h serving := by
  obtain ⟨h, object, vector, hrun⟩ := welcomed_run hok
  have hother : ∀ h (s : ServerMachine) a, (∀ b, a ≠ ServerAction.check b) → s.phase = .guarding →
      allows h s a := fun h s a ha hp => hok.other h s a ha (by simp [hp])
  have h₁ := hrun.next (a := .enter 0) (hother _ _ _ (by simp) rfl) (.enter rfl)
  have h₂ := h₁.next (a := .receive 0 (.frame (some registration)))
    (hother _ _ _ (by simp) rfl) (.receive rfl)
  have h₃ := h₂.next (a := .register 0 ns) (hother _ _ _ (by simp) rfl) (.register rfl)
  have h₄ := h₃.next (a := .reply 0 true) (hother _ _ _ (by simp) rfl) (.reply rfl)
  exact ⟨_, object, vector, h₄⟩

/-- The write has its shadow. -/
def shadowed : Machine :=
  { daemon with
    pending := daemon.pending.insert (job 0 [1]).slot (job 0 [1]).value
    clock := 1 }.toHandler 0 (.shadowed (job 0 [1]))

/-- The write is in the queue. -/
def queued : Machine := { shadowed with queue := [job 0 [1]] }.toHandler 0 .idle

/-- The daemon once the client's write is acknowledged. -/
def written (s : ServerMachine) : ServerMachine :=
  let asked := s.toConn 0 (.handling write)
  let pushed := { asked with queue := { queue with daemon := queued } }
  (pushed.toConn 0 (.replying (.accepted true))).toConn 0 .waiting

theorem shadowed_step : QueueStep writeQueueCapacity queue (.daemon (.set 0 (job 0 [1])))
    { queue with daemon := shadowed } :=
  .daemon (.set rfl (fresh_daemon _) rfl) (by simp) (by simp [Action.runner])

theorem queued_step : QueueStep writeQueueCapacity { queue with daemon := shadowed }
    (.daemon (.push 0 (job 0 [1]))) { queue with daemon := queued } :=
  .daemon (.push rfl (by decide)) (by simp) (by simp [Action.runner])

/-- The handler of the client's `Set` begins with this step. -/
theorem begins_write {registry : Finset String} (hns : ns ∈ registry) :
    Begins registry write (.set 0 (job 0 [1]) :
      Action Core.Sample.platform.newV5 (Fin writeWorkers)) :=
  .set hns (by decide) (by decide) rfl

/-- The client writes, and its write is acknowledged. -/
theorem written_run {h : ServerLog} {s : ServerMachine}
    (hok : ∀ h (t : ServerMachine) a, (∀ b, a ≠ ServerAction.check b) → t.phase = s.phase →
      allows h t a)
    (hrun : ServerRun settings writeQueueCapacity allows h s) (hq : s.queue = queue)
    (hc : s.conn 0 = .waiting) (hns : ns ∈ s.registry) :
    ∃ h₂, ServerRun settings writeQueueCapacity allows (h ++ h₂) (written s) ∧
      Acknowledged (h ++ h₂) (job 0 [1]) := by
  obtain ⟨object, vector, hrun⟩ := hrun
  obtain ⟨q, registry, conn, phase, clients, events, expired, late⟩ := s
  obtain rfl : q = queue := hq
  have h₁ := hrun.next (a := .receive 0 (.frame (some write))) (hok _ _ _ (by simp) rfl)
    (.receive hc)
  have h₂ := h₁.next (a := .handle 0 (.set 0 (job 0 [1]))) (hok _ _ _ (by simp) rfl)
    (.handle rfl rfl (.inl (by exact begins_write hns)) shadowed_step
      (by simp [shadowed, State.toHandler]))
  have h₃ := h₂.next (a := .handle 0 (.push 0 (job 0 [1]))) (hok _ _ _ (by simp) rfl)
    (.conclude rfl rfl (.inr (by exact trivial)) queued_step rfl .accepted)
  have h₄ := h₃.next (a := .reply 0 true) (hok _ _ _ (by simp) rfl) (.reply rfl)
  rw [List.append_assoc, List.append_assoc, List.append_assoc] at h₄
  refine ⟨_, ⟨object, vector, h₄⟩, ?_⟩
  rw [← List.append_assoc, ← List.append_assoc, ← List.append_assoc]
  exact acknowledged_snoc rfl

/-- A worker has the write. -/
def taken : Machine := { queued with queue := [] }.toWorker 0 (.preparing (job 0 [1]))

/-- The write could not be prepared, and has run. -/
def ran : Machine := taken.toWorker 0 .waiting

theorem finished_ran (job : WriteJob Core.Sample.platform.newV5) : ¬ ran.Unfinished job := by
  rintro (hj | ⟨w, hw⟩)
  · cases hj
  · have hwait : ran.worker w = .waiting := forall_worker (Q := (· = .waiting)) rfl rfl w
    rw [hwait] at hw
    cases hw

/-- A worker takes the write and enters its guard. -/
theorem taken_steps :
    QueueStep writeQueueCapacity { queue with daemon := queued } (.daemon (.recv 0 (job 0 [1])))
        { queue with daemon := taken } ∧
      QueueStep writeQueueCapacity { queue with daemon := taken } (.enter 0)
        { queue with
          daemon := taken
          guarded := Function.update queue.guarded 0 true
          inFlight := 1 } :=
  ⟨.daemon (.recv rfl rfl) (by simp [queue, QueueState.init]) (by simp [Action.runner]),
    .enter (show (taken.worker 0).job = some (job 0 [1]) from rfl) rfl⟩

/-- The write runs, and the worker drops its guard. -/
theorem ran_steps (reading : ℕ → Bool) :
    QueueStep writeQueueCapacity ⟨taken, Function.update queue.guarded 0 true, 1, reading⟩
        (.daemon (.prepare 0 (job 0 [1]) .error))
        ⟨ran, Function.update queue.guarded 0 true, 1, reading⟩ ∧
      QueueStep writeQueueCapacity ⟨ran, Function.update queue.guarded 0 true, 1, reading⟩
        (.leave 0)
        ⟨ran, Function.update (Function.update queue.guarded 0 true) 0 false, 0, reading⟩ :=
  ⟨.daemon (.unprepared rfl (by decide)) (by simp) (by simp [Action.runner]),
    .leave (w := 0) rfl (by simp)⟩

/-- A worker takes the write and runs it. -/
theorem ran_run (hok : Lenient allows) {h : ServerLog} {s : ServerMachine}
    (hrun : ServerRun settings writeQueueCapacity allows h s)
    (hq : s.queue = { queue with daemon := queued }) (hp : s.phase = .guarding) :
    ∃ h₂ guarded, ServerRun settings writeQueueCapacity allows (h ++ h₂)
      { s with queue := ⟨ran, guarded, 0, queue.reading⟩ } := by
  obtain ⟨object, vector, hrun⟩ := hrun
  obtain ⟨q, registry, conn, phase, clients, events, expired, late⟩ := s
  obtain rfl : q = { queue with daemon := queued } := hq
  obtain rfl : phase = .guarding := hp
  have hwork : ∀ h (t : ServerMachine) a, t.phase = .guarding → allows h t (.work a) :=
    fun h t a hp => hok.other h t _ (by simp) (by simp [hp])
  have h₁ := hrun.next (hwork _ _ _ rfl) (.work (by exact rfl) taken_steps.1)
  have h₂ := h₁.next (hwork _ _ _ rfl) (.work (by exact trivial) taken_steps.2)
  have h₃ := h₂.next (hwork _ _ _ rfl) (.work (by exact rfl) (ran_steps _).1)
  have h₄ := h₃.next (hwork _ _ _ rfl) (.work (by exact trivial) (ran_steps _).2)
  rw [List.append_assoc, List.append_assoc, List.append_assoc] at h₄
  exact ⟨_, _, object, vector, h₄⟩

end Sample

/-! ### The idle branch -/

omit [DecidableEq W] in
/-- Nobody is counted, no event waits, the queue is drained, and the timer has expired. -/
def Server.Idle (s : Server R newV5 W) : Prop :=
  s.clients.isIdle = true ∧ s.events = [] ∧ s.queue.isDrained = true ∧ s.expired = true

omit [DecidableEq W] in
/-- Where the guard of the idle branch asks `is_drained`, and gets its answer, what it reads is
empty. -/
def DrainedOnEntry : Guard (Server R newV5 W) (ServerAction newV5 W) := fun _ s a =>
  s.phase = .guarding → ∀ answer, a = .check (.isDrained 0 answer) →
    if s.queue.reading 0 then s.queue.inFlight = 0 else s.queue.daemon.queue = []

omit [DecidableEq W] in
theorem lenient_drainedOnEntry : Lenient (DrainedOnEntry : Guard (Server R newV5 W) _) where
  other _ _ _ ha _ _ answer hanswer := absurd hanswer (ha _)
  isEmpty _ _ _ _ answer hanswer := by cases hanswer
  yes _ _ hr hf _ _ answer _ := by rwa [if_pos hr]

/-- **When the supervisor is not stuck**: if the queue is drained whenever the guard asks, a
`select!` has its idle branch enabled in every state in which the daemon is idle. -/
theorem enabled_on_entry (hrun : ServerRun config capacity DrainedOnEntry h s) {b : Bool}
    (hp : s.phase = .selecting b) (hidle : s.Idle) : b = true := by
  obtain ⟨object, vector, hrun⟩ := hrun
  refine hrun.invariant_state
    (I := fun s => ∀ b, s.phase = .selecting b → s.clients.isIdle = true → b = true)
    (fun b hp => by cases hp) (fun h s a s' hI hok hstep b hp hidle => ?_) b hp hidle.1
  rcases phase_step hstep with ⟨hsame, hclients⟩ | hsup
  · exact hI b (hsame.symm.trans hp) (hclients ▸ hidle)
  · rw [hp] at hsup
    generalize s'.clients = clients at hsup hidle
    cases hsup with
    | busy _ hbusy =>
      rw [hbusy] at hidle
      cases hidle
    | guard hg _ =>
      have hdrained := hok hg b rfl
      rcases step_queue hstep with ⟨hnone, -⟩ | ⟨q, hq, hread⟩
      · cases hnone
      · obtain rfl := Option.some.inj hq
        generalize s'.queue = q' at hread
        cases hread with
        | notEmpty hr hne =>
          rw [hr] at hdrained
          exact absurd hdrained hne
        | load hr =>
          rw [if_pos hr] at hdrained
          simpa using hdrained

namespace Sample

variable {allows : Guard ServerMachine (ServerAction Core.Sample.platform.newV5 (Fin writeWorkers))}

/-- A worker takes the write and commits it. -/
theorem committed_run (hok : Lenient allows) {h : ServerLog} {s : ServerMachine}
    (hrun : ServerRun settings writeQueueCapacity allows h s)
    (hq : s.queue = { queue with daemon := queued }) (hp : s.phase = .guarding) :
    ∃ h₂ q, ServerRun settings writeQueueCapacity allows (h ++ h₂) { s with queue := q } ∧
      q.inFlight = 0 ∧ q.reading = queue.reading ∧ (∀ job, ¬ q.daemon.Unfinished job) ∧
        q.daemon.object (job 0 [1]).slot = some [1] := by
  obtain ⟨object, vector, hrun⟩ := hrun
  obtain ⟨q, registry, conn, phase, clients, events, expired, late⟩ := s
  obtain rfl : q = { queue with daemon := queued } := hq
  obtain rfl : phase = .guarding := hp
  have hwork : ∀ h (t : ServerMachine) a, t.phase = .guarding → allows h t (.work a) :=
    fun h t a hp => hok.other h t _ (by simp) (by simp [hp])
  have h₁ := hrun.next (hwork _ _ _ rfl) (.work (by exact rfl) taken_steps.1)
  have h₂ := h₁.next (hwork _ _ _ rfl) (.work (by exact trivial) taken_steps.2)
  have h₃ := h₂.next (a := .work (.daemon (.prepare 0 (prepared 0 [1]).job .ok)))
    (hwork _ _ _ rfl) (.work (by exact rfl)
      (.daemon (.prepared rfl) (by simp) (by simp [Action.runner])))
  have h₄ := h₃.next (a := .work (.daemon (.check 0 (prepared 0 [1]).job)))
    (hwork _ _ _ rfl) (.work (by exact rfl)
      (.daemon (step_check rfl PendingWrites.holds_insert) (by simp) (by simp [Action.runner])))
  have h₅ := h₄.next (a := .work (.daemon (.put 0 (prepared 0 [1]).job .ok)))
    (hwork _ _ _ rfl) (.work (by exact rfl)
      (.daemon (.put rfl fun _ => rfl) (by simp) (by simp [Action.runner])))
  have h₆ := h₅.next (a := .work (.daemon (.upsert 0 (prepared 0 [1]).job .ok)))
    (hwork _ _ _ rfl) (.work (by exact rfl)
      (.daemon (.upsert rfl fun _ => rfl) (by simp) (by simp [Action.runner])))
  have h₇ := h₆.next (a := .work (.daemon (.cleanup 0 (job 0 [1]))))
    (hwork _ _ _ rfl) (.work (by exact rfl)
      (.daemon (.cleanup rfl) (by simp) (by simp [Action.runner])))
  have h₈ := h₇.next (a := .work (.leave 0)) (hwork _ _ _ rfl)
    (.work (by exact trivial) (.leave rfl (by simp)))
  simp only [List.append_assoc] at h₈
  refine ⟨_, _, ⟨object, vector, h₈⟩, rfl, rfl, ?_, ?_⟩
  · rintro job (hj | ⟨w, hw⟩)
    · cases hj
    · exact forall_worker (Q := fun x => x.job ≠ some job) (by rintro ⟨⟩) (by rintro ⟨⟩) w hw
  · exact Function.update_self _ _ _

end Sample

/-- A client is welcomed and counted, its write is committed, and it leaves; then the guard asks,
and the idle branch is enabled. -/
theorem enabled_on_entry_run : ∃ (h : Sample.ServerLog) (s : Sample.ServerMachine),
    ServerRun Sample.settings writeQueueCapacity DrainedOnEntry h s ∧
      Acknowledged h (Sample.job 0 [1]) ∧
        s.queue.daemon.object (Sample.job 0 [1]).slot = some [1] ∧ s.Idle ∧
          ∃ b, s.phase = .selecting b ∧ b = true := by
  have hok : Lenient (DrainedOnEntry : Guard Sample.ServerMachine _) := lenient_drainedOnEntry
  obtain ⟨h₁, hserving⟩ := Sample.serving_run hok
  obtain ⟨h₂, object, vector, hguard⟩ :=
    guard_run hok hserving rfl rfl rfl Sample.finished_server rfl
  -- the client is counted, and its write is acknowledged and committed
  have hcounted := hguard.next (a := .event .connected) (hok.other _ _ _ (by simp) (by simp))
    (.event rfl rfl)
  obtain ⟨h₃, hwritten, hack⟩ :=
    Sample.written_run (fun h t a ha hp => hok.other h t a ha (by rw [hp]; simp [Server.take]))
      ⟨_, _, hcounted⟩ rfl rfl (by decide)
  obtain ⟨h₄, q, ⟨object, vector, hcommitted⟩, hflight, hreading, hdone, hobject⟩ :=
    Sample.committed_run hok hwritten rfl rfl
  -- it leaves
  have h₅ := hcommitted.next (a := .receive 0 .eof) (hok.other _ _ _ (by simp) (by rintro ⟨⟩))
    (.receive rfl)
  have h₆ := h₅.next (a := .leave 0) (hok.other _ _ _ (by simp) (by rintro ⟨⟩)) (.leave rfl)
  have h₇ := h₆.next (a := .busy) (hok.other _ _ _ (by simp) (by rintro ⟨⟩)) (.busy rfl rfl)
  have h₈ := h₇.next (a := .event .disconnected) (hok.other _ _ _ (by simp) (by rintro ⟨⟩))
    (.event rfl rfl)
  obtain ⟨h₉, object, vector, hidle⟩ := guard_run hok ⟨_, _, h₈⟩ rfl rfl hflight hdone
    (by exact congrFun hreading 0)
  have h₁₀ := hidle.next (a := .expire) (hok.other _ _ _ (by simp) (by rintro ⟨⟩)) .expire
  have hdrained : q.isDrained = true := by
    have hempty : q.daemon.queue = [] :=
      List.eq_nil_iff_forall_not_mem.mpr fun job hj => hdone job (.inl hj)
    simp [QueueState.isDrained, hempty, hflight]
  refine ⟨_, _, ⟨_, _, h₁₀⟩, ?_, hobject, ⟨rfl, rfl, hdrained, rfl⟩, true, rfl,
    enabled_on_entry ⟨_, _, h₁₀⟩ rfl ⟨rfl, rfl, hdrained, rfl⟩⟩
  exact ((((((hack.append _).append _).append _).append _).append _).append _).append _

/-- **The supervisor may be stuck idle**: the last client leaves while its write runs. -/
theorem stuck_idle :
    ¬ ∀ (h : Sample.ServerLog) (s : Sample.ServerMachine) (b : Bool),
      ServerRun Sample.settings writeQueueCapacity Always h s → s.phase = .selecting b →
        s.Idle → b = true := by
  intro hall
  obtain ⟨h₁, hserving⟩ := Sample.serving_run Sample.lenient_always
  obtain ⟨h₂, object, vector, hguard⟩ :=
    guard_run Sample.lenient_always hserving rfl rfl rfl Sample.finished_server rfl
  -- the client is counted, writes, and a worker takes the write
  have h₃ := hguard.next trivial (.event rfl rfl)
  obtain ⟨h₄, ⟨object, vector, hwritten⟩, -⟩ :=
    Sample.written_run (fun _ _ _ _ _ => trivial) ⟨_, _, h₃⟩ rfl rfl (by decide)
  have h₅ := hwritten.next trivial (.work (by exact rfl) Sample.taken_steps.1)
  have h₆ := h₅.next trivial (.work (by exact trivial) Sample.taken_steps.2)
  -- it leaves, and the guard finds the write in flight
  have h₇ := h₆.next (a := .receive 0 .eof) trivial (.receive rfl)
  have h₈ := h₇.next (a := .leave 0) trivial (.leave rfl)
  have h₉ := h₈.next trivial (.busy rfl rfl)
  have h₁₀ := h₉.next trivial (.event rfl rfl)
  have h₁₁ := h₁₀.next trivial (.guard (a := .isEmpty 0) rfl rfl rfl (.isEmpty rfl rfl))
  have h₁₂ := h₁₁.next trivial (.guard (a := .isDrained 0 false) rfl rfl rfl (.load rfl))
  -- the write ends, and the timer expires
  have h₁₃ := h₁₂.next trivial (.work (by exact rfl) (Sample.ran_steps _).1)
  have h₁₄ := h₁₃.next trivial (.work (by exact trivial) (Sample.ran_steps _).2)
  have h₁₅ := h₁₄.next trivial .expire
  have hb := hall _ _ _ ⟨_, _, h₁₅⟩ rfl ⟨rfl, rfl, rfl, rfl⟩
  cases hb

/-! ### The drain -/

omit [DecidableEq W] in
/-- `is_drained` answers yes exactly when no accepted job is unfinished. -/
def ExactAnswers : Guard (Server R newV5 W) (ServerAction newV5 W) := fun h s a =>
  ∀ answer, a = .check (.isDrained 0 answer) → (answer = true ↔
    ∀ job, Accepted (daemonLog (queueLog h)) job → ¬ s.queue.daemon.Unfinished job)

omit [DecidableEq W] in
/-- No write is accepted once the drain has its yes. -/
def NoLateWrites : Guard (Server R newV5 W) (ServerAction newV5 W) := fun _ s a =>
  s.phase = .drained → ∀ c job, a.queue? ≠ some (.daemon (.push c job))

/-- **Who has the drain's yes**: who had it, or who just got it. -/
theorem drained_step (hstep : ServerStep config capacity s a s') (hp : s'.phase = .drained) :
    s.phase = .drained ∨ a = .check (.isDrained 0 true) := by
  rcases phase_step hstep with ⟨hsame, -⟩ | hsup
  · exact .inl (hsame.symm.trans hp)
  · rw [hp] at hsup
    generalize s'.clients = clients at hsup
    cases hsup with
    | drained _ => exact .inr rfl

/-- After the drain's yes, every accepted job has run. -/
theorem finished_of_drained {job : WriteJob newV5}
    (hrun : ServerRun config capacity (fun h s a => ExactAnswers h s a ∧ NoLateWrites h s a) h s)
    (hp : s.phase = .drained) (ha : Accepted (daemonLog (queueLog h)) job) :
    ¬ s.queue.daemon.Unfinished job := by
  obtain ⟨object, vector, hrun⟩ := hrun
  revert hp ha job
  refine hrun.invariant (I := fun h s => ∀ {job}, s.phase = .drained →
    Accepted (daemonLog (queueLog h)) job → ¬ s.queue.daemon.Unfinished job)
    (fun hp => by cases hp) fun h s a s' _ hI hok hstep job hp ha hun => ?_
  rcases drained_step hstep hp with hd | rfl
  · -- nothing is pushed here, so the job was accepted before, and was unfinished before
    have hno := fun c => hok.2 hd c job
    have ha : Accepted (daemonLog (queueLog h)) job :=
      (accepted_queue_append_iff.mp ha).resolve_right fun ⟨c, hc⟩ => hno c hc
    exact hI hd ha ((unfinished_server_step hstep hun).resolve_right fun ⟨c, hc⟩ => hno c hc)
  · -- the yes itself
    have hyes := (hok.1 true rfl).mp rfl job
    rcases accepted_queue_append_iff.mp ha with ha | ⟨c, hc⟩
    · rcases unfinished_server_step hstep hun with hun | ⟨c, hc⟩
      · exact hyes ha hun
      · cases hc
    · cases hc

/-- **When a graceful exit keeps acknowledged writes.** Let `is_drained` be exact. If no write is
accepted between the drain's yes and the return of `run`, then, when `run` returns before its
deadline, every write whose `Accepted(true)` was sent has run. -/
theorem graceful_exit {job : WriteJob newV5}
    (hrun : ServerRun config capacity (fun h s a => ExactAnswers h s a ∧ NoLateWrites h s a) h s)
    (hstep : ServerStep config capacity s a s') (hp : s.phase ≠ .returned)
    (hp' : s'.phase = .returned) (hlate : s.late = false) (hack : Acknowledged h job) :
    ¬ s'.queue.daemon.Unfinished job := by
  rcases phase_step hstep with ⟨hsame, -⟩ | hsup
  · exact absurd (hsame.symm.trans hp') hp
  · rw [hp'] at hsup
    generalize s'.clients = clients at hsup
    cases hsup with
    | finish hd =>
      intro hun
      rcases unfinished_server_step hstep hun with hun | ⟨c, hc⟩
      · exact finished_of_drained hrun hd hack.accepted hun
      · cases hc
    | giveUp _ hl =>
      rw [hlate] at hl
      cases hl

omit [DecidableEq W] in
theorem lenient_exactAnswers : Lenient (ExactAnswers : Guard (Server R newV5 W) _) where
  other _ _ _ ha _ answer hanswer := absurd hanswer (ha _)
  isEmpty _ _ _ answer hanswer := by cases hanswer
  yes _ _ _ _ hdone answer hanswer := by
    cases hanswer
    exact iff_of_true rfl fun job _ => hdone job

omit [DecidableEq W] in
theorem lenient_noLateWrites : Lenient (NoLateWrites : Guard (Server R newV5 W) _) where
  other _ _ _ _ hp hdrained := absurd hdrained hp
  isEmpty _ _ _ _ c job hpush := by cases hpush
  yes _ _ _ _ _ _ c job hpush := by cases hpush

/-- On SIGTERM, with nothing to do, the drain has its yes at once. -/
theorem drained_run (hok : Lenient ok) (hrun : ServerRun config capacity ok h s) {b : Bool}
    (hp : s.phase = .selecting b) (hflight : s.queue.inFlight = 0)
    (hdone : ∀ job, ¬ s.queue.daemon.Unfinished job) (hreading : s.queue.reading 0 = false) :
    ∃ h₂, ServerRun config capacity ok (h ++ h₂) { s with phase := .drained } := by
  obtain ⟨object, vector, hrun⟩ := hrun
  have hq : s.queue.daemon.queue = [] :=
    List.eq_nil_iff_forall_not_mem.mpr fun job hj => hdone job (.inl hj)
  obtain ⟨hempty, hyes⟩ := isDrained_yes capacity hreading hq hflight
  have h₁ := hrun.next (hok.other _ _ _ (by simp) (by simp [hp])) (.sigterm hp)
  have h₂ := h₁.next (hok.isEmpty _ _ _) (.drain (a := .isEmpty 0) rfl rfl hempty)
  have h₃ := h₂.next (hok.yes _ _ (by simp) hflight hdone)
    (.drain (a := .isDrained 0 true) rfl rfl hyes)
  rw [List.append_assoc, List.append_assoc] at h₃
  exact ⟨_, object, vector, h₃⟩

/-- A client writes, its write runs, and the daemon is told to stop. -/
theorem graceful_exit_run : ∃ (h : Sample.ServerLog) (s s' : Sample.ServerMachine),
    ServerRun Sample.settings writeQueueCapacity
        (fun h s a => ExactAnswers h s a ∧ NoLateWrites h s a) h s ∧
      ServerStep Sample.settings writeQueueCapacity s .finish s' ∧
        Acknowledged h (Sample.job 0 [1]) ∧ ¬ s'.queue.daemon.Unfinished (Sample.job 0 [1]) := by
  have hok : Lenient fun h (s : Sample.ServerMachine) a =>
      ExactAnswers h s a ∧ NoLateWrites h s a :=
    lenient_exactAnswers.and lenient_noLateWrites
  obtain ⟨h₁, hserving⟩ := Sample.serving_run hok
  obtain ⟨h₂, hwritten, hack⟩ := Sample.written_run
    (fun h t a ha hp => hok.other h t a ha (hp ▸ by decide)) hserving rfl rfl (by decide)
  obtain ⟨h₃, guarded, hran⟩ := Sample.ran_run hok hwritten rfl rfl
  obtain ⟨h₄, hguard⟩ := guard_run hok hran rfl rfl rfl Sample.finished_ran rfl
  obtain ⟨h₅, hdrained⟩ := drained_run hok hguard rfl rfl Sample.finished_ran rfl
  have hack := ((hack.append h₃).append h₄).append h₅
  exact ⟨_, _, _, hdrained, .finish rfl, hack,
    graceful_exit hdrained (.finish rfl) (by simp) rfl rfl hack⟩

/-- **An exit may drop an acknowledged write**: a client writes once the drain has its yes. -/
theorem exit_drops_write :
    ¬ ∀ (h : Sample.ServerLog) (s s' : Sample.ServerMachine)
      (a : ServerAction Core.Sample.platform.newV5 (Fin writeWorkers)),
      ServerRun Sample.settings writeQueueCapacity ExactAnswers h s →
        ServerStep Sample.settings writeQueueCapacity s a s' → s.phase ≠ .returned →
          s'.phase = .returned → s.late = false →
            ∀ job, Acknowledged h job → ¬ s'.queue.daemon.Unfinished job := by
  intro hall
  obtain ⟨h₁, hserving⟩ := Sample.serving_run lenient_exactAnswers
  obtain ⟨h₂, hguard⟩ :=
    guard_run lenient_exactAnswers hserving rfl rfl rfl Sample.finished_server rfl
  obtain ⟨h₃, hdrained⟩ :=
    drained_run lenient_exactAnswers hguard rfl rfl Sample.finished_server rfl
  obtain ⟨h₄, hwritten, hack⟩ := Sample.written_run
    (fun h t a ha _ answer hanswer => absurd hanswer (ha _)) hdrained rfl rfl (by decide)
  exact hall _ _ _ _ hwritten (.finish rfl) (by decide) rfl rfl _ hack (.inl List.mem_cons_self)

end Semisweet.Daemon
