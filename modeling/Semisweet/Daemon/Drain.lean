import Semisweet.Daemon.Stages

/-!
# While the queue drains

With every call succeeding, no `Del` and no rejected `Set`, what matters is what a `Get` finds
while jobs wait, overtake and supersede each other, and what is stored in the end.

`WriteJob::run` drops a shadow after `commit`, so that a `Get` never sees a gap. It looks at
the shadow before `commit`, so that a superseded job skips, "with no lost update": but the
look and the `put` are two steps, and between them another worker may take a newer job
through its whole commit. The `put` of the older one then comes last.

## What is proved

* `last_wins` — if no worker puts a payload after that of a newer `Set` of the slot, then once
  all jobs of a slot are done, its payload is that of the last `Set`.
* `putsInOrder_of_held` — so it is if the check still passes at every `put`.
* `last_wins_fails` — two workers suffice for it to be that of an older one.
* `no_read_gap` — from its acknowledgement on, a slot has a shadow or both stores hold it; so
  a `Get` that finds no shadow reads stores that hold it.
-/

namespace Semisweet.Daemon

open Semisweet.Core Semisweet.Foundations

variable {R : Type} [Field R] {newV5 : Uuid → List UInt8 → Uuid} {W : Type}

/-- The action is a step of a `Del`. -/
def Action.Deletes : Action newV5 W → Prop
  | .del _ _ => True
  | .delFind _ _ => True
  | .delVector _ _ _ => True
  | .delObject _ _ _ => True
  | _ => False

/-- The action is a step of a rejected `Set`. -/
def Action.Rejects : Action newV5 W → Prop
  | .reject _ _ => True
  | .unshadow _ _ => True
  | _ => False

/-- Every call succeeds, and there is no `Del` and no rejected `Set`. -/
def Draining : Guard (State R newV5 W) (Action newV5 W) := fun _ _ a =>
  a.Succeeds ∧ ¬ a.Deletes ∧ ¬ a.Rejects

variable [DecidableEq W] {capacity : ℕ} {s s' : State R newV5 W} {a : Action newV5 W}
  {h : History (State R newV5 W) (Action newV5 W)}

/-- Only a worker that is done drops a shadow. -/
theorem cleaning_of_drops {job : WriteJob newV5} (hstep : Step capacity s a s') (hr : ¬ a.Rejects)
    (hdrops : a.drops = some job) : ∃ w, a = .cleanup w job ∧ s.worker w = .cleaning job := by
  cases hstep with
  | unshadow _ => exact absurd trivial hr
  | @cleanup w job' hw =>
    obtain rfl := Option.some.inj hdrops
    exact ⟨w, rfl, hw⟩
  | _ => cases hdrops

/-! ### The last write -/

/-- The `Set` of the job is the last of its slot. -/
def LastSet (h : History (State R newV5 W) (Action newV5 W)) (job : WriteJob newV5) : Prop :=
  ∃ h₁ s₀ c h₂, h = h₁ ++ (s₀, Action.set c job) :: h₂ ∧
    ∀ t ∈ h₂, ∀ c' later, t.2 = Action.set c' later → later.slot ≠ job.slot

/-- All jobs of the slot are done. -/
def Finished (s : State R newV5 W) (slot : Slot) : Prop := ∀ job, s.Live job → job.slot ≠ slot

/-- **The last write wins**: once all jobs of a slot are done, its payload is that of the last
`Set`. -/
def LastWins (h : History (State R newV5 W) (Action newV5 W)) (s : State R newV5 W) : Prop :=
  ∀ job, LastSet h job → Finished s job.slot → s.object job.slot = some job.value.bytes

/-- No payload is put after that of a newer `Set` of its slot. -/
def PutsInOrder : Guard (State R newV5 W) (Action newV5 W) := fun h _ a =>
  ∀ w job outcome, a = .put w job outcome → ∀ s₀ w₀ newer outcome₀,
    (s₀, Action.put w₀ newer outcome₀) ∈ h →
    newer.slot = job.slot → newer.value.birth ≤ job.value.birth

/-- The payload of the job was put. -/
def WasPut (h : History (State R newV5 W) (Action newV5 W)) (job : WriteJob newV5) : Prop :=
  ∃ s w outcome, (s, Action.put w job outcome) ∈ h

omit [DecidableEq W] in
theorem wasPut_append_iff {job : WriteJob newV5} :
    WasPut (h ++ [(s, a)]) job ↔ WasPut h job ∨ ∃ w outcome, a = .put w job outcome := by
  simpa only [WasPut, Prod.exists] using
    History.exists_mem_snoc fun x : W × Outcome => Action.put x.1 job x.2

/-- What was put was set. -/
theorem set_of_wasPut {ok : Guard (State R newV5 W) (Action newV5 W)} {job : WriteJob newV5}
    (hrun : DaemonRun capacity ok h s) (hp : WasPut h job) :
    ∃ s₀ c, (s₀, Action.set c job) ∈ h := by
  obtain ⟨object, vector, hrun⟩ := hrun
  obtain ⟨s₁, w, outcome, hm⟩ := hp
  obtain ⟨h₁, h₂, s', rfl, hbefore, -, hstep, -⟩ := hrun.exists_of_mem hm
  cases hstep with
  | put hw _ =>
    obtain ⟨s₀, c₀, hm₀⟩ := (setOnce_run ⟨object, vector, hbefore⟩).live _
      ⟨.worker w, by simpa [State.jobAt, Worker.job] using congrArg Worker.job hw⟩
    exact ⟨s₀, c₀, List.mem_append_left _ hm₀⟩

/-- The `Set`s of a slot are no newer than the last. -/
theorem LastSet.newest {ok : Guard (State R newV5 W) (Action newV5 W)} {job : WriteJob newV5}
    (hrun : DaemonRun capacity ok h s) (hlast : LastSet h job) {s₀ : State R newV5 W} {c : ℕ}
    {other : WriteJob newV5} (hm : (s₀, Action.set c other) ∈ h) (hslot : other.slot = job.slot) :
    other.value.birth ≤ job.value.birth := by
  obtain ⟨h₁, s₁, c₁, h₂, rfl, hno⟩ := hlast
  obtain ⟨object, vector, hrun⟩ := hrun
  obtain ⟨s', hbefore, -, hstep, -⟩ := hrun.split
  rcases List.mem_append.mp hm with hm | hm
  · cases hstep with
    | set _ _ hbirth =>
      exact hbirth ▸ ((setOnce_run ⟨object, vector, hbefore⟩).past s₀ c other hm).le
  · rcases List.mem_cons.mp hm with heq | hm
    · cases heq
      exact le_rfl
    · exact absurd hslot (hno _ hm c other rfl)

omit [DecidableEq W] in
/-- The last `Set` is the one just made, or was the last before. -/
theorem LastSet.of_append {job : WriteJob newV5} (hlast : LastSet (h ++ [(s, a)]) job) :
    (∃ c, a = .set c job) ∨
      LastSet h job ∧ ∀ c later, a = .set c later → later.slot ≠ job.slot := by
  obtain ⟨h₁, s₀, c, h₂, heq, hno⟩ := hlast
  rcases List.eq_nil_or_concat h₂ with rfl | ⟨h₂', t, rfl⟩
  · obtain ⟨-, ht⟩ := List.append_inj' heq rfl
    simp only [List.cons.injEq, Prod.mk.injEq, and_true] at ht
    exact .inl ⟨c, ht.2⟩
  · rw [List.concat_eq_append, ← List.cons_append, ← List.append_assoc] at heq
    obtain ⟨rfl, ht⟩ := List.append_inj' heq rfl
    simp only [List.cons.injEq, and_true] at ht
    subst ht
    refine .inr ⟨⟨h₁, s₀, c, h₂', rfl, fun t ht => hno t (by simp [ht])⟩, fun c' later ha => ?_⟩
    exact hno (s, a) (by simp) c' later ha

/-- The last write of a slot is on its way, its shadow in the buffer; or it was put, and its
payload is there. -/
def LastAhead (h : History (State R newV5 W) (Action newV5 W)) (s : State R newV5 W) : Prop :=
  ∀ job, LastSet h job →
    (s.Live job ∧ ¬ WasPut h job ∧ s.pending job.slot = some job.value) ∨
      (WasPut h job ∧ s.object job.slot = some job.value.bytes)

/-- The queue drains, and payloads are put in order. -/
def DrainingInOrder : Guard (State R newV5 W) (Action newV5 W) :=
  fun h s a => Draining h s a ∧ PutsInOrder h s a

/-- **Every step keeps the last write ahead**: its shadow makes its check pass, and only its own
job drops that shadow, once the payload is put. -/
theorem lastAhead_step (hrun : DaemonRun capacity DrainingInOrder h s) (hI : LastAhead h s)
    (hok : DrainingInOrder h s a) (hstep : Step capacity s a s') :
    LastAhead (h ++ [(s, a)]) s' := by
  obtain ⟨⟨hsucc, hd, hr⟩, horder⟩ := hok
  have ht := tokens_run hrun
  have honce := setOnce_run hrun
  have hstages : Stages h s := stages_run (hrun.mono fun _ _ _ hok => hok.1.1)
  intro job hlast
  rcases hlast.of_append with ⟨c, rfl⟩ | ⟨hlast₀, hother⟩
  · cases hstep with
    | set _ _ hbirth =>
      refine .inl ⟨⟨.conn c, by simp [Handler.job]⟩, ?_, by simp [PendingWrites.insert]⟩
      rw [wasPut_append_iff]
      rintro (hp | ⟨w, outcome, ha⟩)
      · obtain ⟨s₀, c₀, hm⟩ := set_of_wasPut hrun hp
        exact absurd (honce.past s₀ c₀ job hm) (by omega)
      · cases ha
  rcases hI job hlast₀ with ⟨hl, hnp, hv⟩ | ⟨hp, hobj⟩
  · by_cases hput : ∃ w outcome, a = .put w job outcome
    · obtain ⟨w, outcome, rfl⟩ := hput
      obtain rfl : outcome = .ok := hsucc
      exact .inr ⟨wasPut_append_iff.mpr (.inr ⟨w, .ok, rfl⟩), object_put hstep⟩
    -- a job that drops its shadow has been put
    have hkeep : ∀ ended, a.drops = some ended → job.value.addr ≠ ended.value.addr := by
      intro ended hdrops haddr
      obtain ⟨w, -, hw⟩ := cleaning_of_drops hstep hr hdrops
      obtain ⟨p, hp⟩ := hl
      have hat : s.jobAt (.worker w) = some ended := by simp [State.jobAt, hw, Worker.job]
      obtain rfl := ht.unique p (.worker w) job ended hp hat haddr
      obtain rfl := Option.some.inj (hp.symm.trans hat)
      obtain ⟨⟨s₀, w₀, hm⟩, -⟩ := hstages.cleaning w job hw
      exact hnp ⟨s₀, w₀, .ok, hm⟩
    refine .inl ⟨?_, fun hp => ?_, ?_⟩
    · rcases live_step hstep hl with hl | ⟨hdrops, -⟩ | ⟨-, hno⟩ | hab
      · exact hl
      · exact absurd rfl (hkeep job hdrops)
      · rw [PendingWrites.holds_iff.mpr ⟨_, hv, rfl⟩] at hno
        cases hno
      · exact absurd hab (abandons_of_succeeds hsucc job)
    · rcases wasPut_append_iff.mp hp with hp | hp
      · exact hnp hp
      · exact hput hp
    · rcases shadow_step hstep hv with hv | ⟨c, later, ha, hslot⟩ | ⟨c, rfl⟩ |
        ⟨ended, hdrops, -, haddr⟩
      · exact hv
      · exact absurd hslot (hother c later ha)
      · exact absurd trivial hd
      · exact absurd haddr (hkeep ended hdrops)
  · refine .inr ⟨wasPut_append_iff.mpr (.inl hp), ?_⟩
    rcases object_step hstep job.slot with heq | ⟨w, p, outcome, hw, rfl, hslot, hsome⟩ |
      ⟨c, outcome, rfl, -⟩
    · exact heq.trans hobj
    · -- whoever puts now is no older than the last, so it is the last
      obtain ⟨s₂, c₂, hm₂⟩ := set_of_wasPut hrun hp
      obtain ⟨s₀, w₀, outcome₀, hm₀⟩ := hp
      have hle := horder w p.job outcome rfl s₀ w₀ job outcome₀ hm₀ hslot.symm
      obtain ⟨s₁, c₁, hm₁⟩ := honce.live p.job ⟨.worker w, by simp [State.jobAt, hw, Worker.job]⟩
      have hge := hlast₀.newest hrun hm₁ hslot
      have hsame := (honce.once s₁ c₁ p.job s₂ c₂ job hm₁ hm₂ (hge.antisymm hle)).2
      rw [hsome, hsame]
    · exact absurd trivial hd

theorem lastAhead_run (hrun : DaemonRun capacity DrainingInOrder h s) : LastAhead h s := by
  obtain ⟨object, vector, hrun⟩ := hrun
  refine hrun.invariant (fun job hlast => ?_) fun h s a s' hr hI hok hstep =>
    lastAhead_step ⟨object, vector, hr⟩ hI hok hstep
  obtain ⟨h₁, s₀, c, h₂, heq, -⟩ := hlast
  simp at heq

/-- **The last write wins** in every run in which payloads are put in order. -/
theorem last_wins (hrun : DaemonRun capacity DrainingInOrder h s) : LastWins h s := by
  intro job hlast hfin
  rcases lastAhead_run hrun job hlast with ⟨hl, -⟩ | ⟨-, hobj⟩
  · exact absurd rfl (hfin job hl)
  · exact hobj

/-- Nobody has set the slot since its shadow was recorded. -/
theorem newest_of_shadow {ok : Guard (State R newV5 W) (Action newV5 W)} {slot : Slot} {v : Arc}
    (hrun : DaemonRun capacity ok h s) (hv : s.pending slot = some v) {s₀ : State R newV5 W}
    {c : ℕ} {job : WriteJob newV5} (hm : (s₀, Action.set c job) ∈ h) (hslot : job.slot = slot) :
    job.value.birth ≤ v.birth := by
  obtain ⟨object, vector, hrun⟩ := hrun
  refine hrun.invariant (I := fun h s => ∀ slot v, s.pending slot = some v → ∀ s₀ c job,
    (s₀, Action.set c job) ∈ h → job.slot = slot → job.value.birth ≤ v.birth)
    (fun _ _ hv => by cases hv) (fun h s a s' hr ih _ hstep slot v hv s₀ c job hm hslot => ?_)
    slot v hv s₀ c job hm hslot
  rcases step_jobs hstep with ⟨c', new, rfl, -, -, hbirth, rfl⟩ | ⟨hset, ⟨-, hpend⟩, -⟩
  · have hpast := (setOnce_run ⟨object, vector, hr⟩).past
    simp only [State.toHandler_pending, PendingWrites.insert, Function.update_apply] at hv
    simp only [List.mem_append, List.mem_singleton, Prod.mk.injEq, Action.set.injEq] at hm
    split at hv
    · -- the shadow is the new one, and every other is older
      obtain rfl := Option.some.inj hv
      rcases hm with hm | ⟨-, -, rfl⟩
      · exact hbirth ▸ (hpast s₀ c job hm).le
      · exact le_rfl
    · rcases hm with hm | ⟨-, -, rfl⟩
      · exact ih slot v hv s₀ c job hm hslot
      · exact absurd hslot.symm ‹_›
  · rcases List.mem_append.mp hm with hm | hm
    · exact ih slot v (hpend slot v hv) s₀ c job hm hslot
    · simp only [List.mem_singleton, Prod.mk.injEq] at hm
      exact absurd hm.2.symm (hset c job)

/-- A payload is only put while the buffer holds it: the check still passes at the `put`. -/
def PutsHeld : Guard (State R newV5 W) (Action newV5 W) := fun _ s a =>
  ∀ w job outcome, a = .put w job outcome → s.pending.holds job.slot job.value = true

/-- **Were the check and the `put` one step**, payloads would be put in order. -/
theorem putsInOrder_of_held
    (hrun : DaemonRun capacity (fun h s a => Draining h s a ∧ PutsHeld h s a) h s) :
    DaemonRun capacity DrainingInOrder h s := by
  obtain ⟨object, vector, hrun⟩ := hrun
  refine ⟨object, vector, hrun.mono fun h s a s' hr hok hstep => ⟨hok.1, ?_⟩⟩
  rintro w job outcome rfl s₀ w₀ newer outcome₀ hm hslot
  obtain ⟨v, hv, haddr⟩ := PendingWrites.holds_iff.mp (hok.2 w job outcome rfl)
  obtain ⟨s₁, c, hset⟩ := set_of_wasPut ⟨object, vector, hr⟩ ⟨s₀, w₀, outcome₀, hm⟩
  have hle := newest_of_shadow ⟨object, vector, hr⟩ hv hset hslot
  -- one address, one allocation
  cases hstep with
  | put hw _ =>
    have hat : s.jobAt (.worker w) = some _ := congrArg Worker.job hw
    rwa [((tokens_run ⟨object, vector, hr⟩).shadow _ v _ _ hv hat haddr).1] at hle

/-- A check that passes. -/
theorem step_check {w : W} {p : Prepared R newV5} (hw : s.worker w = .checking p)
    (hholds : s.pending.holds p.job.slot p.job.value = true) :
    Step capacity s (.check w p.job) (s.toWorker w (.putting p)) := by
  have hstep : Step capacity s (.check w p.job) _ := .check hw
  rwa [if_pos hholds] at hstep

namespace Sample

theorem inOrder {h : Log} {s : Machine} {a : Action Core.Sample.platform.newV5 (Fin writeWorkers)}
    (hok : Draining h s a) (hne : ∀ w job outcome, a ≠ .put w job outcome) :
    DrainingInOrder h s a :=
  ⟨hok, fun w job outcome ha => absurd ha (hne w job outcome)⟩

theorem finished_of_idle {s : Machine} (hc : ∀ c, s.handler c = .idle) (hq : s.queue = [])
    (hw : ∀ w, s.worker w = .waiting) (slot : Slot) : Finished s slot := by
  rintro job ⟨p, hp⟩
  cases p with
  | conn c => simp [State.jobAt, hc, Handler.job] at hp
  | queued i => simp [State.jobAt, hq] at hp
  | worker w => simp [State.jobAt, hw, Worker.job] at hp

/-- A write is set, queued, committed and dropped from the buffer. -/
theorem drained : ∃ (h : Log) (s : Machine), DaemonRun writeQueueCapacity DrainingInOrder h s ∧
    Accepted h (job 0 [1]) ∧ LastSet h (job 0 [1]) ∧ Finished s (job 0 [1]).slot ∧
      s.handler 1 = .idle ∧
      s.pending (job 0 [1]).slot = none := by
  have h₀ : Run (Step writeQueueCapacity) daemon DrainingInOrder [] daemon := .start
  have h₁ := h₀.next (a := .set 0 (job 0 [1])) (by exact inOrder ⟨trivial, id, id⟩ (by simp))
    (.set rfl (fresh_daemon _) rfl)
  have h₂ := h₁.next (a := .push 0 (job 0 [1])) (by exact inOrder ⟨trivial, id, id⟩ (by simp))
    (.push rfl (by decide))
  have h₃ := h₂.next (a := .recv 0 (job 0 [1])) (by exact inOrder ⟨trivial, id, id⟩ (by simp))
    (.recv rfl rfl)
  have h₄ := h₃.next (a := .prepare 0 (prepared 0 [1]).job .ok)
    (by exact inOrder ⟨rfl, id, id⟩ (by simp)) (.prepared rfl)
  have h₅ := h₄.next (a := .check 0 (prepared 0 [1]).job)
    (by exact inOrder ⟨trivial, id, id⟩ (by simp))
    (step_check rfl PendingWrites.holds_insert)
  have h₆ := h₅.next (a := .put 0 (prepared 0 [1]).job .ok)
    (by
      refine ⟨⟨rfl, id, id⟩, ?_⟩
      rintro w job outcome - s₀ w₀ newer outcome₀ hm
      simp at hm)
    (.put rfl fun _ => rfl)
  have h₇ := h₆.next (a := .upsert 0 (prepared 0 [1]).job .ok)
    (by exact inOrder ⟨rfl, id, id⟩ (by simp))
    (.upsert rfl fun _ => rfl)
  have h₈ := h₇.next (a := .cleanup 0 (job 0 [1]))
    (by exact inOrder ⟨trivial, id, id⟩ (by simp)) (.cleanup rfl)
  refine ⟨_, _, ⟨_, _, h₈⟩, ?_, ⟨[], _, 0, [_, _, _, _, _, _, _], rfl, ?_⟩, ?_, rfl, ?_⟩
  · simp only [accepted_append_iff, Action.push.injEq, and_true, exists_eq', or_true, true_or]
  · intro t ht c later ha
    simp only [List.mem_cons, List.not_mem_nil, or_false] at ht
    rcases ht with rfl | rfl | rfl | rfl | rfl | rfl | rfl <;> cases ha
  · refine finished_of_idle (fun c => ?_) rfl (fun w => ?_) _
    · by_cases hc : c = 0 <;> simp [State.toHandler, State.toWorker, hc, daemon, State.init]
    · exact forall_worker (Q := (· = .waiting)) rfl rfl w
  · exact PendingWrites.removeIf_insert

end Sample

/-- A write is committed. -/
theorem last_wins_drained :
    ∃ (h : Sample.Log) (s : Sample.Machine), DaemonRun writeQueueCapacity DrainingInOrder h s ∧
    s.object (Sample.job 0 [1]).slot = some [1] := by
  obtain ⟨h, s, hrun, -, hlast, hfin, -, -⟩ := Sample.drained
  exact ⟨h, s, hrun, last_wins hrun (Sample.job 0 [1]) hlast hfin⟩

/-- **The last write may be lost.** The first worker checks the shadow of a write; the `Set` of
the same lookup that follows is committed by the second worker; then the first one commits. -/
theorem last_wins_fails :
    ¬ ∀ (h : Sample.Log) s, DaemonRun writeQueueCapacity Draining h s → LastWins h s := by
  intro hall
  have h₀ : Run (Step writeQueueCapacity) Sample.daemon Draining [] Sample.daemon := .start
  have h₁ := h₀.next (a := .set 0 (Sample.job 0 [1])) (by exact ⟨trivial, id, id⟩)
    (.set rfl (Sample.fresh_daemon _) rfl)
  have h₂ := h₁.next (a := .push 0 (Sample.job 0 [1])) (by exact ⟨trivial, id, id⟩)
    (.push rfl (by decide))
  have h₃ := h₂.next (a := .recv 0 (Sample.job 0 [1])) (by exact ⟨trivial, id, id⟩) (.recv rfl rfl)
  have h₄ := h₃.next (a := .prepare 0 (Sample.prepared 0 [1]).job .ok) (by exact ⟨rfl, id, id⟩)
    (.prepared rfl)
  have h₅ := h₄.next (a := .check 0 (Sample.prepared 0 [1]).job) (by exact ⟨trivial, id, id⟩)
    (step_check rfl PendingWrites.holds_insert)
  have hfresh := fresh_clock ⟨_, _, h₅⟩ (by rintro s₀ c job hm; simp at hm; rw [hm.2.2]; rfl)
  have h₆ := h₅.next (a := .set 0 (Sample.job 1 [2])) (by exact ⟨trivial, id, id⟩)
    (.set rfl hfresh rfl)
  have h₇ := h₆.next (a := .push 0 (Sample.job 1 [2])) (by exact ⟨trivial, id, id⟩)
    (.push rfl (by decide))
  have h₈ := h₇.next (a := .recv 1 (Sample.job 1 [2])) (by exact ⟨trivial, id, id⟩) (.recv rfl rfl)
  have h₉ := h₈.next (a := .prepare 1 (Sample.prepared 1 [2]).job .ok) (by exact ⟨rfl, id, id⟩)
    (.prepared rfl)
  have h₁₀ := h₉.next (a := .check 1 (Sample.prepared 1 [2]).job) (by exact ⟨trivial, id, id⟩)
    (step_check rfl PendingWrites.holds_insert)
  have h₁₁ := h₁₀.next (a := .put 1 (Sample.prepared 1 [2]).job .ok) (by exact ⟨rfl, id, id⟩)
    (.put rfl fun _ => rfl)
  have h₁₂ := h₁₁.next (a := .upsert 1 (Sample.prepared 1 [2]).job .ok) (by exact ⟨rfl, id, id⟩)
    (.upsert rfl fun _ => rfl)
  have h₁₃ := h₁₂.next (a := .cleanup 1 (Sample.job 1 [2]))
    (by exact ⟨trivial, id, id⟩) (.cleanup rfl)
  have h₁₄ := h₁₃.next (a := .put 0 (Sample.prepared 0 [1]).job .ok) (by exact ⟨rfl, id, id⟩)
    (.put rfl fun _ => rfl)
  have h₁₅ := h₁₄.next (a := .upsert 0 (Sample.prepared 0 [1]).job .ok) (by exact ⟨rfl, id, id⟩)
    (.upsert rfl fun _ => rfl)
  have h₁₆ := h₁₅.next (a := .cleanup 0 (Sample.job 0 [1]))
    (by exact ⟨trivial, id, id⟩) (.cleanup rfl)
  have hwins := hall _ _ ⟨_, _, h₁₆⟩ (Sample.job 1 [2]) ?last ?finished
  case last =>
    refine ⟨[_, _, _, _, _], _, 0, [_, _, _, _, _, _, _, _, _, _], rfl, fun t ht c later ha => ?_⟩
    simp only [List.mem_cons, List.not_mem_nil, or_false] at ht
    rcases ht with rfl | rfl | rfl | rfl | rfl | rfl | rfl | rfl | rfl | rfl <;> cases ha
  case finished =>
    refine Sample.finished_of_idle (fun c => ?_) rfl (fun w => ?_) _
    · by_cases hc : c = 0 <;> simp [State.toHandler, State.toWorker, hc, Sample.daemon, State.init]
    · exact Sample.forall_worker (Q := (· = .waiting)) rfl rfl w
  cases (object_put (Run.snoc_iff.mp h₁₄).2.2).symm.trans hwins

/-! ### No read gap -/

/-- Both stores hold the slot. -/
def Stored (s : State R newV5 W) (slot : Slot) : Prop := s.object slot ≠ none ∧ s.vector slot ≠ none

/-- What the stores hold stays, if there is no `Del`. -/
theorem stores_grow {slot : Slot} (hstep : Step capacity s a s') (hd : ¬ a.Deletes) :
    (s.object slot ≠ none → s'.object slot ≠ none) ∧
      (s.vector slot ≠ none → s'.vector slot ≠ none) := by
  constructor
  · intro hne
    rcases object_step hstep slot with heq | ⟨w, p, outcome, -, -, -, hsome⟩ | ⟨c, outcome, rfl, -⟩
    · rwa [heq]
    · simp [hsome]
    · exact absurd trivial hd
  · intro hne
    rcases vector_step hstep slot with heq | ⟨w, p, outcome, -, -, -, hsome⟩ | ⟨c, outcome, rfl, -⟩
    · rwa [heq]
    · simp [hsome]
    · exact absurd trivial hd

theorem Stored.step {slot : Slot} (hs : Stored s slot) (hstep : Step capacity s a s')
    (hd : ¬ a.Deletes) :
    Stored s' slot :=
  ⟨(stores_grow hstep hd).1 hs.1, (stores_grow hstep hd).2 hs.2⟩

/-- Every slot that was set has a shadow, or is stored; and a worker's slot is stored as far as
its commit has come. -/
structure Covered (h : History (State R newV5 W) (Action newV5 W)) (s : State R newV5 W) :
    Prop where
  /-- It has put the payload. -/
  indexing : ∀ w p, s.worker w = .indexing p → s.object p.job.slot ≠ none
  /-- It has committed. -/
  cleaning : ∀ w job, s.worker w = .cleaning job → Stored s job.slot
  /-- The slot has a shadow, or is stored. -/
  covered : ∀ s₀ c job, (s₀, Action.set c job) ∈ h → s.pending job.slot ≠ none ∨ Stored s job.slot

/-- **Every step leaves no gap**: a shadow is dropped by a worker that has committed. -/
theorem covered_step (hI : Covered h s) (hok : Draining h s a) (hstep : Step capacity s a s') :
    Covered (h ++ [(s, a)]) s' := by
  obtain ⟨hsucc, hd, hr⟩ := hok
  refine ⟨fun w p hw => ?_, fun w job hw => ?_, fun s₀ c job hm => ?_⟩
  · rcases indexing_step hstep hw with hw | ⟨-, rfl⟩
    · exact (stores_grow hstep hd).1 (hI.indexing w p hw)
    · simp [object_put hstep]
  · rcases cleaning_step hstep hw with hw | ⟨p, outcome, hw', rfl, rfl⟩ | rfl
    · exact (hI.cleaning w job hw).step hstep hd
    · obtain rfl : outcome = .ok := hsucc
      exact ⟨(stores_grow hstep hd).1 (hI.indexing w p hw'), vector_upsert hstep⟩
    · cases hsucc
  · rcases List.mem_append.mp hm with hm | hm
    · rcases hI.covered s₀ c job hm with hne | hs
      · obtain ⟨v, hv⟩ := Option.ne_none_iff_exists'.mp hne
        rcases shadow_step hstep hv with hv | ⟨c', job', rfl, hslot⟩ | ⟨c', rfl⟩ |
          ⟨ended, hdrops, hslot, -⟩
        · exact .inl (by simp [hv])
        · cases hstep with
          | set _ _ _ => exact .inl (by simp [PendingWrites.insert, hslot])
        · exact absurd trivial hd
        · obtain ⟨w, -, hw⟩ := cleaning_of_drops hstep hr hdrops
          exact .inr (hslot ▸ (hI.cleaning w ended hw).step hstep hd)
      · exact .inr (hs.step hstep hd)
    · simp only [List.mem_singleton, Prod.mk.injEq] at hm
      obtain ⟨-, rfl⟩ := hm
      cases hstep with
      | set _ _ _ => exact .inl (by simp [PendingWrites.insert])

theorem covered_run (hrun : DaemonRun capacity Draining h s) : Covered h s := by
  obtain ⟨object, vector, hrun⟩ := hrun
  refine hrun.invariant ⟨fun w p hw => ?_, fun w job hw => ?_, fun s₀ c job hm => ?_⟩
    fun h s a s' _ hI hok hstep => covered_step hI hok hstep
  · cases hw
  · cases hw
  · cases hm

/-- What is stored stays stored. -/
theorem stored_run {init s : State R newV5 W} {slot : Slot}
    {ok : Guard (State R newV5 W) (Action newV5 W)} (hd : ∀ h s a, ok h s a → ¬ a.Deletes)
    (hinit : Stored init slot) (hrun : Run (Step capacity) init ok h s) :
    Stored s slot := by
  refine Run.invariant_state (I := fun s => Stored s slot) hinit ?_ hrun
  intro h s a s' hs hok hstep
  exact hs.step hstep (hd h s a hok)

/-- **No read gap**: from its acknowledgement on, the slot of a `Set` has a shadow or is stored;
and once a `Get` of it has found no shadow, it is stored, then and ever after. -/
theorem no_read_gap (hrun : DaemonRun capacity Draining h s) (job : WriteJob newV5) :
    (Accepted h job → s.pending.get job.slot ≠ none ∨ Stored s job.slot) ∧
      ∀ h₁ s₁ c h₂, h = h₁ ++ (s₁, Action.getMiss c job.slot) :: h₂ → Accepted h₁ job →
        Stored s₁ job.slot ∧ (∀ t ∈ h₂, Stored t.1 job.slot) ∧ Stored s job.slot := by
  have hcover : ∀ {h : History (State R newV5 W) (Action newV5 W)} {s},
    DaemonRun capacity Draining h s →
      Accepted h job → s.pending job.slot ≠ none ∨ Stored s job.slot := by
    intro h s hrun hacc
    obtain ⟨s₀, c, hm⟩ := set_of_accepted hrun hacc
    exact (covered_run hrun).covered s₀ c job hm
  refine ⟨hcover hrun, ?_⟩
  rintro h₁ s₁ c h₂ rfl hacc
  obtain ⟨object, vector, hrun⟩ := hrun
  obtain ⟨s', hbefore, -, hmiss, hafter⟩ := hrun.split
  have hstored : Stored s₁ job.slot ∧ Stored s' job.slot := by
    cases hmiss with
    | getMiss _ hnone =>
      have hs := (hcover ⟨object, vector, hbefore⟩ hacc).resolve_left fun hne => hne hnone
      exact ⟨hs, hs⟩
  refine ⟨hstored.1, fun t ht => ?_, stored_run (fun _ _ _ hok => hok.2.1) hstored.2 hafter⟩
  obtain ⟨h, h', t', -, hprefix, -⟩ := hafter.exists_of_mem ht
  exact stored_run (fun _ _ _ hok => hok.2.1) hstored.2 hprefix

/-- A `Get` follows a committed write. -/
theorem no_read_gap_drained :
    ∃ (h : Sample.Log) (s : Sample.Machine), DaemonRun writeQueueCapacity Draining h s ∧
    s.handler 1 = .searching (Sample.job 0 [1]).slot ∧ Stored s (Sample.job 0 [1]).slot := by
  obtain ⟨h, s, ⟨object, vector, hrun⟩, hacc, -, -, hidle, hnone⟩ := Sample.drained
  have hrun : Run (Step writeQueueCapacity) (State.init object vector) Draining h s :=
    hrun.mono fun _ _ _ _ _ hok _ => hok.1
  have hget := hrun.next (a := .getMiss 1 (Sample.job 0 [1]).slot) (by exact ⟨trivial, id, id⟩)
    (.getMiss hidle hnone)
  refine ⟨_, _, ⟨_, _, hget⟩, by simp [State.toHandler], ?_⟩
  exact ((no_read_gap ⟨_, _, hget⟩ (Sample.job 0 [1])).2 h s 1 [] rfl hacc).2.2

end Semisweet.Daemon
