import Semisweet.Daemon.Stages
import Semisweet.Core.CacheHistory

/-!
# The shadow buffer

The documentation of `PendingWrites` says that the buffer only ever holds in-flight writes,
and the rejection path of `handle_set` that it never drops the shadow of an accepted write.
This module says when each is so.

A job drops its shadow when it is done, and looks at it before it commits; but a job whose
`prepare` fails returns without either, and a job that panics never comes to it. A rejected
`Set` drops its own shadow; but its `insert` may have replaced the shadow of an accepted
one, whose job then finds that it does not hold its value and skips.

## What is proved

* `inFlightOnly_iff` — in every run, every shadow belongs to a live job in every state
  visited, if and only if no job is abandoned while the buffer holds its value.
* `kept` — in every run in which no rejected `Set` replaced a shadow, an accepted `Set` that
  was not superseded or deleted is served from the shadow as long as its job lives, and its
  check passes.
* `inFlightOnly_fails`, `kept_fails` — neither holds of every run.
-/

namespace Semisweet.Daemon

open Semisweet.Core Semisweet.Foundations

variable {R : Type} [Field R] {newV5 : Uuid → List UInt8 → Uuid} {W : Type}
  [DecidableEq W] {capacity : ℕ}
  {s s' : State R newV5 W} {a : Action newV5 W} {h : History (State R newV5 W) (Action newV5 W)}

/-! ### Only in-flight writes -/

/-- **The buffer only holds in-flight writes**: every shadow is of a job that a handler or a
worker has, or that is in the queue. -/
def InFlightOnly (s : State R newV5 W) : Prop :=
  ∀ slot v, s.pending slot = some v → ∃ job, s.Live job ∧ job.slot = slot ∧ job.value = v

/-- A job is only abandoned when the buffer does not hold its value. -/
def CleanExit (s : State R newV5 W) (a : Action newV5 W) : Prop :=
  ∀ job, a.abandons = some job → s.pending.holds job.slot job.value = false

/-- A step that abandons no shadow keeps the buffer to in-flight writes. -/
theorem inFlightOnly_step (hI : InFlightOnly s) (hclean : CleanExit s a)
    (hstep : Step capacity s a s') :
    InFlightOnly s' := by
  intro slot v hv
  have hold : s.pending slot = some v → ∃ job, s'.Live job ∧ job.slot = slot ∧ job.value = v := by
    intro hv₀
    obtain ⟨job, hl, rfl, rfl⟩ := hI slot v hv₀
    have hholds : s.pending.holds job.slot job.value = true :=
      PendingWrites.holds_iff.mpr ⟨_, hv₀, rfl⟩
    rcases live_step hstep hl with hl | ⟨-, hpend⟩ | ⟨-, hno⟩ | hab
    · exact ⟨job, hl, rfl, rfl⟩
    · rw [hpend, PendingWrites.removeIf_of_holds hholds, Function.update_self] at hv
      cases hv
    · rw [hholds] at hno
      cases hno
    · rw [hclean job hab] at hholds
      cases hholds
  rcases step_jobs hstep with ⟨c, job, -, -, -, -, rfl⟩ | ⟨-, ⟨-, hpend⟩, -⟩
  · by_cases hslot : slot = job.slot
    · subst hslot
      simp only [State.toHandler_pending, PendingWrites.insert, Function.update_self,
        Option.some.injEq] at hv
      exact ⟨job, ⟨.conn c, by simp [Handler.job]⟩, rfl, hv⟩
    · apply hold
      simpa [PendingWrites.insert, Function.update_of_ne hslot] using hv
  · exact hold (hpend slot v hv)

/-- A step that abandons a shadow leaves it to no job. -/
theorem not_inFlightOnly (ht : Tokens s) (hstep : Step capacity s a s') {job : WriteJob newV5}
    (hab : a.abandons = some job) (hholds : s.pending.holds job.slot job.value = true) :
    ¬ InFlightOnly s' := by
  intro hI
  obtain ⟨v, hv, haddr⟩ := PendingWrites.holds_iff.mp hholds
  have hv' : s'.pending job.slot = some v := by
    rcases shadow_step hstep hv with hv' | ⟨c, job', rfl, -⟩ | ⟨c, rfl⟩ | ⟨job', hdrops, -⟩
    · exact hv'
    · simp [Action.abandons] at hab
    · simp [Action.abandons] at hab
    · cases a <;> simp [Action.abandons, Action.drops] at hab hdrops
  obtain ⟨other, hl, -, rfl⟩ := hI job.slot v hv'
  exact addr_ne_of_ends ht hstep (.inr hab) hl haddr

/-- **When the buffer only holds in-flight writes**: in every state a run visits, if and only
if no job of the run is abandoned while the buffer holds its value. -/
theorem inFlightOnly_iff (hrun : DaemonRun capacity Always h s) :
    ((∀ t ∈ h, InFlightOnly t.1) ∧ InFlightOnly s) ↔ ∀ t ∈ h, CleanExit t.1 t.2 := by
  obtain ⟨object, vector, hrun⟩ := hrun
  constructor
  · rintro ⟨hall, hs⟩ t ht job hab
    obtain ⟨h₁, h₂, rfl⟩ := List.append_of_mem ht
    obtain ⟨s', hbefore, -, hstep, hafter⟩ := hrun.split
    by_contra hholds
    refine not_inFlightOnly (tokens_run ⟨object, vector, hbefore⟩) hstep hab
      (by simpa using hholds) ?_
    exact hafter.init_of_visited (fun t' ht' => hall t' (by simp [ht'])) hs
  · intro hclean
    have hinit : InFlightOnly (State.init object vector : State R newV5 W) := by
      intro slot v hv
      cases hv
    have hinv : ∀ {h : History (State R newV5 W) (Action newV5 W)} {s},
        Run (Step capacity) (State.init object vector) (fun _ => CleanExit) h s →
          InFlightOnly s := by
      intro h s hr
      refine Run.invariant_state hinit ?_ hr
      intro _ s a s' hI hclean hstep
      exact inFlightOnly_step hI hclean hstep
    have hgood := hrun.of_forall hclean
    refine ⟨fun t ht => ?_, hinv hgood⟩
    obtain ⟨h₁, h₂, s', -, hbefore, -⟩ := hgood.exists_of_mem ht
    exact hinv hbefore

/-- A write is set and queued. -/
theorem inFlightOnly_queued : ∃ (h : Sample.Log) (s : Sample.Machine),
    DaemonRun writeQueueCapacity Always h s ∧ s.Live (Sample.job 0 []) ∧ InFlightOnly s := by
  have h₀ : Run (Step writeQueueCapacity) Sample.daemon Always [] Sample.daemon := .start
  have h₁ := h₀.next (a := .set 0 (Sample.job 0 [])) trivial (.set rfl (Sample.fresh_daemon _) rfl)
  have h₂ := h₁.next (a := .push 0 (Sample.job 0 [])) trivial (.push rfl (by decide))
  refine ⟨_, _, ⟨_, _, h₂⟩, ⟨.queued 0, rfl⟩, ((inFlightOnly_iff ⟨_, _, h₂⟩).mpr
    fun t ht job hab => ?_).2⟩
  simp only [List.nil_append, List.cons_append, List.mem_cons, List.not_mem_nil, or_false] at ht
  rcases ht with rfl | rfl <;> cases hab

/-- **The buffer may hold more.** A write is set and queued, and its `prepare` fails. -/
theorem inFlightOnly_fails :
    ¬ ∀ (h : Sample.Log) s, DaemonRun writeQueueCapacity Always h s → InFlightOnly s := by
  intro hall
  have h₀ : Run (Step writeQueueCapacity) Sample.daemon Always [] Sample.daemon := .start
  have h₁ := h₀.next (a := .set 0 (Sample.job 0 [])) trivial (.set rfl (Sample.fresh_daemon _) rfl)
  have h₂ := h₁.next (a := .push 0 (Sample.job 0 [])) trivial (.push rfl (by decide))
  have h₃ := h₂.next (a := .recv 0 (Sample.job 0 [])) trivial (.recv rfl rfl)
  have h₄ := h₃.next (a := .prepare 0 (Sample.job 0 []) .error) trivial
    (.unprepared rfl (by decide))
  refine not_inFlightOnly (tokens_run ⟨_, _, h₃⟩) (Run.snoc_iff.mp h₄).2.2 rfl ?_
    (hall _ _ ⟨_, _, h₄⟩)
  exact PendingWrites.holds_insert

/-! ### Rejected writes -/

/-- A later `Set` of the same slot, which was not rejected. -/
def Superseded (h : History (State R newV5 W) (Action newV5 W)) (job : WriteJob newV5) : Prop :=
  ∃ s c later, (s, Action.set c later) ∈ h ∧ later.slot = job.slot ∧
    job.value.birth < later.value.birth ∧
    ¬ Rejected h later

/-- A `Del` of the slot removed shadows since. -/
def Deleted (h : History (State R newV5 W) (Action newV5 W)) (job : WriteJob newV5) : Prop :=
  ∃ s c, (s, Action.del c job.slot) ∈ h ∧ job.value.birth < s.clock

/-- **A rejected write has no effect**: an accepted `Set` that was not superseded or deleted is
served from the shadow as long as its job lives, its check passes when it runs, and once it
has ended it has committed, if every call succeeded. -/
def Kept (h : History (State R newV5 W) (Action newV5 W)) (s : State R newV5 W) : Prop :=
  ∀ job, Accepted h job → ¬ Superseded h job → ¬ Deleted h job →
    (s.Live job → s.pending.get job.slot = some job.value) ∧
      (∀ s₁ w, (s₁, Action.check w job) ∈ h → s₁.pending.holds job.slot job.value = true) ∧
        ((∀ t ∈ h, t.2.Succeeds) → ¬ s.Live job → Committed h job)

/-- A `Set` is only rejected if its `insert` replaced no shadow. -/
def RejectsOnEmpty : Guard (State R newV5 W) (Action newV5 W) := fun h _ a =>
  ∀ c job, a = .reject c job → ∀ s₀ c₀, (s₀, Action.set c₀ job) ∈ h → s₀.pending job.slot = none

/-- A later `Set` of the slot replaced a shadow. -/
def Replaced (h : History (State R newV5 W) (Action newV5 W)) (job : WriteJob newV5) : Prop :=
  ∃ s₀ c later, (s₀, Action.set c later) ∈ h ∧ later.slot = job.slot ∧
    job.value.birth < later.value.birth ∧
    s₀.pending job.slot ≠ none

/-- The shadow of a job is there, or was replaced. -/
def ShadowedOrReplaced (h : History (State R newV5 W) (Action newV5 W)) (s : State R newV5 W) :
    Prop :=
  ∀ job, s.Live job → ¬ Deleted h job → s.pending job.slot = some job.value ∨ Replaced h job

omit [DecidableEq W] in
theorem Deleted.mono {job : WriteJob newV5} {h' : History (State R newV5 W) (Action newV5 W)}
    (hsub : h ⊆ h') (hd : Deleted h job) : Deleted h' job := by
  obtain ⟨s, c, hm, hlt⟩ := hd
  exact ⟨s, c, hsub hm, hlt⟩

omit [DecidableEq W] in
theorem Replaced.mono {job : WriteJob newV5} {h' : History (State R newV5 W) (Action newV5 W)}
    (hsub : h ⊆ h') (hr : Replaced h job) : Replaced h' job := by
  obtain ⟨s, c, later, hm, hrest⟩ := hr
  exact ⟨s, c, later, hsub hm, hrest⟩

/-- **Every step keeps a job's shadow**, or replaces it. -/
theorem shadowedOrReplaced_step (ht : Tokens s) (hI : ShadowedOrReplaced h s)
    (hstep : Step capacity s a s') :
    ShadowedOrReplaced (h ++ [(s, a)]) s' := by
  intro job hl hdel
  have hold : s.Live job → s'.pending job.slot = some job.value ∨ Replaced (h ++ [(s, a)]) job := by
    intro hl₀
    obtain ⟨p, hp⟩ := hl₀
    have hpast := ht.past p job hp
    rcases hI job ⟨p, hp⟩ fun hd => hdel (hd.mono (List.subset_append_left _ _)) with hv | hrep
    · rcases shadow_step hstep hv with hv | ⟨c, later, rfl, hslot⟩ | ⟨c, rfl⟩ |
        ⟨ended, hdrops, -, haddr⟩
      · exact .inl hv
      · refine .inr ⟨s, c, later, by simp, hslot, ?_, by simp [hv]⟩
        rcases step_jobs hstep with ⟨c', job', ha, -, -, hbirth, -⟩ | ⟨hno, -⟩
        · cases ha
          exact hbirth ▸ hpast
        · exact absurd rfl (hno c later)
      · exact absurd ⟨s, c, by simp, hpast⟩ hdel
      · exact absurd haddr (addr_ne_of_ends ht hstep (.inl hdrops) hl)
    · exact .inr (hrep.mono (List.subset_append_left _ _))
  obtain ⟨p, hp⟩ := hl
  rcases step_jobs hstep with ⟨c, new, rfl, -, -, -, rfl⟩ | ⟨-, ⟨⟨f, -, hjobs⟩, -⟩, -⟩
  · rcases jobAt_set hp with ⟨-, rfl⟩ | ⟨-, hp⟩
    · exact .inl (by simp [PendingWrites.insert])
    · exact hold ⟨p, hp⟩
  · exact hold ⟨f p, hjobs p job hp⟩

theorem shadowedOrReplaced_run {ok : Guard (State R newV5 W) (Action newV5 W)}
    (hrun : DaemonRun capacity ok h s) : ShadowedOrReplaced h s := by
  obtain ⟨object, vector, hrun⟩ := hrun
  refine hrun.invariant (fun job hl => ?_) fun h s a s' hr hI _ hstep =>
    shadowedOrReplaced_step (tokens_run ⟨object, vector, hr⟩) hI hstep
  obtain ⟨p, hp⟩ := hl
  cases p <;> cases hp

/-- A rejected `Set` replaced no shadow, so a replaced one is superseded. -/
theorem superseded_of_replaced {job : WriteJob newV5} (hrun : DaemonRun capacity RejectsOnEmpty h s)
    (hrep : Replaced h job) : Superseded h job := by
  have honce := setOnce_run hrun
  obtain ⟨object, vector, hrun⟩ := hrun
  obtain ⟨s₀, c, later, hm, hslot, hlt, hne⟩ := hrep
  refine ⟨s₀, c, later, hm, hslot, hlt, ?_⟩
  rintro ⟨sr, cr, hmr⟩
  obtain ⟨h₁, h₂, s', rfl, hbefore, hempty, hstep, -⟩ := hrun.exists_of_mem hmr
  cases hstep with
  | reject hc hfull =>
    obtain ⟨s₁, c₁, hm₁⟩ := (setOnce_run ⟨object, vector, hbefore⟩).live later
      ⟨.conn cr, by simpa [State.jobAt, Handler.job] using congrArg Handler.job hc⟩
    have hsame := (honce.once s₀ c later s₁ c₁ later hm (List.mem_append_left _ hm₁) rfl).1
    exact hne (hslot ▸ hsame ▸ hempty cr later rfl s₁ c₁ hm₁)

/-- **Rejected writes have no effect** in every run in which they replaced no shadow. -/
theorem kept (hrun : DaemonRun capacity RejectsOnEmpty h s) : Kept h s := by
  intro job hacc hsuper hdel
  have hrep : ¬ Replaced h job := fun hrep => hsuper (superseded_of_replaced hrun hrep)
  have hcheck : ∀ s₁ w, (s₁, Action.check w job) ∈ h →
      s₁.pending.holds job.slot job.value = true := by
    intro s₁ w hm
    obtain ⟨object, vector, hrun⟩ := hrun
    obtain ⟨h₁, h₂, s', rfl, hbefore, -, hstep, -⟩ := hrun.exists_of_mem hm
    have hlive : s₁.Live job := by
      cases hstep with
      | check hw =>
        exact ⟨.worker w, by simpa [State.jobAt, Worker.job] using congrArg Worker.job hw⟩
    rcases shadowedOrReplaced_run ⟨object, vector, hbefore⟩ job hlive
      fun hd => hdel (hd.mono (List.subset_append_left _ _)) with hv | hrep₁
    · exact PendingWrites.holds_iff.mpr ⟨_, hv, rfl⟩
    · exact absurd (hrep₁.mono (List.subset_append_left _ _)) hrep
  refine ⟨fun hl => (shadowedOrReplaced_run hrun job hl hdel).resolve_right hrep, hcheck,
    fun hok hl => ?_⟩
  obtain ⟨s₀, c, hset⟩ := set_of_accepted hrun hacc
  have hnr := ((answered_run hrun).accepted job hacc).2.2
  obtain ⟨object, vector, hrun⟩ := hrun
  rcases fate_run ⟨object, vector, hrun.of_forall (fun t ht => hok t ht)⟩ hset with hl' | hc |
    ⟨s₁, w, hm, hno⟩ | hr
  · exact absurd hl' hl
  · exact hc
  · rw [hcheck s₁ w hm] at hno
    cases hno
  · exact absurd hr hnr

/-- A write is queued, and a `Set` of another lookup is rejected. -/
theorem kept_rejected : ∃ (h : Sample.Log) (s : Sample.Machine), DaemonRun 1 RejectsOnEmpty h s ∧
    Rejected h (Sample.other 1 []) ∧ s.Live (Sample.job 0 []) ∧ Kept h s := by
  have hfree : ∀ (h : Sample.Log) s a, (∀ c job, a ≠ .reject c job) → RejectsOnEmpty h s a := by
    intro h s a hne c job ha
    exact absurd ha (hne c job)
  have h₀ : Run (Step 1) Sample.daemon RejectsOnEmpty [] Sample.daemon := .start
  have h₁ := h₀.next (a := .set 0 (Sample.job 0 [])) (hfree _ _ _ (by simp))
    (.set rfl (Sample.fresh_daemon _) rfl)
  have h₂ := h₁.next (a := .push 0 (Sample.job 0 [])) (hfree _ _ _ (by simp))
    (.push rfl (by decide))
  have hfresh := fresh_clock ⟨_, _, h₂⟩ (by rintro s₀ c job hm; simp at hm; rw [hm.2.2]; rfl)
  have h₃ := h₂.next (a := .set 0 (Sample.other 1 [])) (hfree _ _ _ (by simp)) (.set rfl hfresh rfl)
  have h₄ := h₃.next (a := .reject 0 (Sample.other 1 [])) ?_ (.reject rfl (by decide))
  · have h₅ := h₄.next (a := .unshadow 0 (Sample.other 1 [])) (hfree _ _ _ (by simp))
      (.unshadow rfl)
    refine ⟨_, _, ⟨_, _, h₅⟩, ?_, ⟨.queued 0, rfl⟩, kept ⟨_, _, h₅⟩⟩
    exact rejected_append_iff.mpr (.inl (rejected_append_iff.mpr (.inr ⟨0, rfl⟩)))
  · rintro c job ha s₀ c₀ hm
    cases ha
    simp only [List.cons_append, List.nil_append, List.mem_cons, List.not_mem_nil,
      or_false, Prod.mk.injEq,
      reduceCtorEq, and_false, false_or] at hm
    rcases hm with ⟨-, ha⟩ | ⟨rfl, -⟩
    · cases congrArg (fun job => job.value.birth) (Action.set.inj ha).2
    · simp [PendingWrites.insert, Function.update_of_ne (Sample.slot_ne 1 0 [] []),
        Sample.daemon, State.init]

namespace Sample

/-- This many writes of one lookup are set and queued, none taken by a worker. -/
structure Filled (n : ℕ) (h : Log) (s : Machine) : Prop where
  /-- Every call succeeds. -/
  run : Run (Step writeQueueCapacity) daemon Succeeding h s
  /-- They are in the queue. -/
  queue : s.queue = (List.range n).map fun i => job i []
  /-- No connection has a request. -/
  handler : ∀ c, s.handler c = .idle
  /-- So many allocations were made. -/
  clock : s.clock = n
  /-- Nothing else was done. -/
  events : ∀ t ∈ h, ∃ i < n, t.2 = .set 0 (job i []) ∨ t.2 = .push 0 (job i [])
  /-- They are accepted. -/
  accepted : ∀ i < n, Accepted h (job i [])

theorem Filled.fresh {n : ℕ} {h : Log} {s : Machine} (hf : Filled n h s) : s.Fresh n := by
  refine hf.clock ▸ fresh_clock ⟨_, _, hf.run⟩ fun s₀ c job hm => ?_
  obtain ⟨i, -, ha | ha⟩ := hf.events _ hm
  · cases ha
    rfl
  · cases ha

theorem filled (n : ℕ) (hn : n ≤ writeQueueCapacity) : ∃ h s, Filled n h s := by
  induction n with
  | zero =>
    refine ⟨[], daemon, .start, rfl, fun _ => rfl, rfl, fun _ ht => ?_, fun _ hi => ?_⟩
    · cases ht
    · cases hi
  | succ n ih =>
    obtain ⟨h, s, hf⟩ := ih (by omega)
    have h₁ := hf.run.next (a := .set 0 (job n [])) (by trivial)
      (.set (hf.handler 0) hf.fresh hf.clock.symm)
    have hroom : s.queue.length < writeQueueCapacity := by
      simp only [hf.queue, List.length_map, List.length_range]
      omega
    have h₂ := h₁.next (a := .push 0 (job n [])) (by trivial)
      (.push (by simp [State.toHandler]) (by exact hroom))
    refine ⟨_, _, h₂, ?_, fun c => ?_, ?_, fun t ht => ?_, fun i hi => ?_⟩
    · simp [State.toHandler, hf.queue, List.range_succ]
    · by_cases hc : c = 0 <;> simp [State.toHandler, hc, hf.handler]
    · simp [hf.clock]
    · simp only [List.append_assoc, List.cons_append, List.nil_append,
        List.mem_append, List.mem_cons,
        List.not_mem_nil, or_false] at ht
      rcases ht with ht | rfl | rfl
      · obtain ⟨i, hi, hti⟩ := hf.events t ht
        exact ⟨i, by omega, hti⟩
      · exact ⟨n, by omega, .inl rfl⟩
      · exact ⟨n, by omega, .inr rfl⟩
    · rw [accepted_append_iff, accepted_append_iff]
      by_cases hin : i = n
      · exact .inr ⟨0, hin ▸ rfl⟩
      · exact .inl (.inl (hf.accepted i (by omega)))

end Sample

/-- **A rejected write may have an effect.** The queue is full of writes of one lookup; one
more is rejected, and the last accepted one is not served any more. -/
theorem kept_fails :
    ¬ ∀ (h : Sample.Log) s, DaemonRun writeQueueCapacity Succeeding h s → Kept h s := by
  intro hall
  obtain ⟨h, s, hf⟩ := Sample.filled 1024 le_rfl
  have h₁ := hf.run.next (a := .set 0 (Sample.job 1024 [])) (by trivial)
    (.set (hf.handler 0) hf.fresh hf.clock.symm)
  have hfull : writeQueueCapacity ≤ s.queue.length := by simp [hf.queue, writeQueueCapacity]
  have h₂ := h₁.next (a := .reject 0 (Sample.job 1024 [])) (by trivial)
    (.reject (by simp [State.toHandler]) (by exact hfull))
  have h₃ := h₂.next (a := .unshadow 0 (Sample.job 1024 [])) (by trivial)
    (.unshadow (by simp [State.toHandler]))
  have hkept := (hall _ _ ⟨_, _, h₃⟩ (Sample.job 1023 []) ?accepted ?superseded ?deleted).1
  case accepted => exact (hf.accepted 1023 (by decide)).mono (by simp)
  case superseded =>
    rintro ⟨s', c, later, hm, -, hlt, hnr⟩
    simp only [List.append_assoc, List.cons_append, List.nil_append, List.mem_append, List.mem_cons,
      List.not_mem_nil, or_false, Prod.mk.injEq, reduceCtorEq, and_false] at hm
    rcases hm with hm | ⟨-, ha⟩
    · obtain ⟨i, hi, ha | ha⟩ := hf.events _ hm
      · cases ha
        change 1023 < i at hlt
        omega
      · cases ha
    · cases ha
      exact hnr (rejected_append_iff.mpr (.inl (rejected_append_iff.mpr (.inr ⟨0, rfl⟩))))
  case deleted =>
    rintro ⟨s', c, hm, -⟩
    simp only [List.append_assoc, List.cons_append, List.nil_append, List.mem_append, List.mem_cons,
      List.not_mem_nil, or_false, Prod.mk.injEq, reduceCtorEq, and_false] at hm
    obtain ⟨i, hi, ha | ha⟩ := hf.events _ hm <;> cases ha
  have hserved := hkept ⟨.queued 1023, by simp [State.jobAt, State.toHandler, hf.queue]⟩
  cases PendingWrites.removeIf_insert.symm.trans hserved

end Semisweet.Daemon
