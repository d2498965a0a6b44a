import Semisweet.Daemon.Stages

/-!
# Deleting what is being written

`handle_del` removes the shadow and then what the stores hold. A job that is queued or in
`prepare` finds no shadow and skips; only a job that has passed its check writes the entry
again. `WriteJob::run` calls this the resurrect-on-delete window.

## What is proved

* `no_resurrection` — if no job of the slot is in that window when a `Del` removes the
  shadow, and no `Set` of the slot follows, no worker writes the slot again.
-/

namespace Semisweet.Daemon

open Semisweet.Core Semisweet.Foundations

variable {R : Type} [Field R] {newV5 : Uuid → List UInt8 → Uuid} {W : Type} {capacity : ℕ}
  {s s' : State R newV5 W} {a : Action newV5 W}
    {h₁ h₂ : History (State R newV5 W) (Action newV5 W)} {slot : Slot}

/-- A job of the slot is between its check and the end of its commit. -/
def InCommit (s : State R newV5 W) (slot : Slot) : Prop :=
  ∃ w p, (s.worker w = .putting p ∨ s.worker w = .indexing p) ∧ p.job.slot = slot

/-- The action sets nothing in the slot. -/
def Action.SetsElsewhere (slot : Slot) (a : Action newV5 W) : Prop :=
  ∀ c job, a = .set c job → job.slot ≠ slot

/-- The slot has no shadow, and no job of it is in the window. -/
def Cleared (slot : Slot) (s : State R newV5 W) : Prop := s.pending slot = none ∧ ¬ InCommit s slot

variable [DecidableEq W]

/-- Only a `set` gives a slot a shadow. -/
theorem pending_none_step (hstep : Step capacity s a s') (hset : a.SetsElsewhere slot)
    (hnone : s.pending slot = none) : s'.pending slot = none := by
  rcases step_jobs hstep with ⟨c, job, rfl, -, -, -, rfl⟩ | ⟨-, ⟨-, hpend⟩, -⟩
  · have hne : slot ≠ job.slot := (hset c job rfl).symm
    simpa [PendingWrites.insert, Function.update_of_ne hne] using hnone
  · by_contra hsome
    obtain ⟨v, hv⟩ := Option.ne_none_iff_exists'.mp hsome
    rw [hpend slot v hv] at hnone
    cases hnone

/-- **Every step but a `set` leaves the slot cleared.** -/
theorem cleared_step (hI : Cleared slot s) (hset : a.SetsElsewhere slot)
    (hstep : Step capacity s a s') :
    Cleared slot s' := by
  obtain ⟨hnone, hquiet⟩ := hI
  refine ⟨pending_none_step hstep hset hnone, ?_⟩
  rintro ⟨w, p, hw | hw, rfl⟩
  · rcases putting_step hstep hw with hw | ⟨-, -, hholds⟩
    · exact hquiet ⟨w, p, .inl hw, rfl⟩
    · obtain ⟨v, hv, -⟩ := PendingWrites.holds_iff.mp hholds
      rw [hnone] at hv
      cases hv
  · rcases indexing_step hstep hw with hw | ⟨hw, -⟩
    · exact hquiet ⟨w, p, .inr hw, rfl⟩
    · exact hquiet ⟨w, p, .inl hw, rfl⟩

/-- Who writes a slot is in the window. -/
theorem inCommit_of_writes (hstep : Step capacity s a s') (hw : a.writes = some slot) :
    InCommit s slot := by
  cases hstep with
  | put hw' _ =>
    obtain rfl := Option.some.inj hw
    exact ⟨_, _, .inl hw', rfl⟩
  | upsert hw' _ =>
    obtain rfl := Option.some.inj hw
    exact ⟨_, _, .inr hw', rfl⟩
  | _ => cases hw

/-- What no worker writes, the stores only lose. -/
theorem stores_step (hstep : Step capacity s a s') (hw : a.writes ≠ some slot) :
    (∀ v, s'.object slot = some v → s.object slot = some v) ∧
      ∀ e, s'.vector slot = some e → s.vector slot = some e := by
  constructor
  · intro v hv
    rcases object_step hstep slot with heq | ⟨w, p, outcome, -, rfl, hslot, -⟩ | ⟨-, -, -, hnone⟩
    · exact heq ▸ hv
    · exact absurd (congrArg some hslot) hw
    · rw [hnone] at hv
      cases hv
  · intro e he
    rcases vector_step hstep slot with heq | ⟨w, p, outcome, -, rfl, hslot, -⟩ | ⟨-, -, -, hnone⟩
    · exact heq ▸ he
    · exact absurd (congrArg some hslot) hw
    · rw [hnone] at he
      cases he

/-- **No resurrection**: if no job of the slot is in the window when a `Del` removes its shadow,
and no `Set` of the slot follows, no worker writes the slot again, and the stores hold nothing
for it that they did not hold then. -/
theorem no_resurrection {s₁ : State R newV5 W} {c : ℕ}
    (hrun : DaemonRun capacity Always (h₁ ++ (s₁, Action.del c slot) :: h₂) s)
    (hquiet : ¬ InCommit s₁ slot) (hset : ∀ t ∈ h₂, t.2.SetsElsewhere slot) :
    (∀ t ∈ h₂, t.2.writes ≠ some slot) ∧ (∀ v, s.object slot = some v → s₁.object slot = some v) ∧
      ∀ e, s.vector slot = some e → s₁.vector slot = some e := by
  obtain ⟨object, vector, hrun⟩ := hrun
  obtain ⟨s', -, -, hdel, hafter⟩ := hrun.split
  have hafter : Run (Step capacity) s' (fun _ _ a => a.SetsElsewhere slot) h₂ s :=
    hafter.of_forall hset
  have hstart : Cleared slot s' ∧ s'.object = s₁.object ∧ s'.vector = s₁.vector := by
    cases hdel with
    | del _ => exact ⟨⟨by simp [PendingWrites.remove], hquiet⟩, rfl, rfl⟩
  have hclear : ∀ {h : History (State R newV5 W) (Action newV5 W)} {t},
      Run (Step capacity) s' (fun _ _ a => a.SetsElsewhere slot) h t → Cleared slot t := by
    intro h t hr
    refine Run.invariant_state hstart.1 ?_ hr
    intro _ _ _ _ hI hset hstep
    exact cleared_step hI hset hstep
  refine ⟨fun t ht hw => ?_, ?_⟩
  · obtain ⟨h, h', t', -, hbefore, -, hstep, -⟩ := hafter.exists_of_mem ht
    exact (hclear hbefore).2 (inCommit_of_writes hstep hw)
  · -- what the stores hold for the slot only goes
    refine hafter.invariant (I := fun _ t => (∀ v, t.object slot = some v →
      s₁.object slot = some v) ∧
      ∀ e, t.vector slot = some e → s₁.vector slot = some e) ?_ fun h t a t' hr hI _ hstep => ?_
    · rw [hstart.2.1, hstart.2.2]
      exact ⟨fun _ => id, fun _ => id⟩
    · have hloses := stores_step hstep fun hw => (hclear hr).2 (inCommit_of_writes hstep hw)
      exact ⟨fun v hv => hI.1 v (hloses.1 v hv), fun e he => hI.2 e (hloses.2 e he)⟩

/-- A write is deleted while it is in `prepare`, and skips. -/
theorem no_resurrection_preparing : ∃ (h₁ h₂ : Sample.Log) (s₁ s : Sample.Machine),
    DaemonRun writeQueueCapacity Always (h₁ ++ (s₁, .del 1 (Sample.job 0 [1]).slot) :: h₂) s ∧
      s₁.worker 0 = .preparing (Sample.job 0 [1]) ∧ h₂.length = 2 ∧ s.queue = [] ∧
        ∀ t ∈ h₂, t.2.writes ≠ some (Sample.job 0 [1]).slot := by
  have h₀ : Run (Step writeQueueCapacity) Sample.daemon Always [] Sample.daemon := .start
  have h₁ := h₀.next (a := .set 0 (Sample.job 0 [1])) trivial (.set rfl (Sample.fresh_daemon _) rfl)
  have h₂ := h₁.next (a := .push 0 (Sample.job 0 [1])) trivial (.push rfl (by decide))
  have h₃ := h₂.next (a := .recv 0 (Sample.job 0 [1])) trivial (.recv rfl rfl)
  have h₄ := h₃.next (a := .del 1 (Sample.job 0 [1]).slot) trivial (.del rfl)
  have h₅ := h₄.next (a := .prepare 0 (Sample.prepared 0 [1]).job .ok) trivial (.prepared rfl)
  have h₆ := h₅.next (a := .check 0 (Sample.prepared 0 [1]).job) trivial (.check rfl)
  rw [List.append_assoc, List.append_assoc] at h₆
  have hrun : DaemonRun writeQueueCapacity Always
    (_ ++ (_, .del 1 (Sample.job 0 [1]).slot) :: [_, _]) _ := ⟨_, _, h₆⟩
  refine ⟨_, _, _, _, hrun, rfl, rfl, rfl, (no_resurrection hrun ?_ ?_).1⟩
  · rintro ⟨w, p, hw | hw, -⟩ <;> rw [State.toWorker_worker] at hw <;> split at hw <;> cases hw
  · intro t ht c job ha
    simp only [List.mem_cons, List.not_mem_nil, or_false] at ht
    rcases ht with rfl | rfl <;> cases ha

end Semisweet.Daemon
